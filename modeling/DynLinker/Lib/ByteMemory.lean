import Mathlib.Data.List.Basic
import Mathlib.Data.List.Range

/-! A flat memory of bytes: writing a run of bytes, and what it leaves alone. -/

set_option autoImplicit false

namespace DynLinker.Lib

abbrev ByteMemory : Type := Nat → UInt8

/-- Addresses from `base` on, `size` of them. -/
structure Region where
  base : Nat
  size : Nat
deriving DecidableEq

namespace Region

def Apart (left right : Region) : Prop :=
  left.base + left.size ≤ right.base ∨ right.base + right.size ≤ left.base

instance (left right : Region) : Decidable (left.Apart right) :=
  inferInstanceAs (Decidable (_ ∨ _))

def Inside (inner outer : Region) : Prop :=
  outer.base ≤ inner.base ∧ inner.base + inner.size ≤ outer.base + outer.size

def Contains (region : Region) (query : Nat) : Prop :=
  region.base ≤ query ∧ query < region.base + region.size

instance (region : Region) (query : Nat) : Decidable (region.Contains query) :=
  inferInstanceAs (Decidable (_ ∧ _))

theorem Apart.symm {left right : Region} (apart : left.Apart right) : right.Apart left :=
  Or.symm apart

theorem Apart.inside {left right inner : Region} (apart : left.Apart right)
    (inside : inner.Inside right) : left.Apart inner := by
  simp only [Apart, Inside] at *
  omega

end Region

namespace ByteMemory

/-- `length` bytes from an address on. -/
def slice (memory : ByteMemory) (address length : Nat) : List UInt8 :=
  (List.range length).map fun i => memory (address + i)

def write (memory : ByteMemory) (address : Nat) (bytes : List UInt8) : ByteMemory :=
  fun query => if address ≤ query then (bytes[query - address]?).getD (memory query)
    else memory query

/-- The bytes stand in memory from this address on. -/
def Holds (memory : ByteMemory) (address : Nat) (bytes : List UInt8) : Prop :=
  ∀ i byte, bytes[i]? = some byte → memory (address + i) = byte

/-- The memories agree on a region. -/
def Agree (left right : ByteMemory) (region : Region) : Prop :=
  ∀ query, region.base ≤ query → query < region.base + region.size → left query = right query

theorem slice_length (memory : ByteMemory) (address length : Nat) :
    (memory.slice address length).length = length := by
  simp [slice]

theorem slice_succ (memory : ByteMemory) (address length : Nat) :
    memory.slice address (length + 1) = memory address :: memory.slice (address + 1) length := by
  rw [slice, List.range_succ_eq_map, List.map_cons, List.map_map, slice]
  simp [Function.comp_def, Nat.add_assoc, Nat.add_comm 1]

theorem holds_cons {memory : ByteMemory} {address : Nat} {first : UInt8} {rest : List UInt8} :
    memory.Holds address (first :: rest) ↔
      memory address = first ∧ memory.Holds (address + 1) rest := by
  constructor
  · intro held
    refine ⟨held 0 first rfl, fun i byte found => ?_⟩
    rw [Nat.add_assoc, Nat.add_comm 1]
    exact held (i + 1) byte found
  · rintro ⟨here, later⟩ i byte found
    cases i with
    | zero =>
        cases found
        exact here
    | succ i =>
        have held := later i byte found
        rwa [Nat.add_assoc, Nat.add_comm 1] at held

theorem holds_write (memory : ByteMemory) (address : Nat) (bytes : List UInt8) :
    (memory.write address bytes).Holds address bytes := by
  intro i byte found
  simp [write, found]

theorem write_apart (memory : ByteMemory) (address : Nat) (bytes : List UInt8) (region : Region)
    (apart : region.Apart ⟨address, bytes.length⟩) :
    (memory.write address bytes).Agree memory region := by
  intro query above below
  simp only [Region.Apart] at apart
  rw [write]
  split
  · next reached =>
      have past : bytes.length ≤ query - address := by omega
      rw [List.getElem?_eq_none past, Option.getD_none]
  · rfl

namespace Agree

theorem refl (memory : ByteMemory) (region : Region) : memory.Agree memory region :=
  fun _ _ _ => rfl

theorem trans {first second third : ByteMemory} {region : Region}
    (early : first.Agree second region) (late : second.Agree third region) :
    first.Agree third region :=
  fun query above below => (early query above below).trans (late query above below)

theorem inside {left right : ByteMemory} {inner outer : Region} (agree : left.Agree right outer)
    (contained : inner.Inside outer) : left.Agree right inner := by
  intro query above below
  simp only [Region.Inside] at contained
  exact agree query (by omega) (by omega)

end Agree

theorem Holds.of_agree {before after : ByteMemory} {address : Nat} {bytes : List UInt8}
    (held : before.Holds address bytes) (agree : after.Agree before ⟨address, bytes.length⟩) :
    after.Holds address bytes := by
  intro i byte found
  have bounded : i < bytes.length := (List.getElem?_eq_some_iff.mp found).1
  rw [agree (address + i) (Nat.le_add_right _ _) (Nat.add_lt_add_left bounded _)]
  exact held i byte found

theorem holds_append {memory : ByteMemory} {address : Nat} {left right : List UInt8} :
    memory.Holds address (left ++ right) ↔
      memory.Holds address left ∧ memory.Holds (address + left.length) right := by
  constructor
  · intro held
    refine ⟨fun i byte found => held i byte ?_, fun i byte found => ?_⟩
    · exact List.getElem?_append_left (List.getElem?_eq_some_iff.mp found).1 ▸ found
    · rw [Nat.add_assoc]
      apply held
      rw [List.getElem?_append_right (Nat.le_add_right _ _), Nat.add_sub_cancel_left]
      exact found
  · rintro ⟨first, second⟩ i byte found
    rcases Nat.lt_or_ge i left.length with inside | past
    · rw [List.getElem?_append_left inside] at found
      exact first i byte found
    · rw [List.getElem?_append_right past] at found
      have held := second (i - left.length) byte found
      rwa [Nat.add_assoc, Nat.add_sub_cancel' past] at held

theorem Holds.slice {memory : ByteMemory} {address : Nat} {bytes : List UInt8}
    (held : memory.Holds address bytes) : memory.slice address bytes.length = bytes := by
  apply List.ext_getElem
  · exact slice_length memory address bytes.length
  · intro i _ bounded
    simp only [ByteMemory.slice, List.getElem_map, List.getElem_range]
    exact held i _ (List.getElem?_eq_getElem bounded)

end ByteMemory

end DynLinker.Lib
