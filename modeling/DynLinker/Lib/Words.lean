import DynLinker.Lib.ByteMemory
import DynLinker.Lib.Bytes

/-! Little-endian words in a flat memory, and changes that stay within given regions. -/

set_option autoImplicit false

namespace DynLinker.Lib

namespace Region

theorem Apart.not_contains {left right : Region} (apart : left.Apart right) {query : Nat}
    (inside : left.Contains query) : ¬ right.Contains query := by
  simp only [Apart, Contains] at *
  omega

end Region

namespace ByteMemory

/-- The word of so many bytes at an address. -/
def word (memory : ByteMemory) (width address : Nat) : Nat :=
  (memory.slice address width).foldr (fun byte value => byte.toNat + 256 * value) 0

def writeWord (memory : ByteMemory) (width address value : Nat) : ByteMemory :=
  memory.write address (littleEndian width value)

/-- Nothing outside these regions differs. -/
def Within (before after : ByteMemory) (touched : List Region) : Prop :=
  ∀ query, (∀ region ∈ touched, ¬ region.Contains query) → after query = before query

theorem word_of_holds {memory : ByteMemory} {width address value : Nat}
    (held : memory.Holds address (littleEndian width value)) :
    memory.word width address = value % 256 ^ width := by
  have bytes := held.slice
  rw [littleEndian_length] at bytes
  rw [word, bytes, littleEndian_value]

theorem word_of_zeros {memory : ByteMemory} {width address : Nat}
    (held : memory.Holds address (List.replicate width 0)) : memory.word width address = 0 := by
  have bytes := held.slice
  rw [List.length_replicate] at bytes
  rw [word, bytes]
  clear held bytes
  induction width with
  | zero => rfl
  | succ width ih => simp [List.replicate_succ, ih]

theorem word_zeroed {memory : ByteMemory} {base size width address : Nat} (above : base ≤ address)
    (below : address + width ≤ base + size) :
    (memory.write base (List.replicate size 0)).word width address = 0 := by
  apply word_of_zeros
  intro i byte found
  rw [List.getElem?_replicate] at found
  obtain ⟨inside, same⟩ := Option.ite_none_right_eq_some.mp found
  cases same
  have place : base + (address - base + i) = address + i := by
    omega
  have held := holds_write memory base (List.replicate size 0) (address - base + i) 0
    (List.getElem?_replicate_of_lt (by omega))
  rwa [place] at held

theorem slice_congr {before after : ByteMemory} {address length : Nat}
    (agree : after.Agree before ⟨address, length⟩) :
    after.slice address length = before.slice address length := by
  apply List.map_congr_left
  intro i inside
  exact agree _ (Nat.le_add_right _ _) (Nat.add_lt_add_left (List.mem_range.mp inside) _)

theorem word_congr {before after : ByteMemory} {width address : Nat}
    (agree : after.Agree before ⟨address, width⟩) :
    after.word width address = before.word width address := by
  rw [word, slice_congr agree, word]

theorem word_writeWord {memory : ByteMemory} {width address value : Nat}
    (fits : value < 256 ^ width) :
    (memory.writeWord width address value).word width address = value := by
  rw [writeWord, word_of_holds (holds_write memory address _), Nat.mod_eq_of_lt fits]

theorem word_writeWord_apart {memory : ByteMemory} {width address value size query : Nat}
    (apart : Region.Apart ⟨query, size⟩ ⟨address, width⟩) :
    (memory.writeWord width address value).word size query = memory.word size query := by
  apply word_congr
  apply write_apart
  rwa [littleEndian_length]

namespace Within

theorem refl (memory : ByteMemory) (touched : List Region) : memory.Within memory touched :=
  fun _ _ => rfl

theorem trans {first second third : ByteMemory} {touched : List Region}
    (early : first.Within second touched) (late : second.Within third touched) :
    first.Within third touched :=
  fun query outside => (late query outside).trans (early query outside)

theorem mono {before after : ByteMemory} {touched more : List Region}
    (within : before.Within after touched) (subset : ∀ region ∈ touched, region ∈ more) :
    before.Within after more :=
  fun query outside => within query fun region listed => outside region (subset region listed)

theorem widen {before after : ByteMemory} {touched more : List Region}
    (within : before.Within after touched)
    (inside : ∀ region ∈ touched, ∃ outer ∈ more, region.Inside outer) :
    before.Within after more := by
  intro query outside
  apply within
  intro region listed contained
  obtain ⟨outer, named, covered⟩ := inside region listed
  exact outside outer named ⟨Nat.le_trans covered.1 contained.1,
    Nat.lt_of_lt_of_le contained.2 covered.2⟩

theorem write {memory : ByteMemory} {address : Nat} {bytes : List UInt8} {touched : List Region}
    {region : Region} (listed : region ∈ touched)
    (inside : Region.Inside ⟨address, bytes.length⟩ region) :
    memory.Within (memory.write address bytes) touched := by
  intro query outside
  have missed := outside region listed
  refine write_apart memory address bytes ⟨query, 1⟩ ?_ query (Nat.le_refl _) (Nat.lt_succ_self _)
  simp only [Region.Apart, Region.Contains, Region.Inside] at *
  omega

theorem writeWord {memory : ByteMemory} {width address value : Nat} {touched : List Region}
    {region : Region} (listed : region ∈ touched)
    (inside : Region.Inside ⟨address, width⟩ region) :
    memory.Within (memory.writeWord width address value) touched := by
  apply write listed
  rwa [littleEndian_length]

theorem agree {before after : ByteMemory} {touched : List Region}
    (within : before.Within after touched) {region : Region}
    (apart : ∀ other ∈ touched, region.Apart other) : after.Agree before region :=
  fun query above below => within query fun other listed =>
    (apart other listed).not_contains ⟨above, below⟩

end Within

end ByteMemory

end DynLinker.Lib
