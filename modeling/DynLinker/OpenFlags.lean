import Mathlib.Data.Nat.Basic

/-! `OpenFlags`, a set of bits in a `u32` (`lib.rs`). -/

set_option autoImplicit false

namespace DynLinker

structure OpenFlags where
  bits : BitVec 32
deriving DecidableEq

namespace OpenFlags

def empty : OpenFlags := ⟨0#32⟩
def rtldNow : OpenFlags := ⟨2#32⟩
def rtldNoload : OpenFlags := ⟨4#32⟩
def rtldGlobal : OpenFlags := ⟨256#32⟩
def rtldNodelete : OpenFlags := ⟨4096#32⟩

def union (left right : OpenFlags) : OpenFlags := ⟨left.bits ||| right.bits⟩
def inter (left right : OpenFlags) : OpenFlags := ⟨left.bits &&& right.bits⟩
def contains (flags other : OpenFlags) : Bool := flags.bits &&& other.bits == other.bits

def isGlobal (flags : OpenFlags) : Bool := flags.contains rtldGlobal
def isNodelete (flags : OpenFlags) : Bool := flags.contains rtldNodelete
def isNoload (flags : OpenFlags) : Bool := flags.contains rtldNoload

/-- The flags that a later open of a loaded module may still add. -/
def promotable (flags : OpenFlags) : OpenFlags := flags.inter (rtldGlobal.union rtldNodelete)

theorem contains_iff {flags other : OpenFlags} :
    flags.contains other = true ↔
      ∀ i, other.bits.getLsbD i = true → flags.bits.getLsbD i = true := by
  simp only [contains, beq_iff_eq]
  constructor
  · intro same i set
    rw [← same, BitVec.getLsbD_and, Bool.and_eq_true] at set
    exact set.1
  · intro covers
    apply BitVec.eq_of_getLsbD_eq
    intro i _
    rw [BitVec.getLsbD_and]
    cases set : other.bits.getLsbD i with
    | false => exact Bool.and_false _
    | true => rw [covers i set, Bool.and_true]

theorem contains_trans {first second third : OpenFlags} (upper : first.contains second = true)
    (lower : second.contains third = true) : first.contains third = true :=
  contains_iff.mpr fun i set => contains_iff.mp upper i (contains_iff.mp lower i set)

@[simp] theorem union_contains_right (left right : OpenFlags) :
    (left.union right).contains right = true :=
  contains_iff.mpr fun i set => by simp [union, set]

@[simp] theorem union_contains_left (left right : OpenFlags) :
    (left.union right).contains left = true :=
  contains_iff.mpr fun i set => by simp [union, set]

@[simp] theorem contains_promotable (flags : OpenFlags) :
    flags.contains flags.promotable = true := by
  apply contains_iff.mpr
  intro i set
  simp only [promotable, inter, BitVec.getLsbD_and, Bool.and_eq_true] at set
  exact set.1

/-- Flags that cover the promotable part of others cover it with their own. -/
theorem promotable_contains {flags other : OpenFlags}
    (covers : flags.contains other.promotable = true) :
    flags.promotable.contains other.promotable = true := by
  apply contains_iff.mpr
  intro i set
  have covered := contains_iff.mp covers i set
  simp only [promotable, inter, BitVec.getLsbD_and, Bool.and_eq_true] at set ⊢
  exact ⟨covered, set.2⟩

theorem rtldNodelete_bit (i : Nat) : rtldNodelete.bits.getLsbD i = true ↔ i = 12 := by
  have power : rtldNodelete.bits = BitVec.twoPow 32 12 := rfl
  simp [power, BitVec.getLsbD_twoPow, eq_comm]

theorem rtldGlobal_bit (i : Nat) : rtldGlobal.bits.getLsbD i = true ↔ i = 8 := by
  have power : rtldGlobal.bits = BitVec.twoPow 32 8 := rfl
  simp [power, BitVec.getLsbD_twoPow, eq_comm]

theorem isNodelete_iff {flags : OpenFlags} :
    flags.isNodelete = true ↔ flags.bits.getLsbD 12 = true := by
  rw [isNodelete, contains_iff]
  constructor
  · exact fun covers => covers 12 ((rtldNodelete_bit 12).mpr rfl)
  · intro set i bit
    rw [(rtldNodelete_bit i).mp bit]
    exact set

theorem isNodelete_of_contains {flags other : OpenFlags} (covers : flags.contains other = true)
    (nodelete : other.isNodelete = true) : flags.isNodelete = true :=
  contains_trans covers nodelete

@[simp] theorem isNodelete_union (left right : OpenFlags) :
    (left.union right).isNodelete = (left.isNodelete || right.isNodelete) := by
  rw [Bool.eq_iff_iff, Bool.or_eq_true]
  simp only [isNodelete_iff, union, BitVec.getLsbD_or, Bool.or_eq_true]

@[simp] theorem isNodelete_promotable (flags : OpenFlags) :
    flags.promotable.isNodelete = flags.isNodelete := by
  rw [Bool.eq_iff_iff, isNodelete_iff, isNodelete_iff]
  simp only [promotable, inter, union, BitVec.getLsbD_and, BitVec.getLsbD_or, Bool.and_eq_true,
    Bool.or_eq_true, rtldNodelete_bit, or_true, and_true]

@[simp] theorem isGlobal_promotable (flags : OpenFlags) :
    flags.promotable.isGlobal = flags.isGlobal := by
  rw [Bool.eq_iff_iff, isGlobal, isGlobal, contains_iff, contains_iff]
  simp only [promotable, inter, union, BitVec.getLsbD_and, BitVec.getLsbD_or, Bool.and_eq_true,
    Bool.or_eq_true, rtldGlobal_bit, forall_eq, true_or, and_true]

/-- `LD_BIND_NOW` adds a flag that is not promotable. -/
@[simp] theorem promotable_union_rtldNow (flags : OpenFlags) :
    (flags.union rtldNow).promotable = flags.promotable := by
  have disjoint : rtldNow.bits &&& (rtldGlobal.union rtldNodelete).bits = 0#32 := by decide
  simp only [promotable, inter, union, BitVec.and_or_distrib_right] at disjoint ⊢
  rw [disjoint, BitVec.or_zero]

end OpenFlags

end DynLinker
