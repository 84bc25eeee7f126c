import DynLinker.Lib.ByteMemory
import DynLinker.Lib.Bytes
import DynLinker.Lib.CopyOrder
import DynLinker.Lib.MachineWord
import Mathlib.Data.List.Range

/-! The memory routines that the loader brings along (`memory.rs`), since it starts before
any library is there. The compiler turns copies of the other modules into calls of them. -/

set_option autoImplicit false

namespace DynLinker.Startup

open Lib

/-- `ptr.add(index)`. -/
def pointerAdd (pointer index : Nat) : Nat := (pointer + index) % 2 ^ 64

/-- `dst.add(index).write(src.add(index).read())`. -/
def copyByte (memory : ByteMemory) (dst src index : Nat) : ByteMemory :=
  Function.update memory (pointerAdd dst index) (memory (pointerAdd src index))

/-- The loop of `memcpy`; the count is what is left of it. -/
def memcpyLoop (dst src : Nat) : Nat → Nat → ByteMemory → ByteMemory
  | 0, _, memory => memory
  | left + 1, index, memory => memcpyLoop dst src left (index + 1) (copyByte memory dst src index)

def memcpy (memory : ByteMemory) (dst src len : Nat) : Nat × ByteMemory :=
  (dst, memcpyLoop dst src len 0 memory)

/-- The loop of `memmove`, from the end to the start. -/
def memmoveLoop (dst src : Nat) : Nat → ByteMemory → ByteMemory
  | 0, memory => memory
  | index + 1, memory => memmoveLoop dst src index (copyByte memory dst src index)

def memmove (memory : ByteMemory) (dst src len : Nat) : Nat × ByteMemory :=
  if dst ≤ src then memcpy memory dst src len else (dst, memmoveLoop dst src len memory)

/-- The loop of `memset`. -/
def memsetLoop (dst : Nat) (value : UInt8) : Nat → Nat → ByteMemory → ByteMemory
  | 0, _, memory => memory
  | left + 1, index, memory =>
      memsetLoop dst value left (index + 1) (Function.update memory (pointerAdd dst index) value)

/-- `memset`; `value as u8` keeps the low eight bits. -/
def memset (memory : ByteMemory) (dst : Nat) (value : Int) (len : Nat) : Nat × ByteMemory :=
  (dst, memsetLoop dst (UInt8.ofNat (value % 256).toNat) len 0 memory)

/-- The loop of `memcmp`. -/
def memcmpLoop (memory : ByteMemory) (left right : Nat) : Nat → Nat → Int
  | 0, _ => 0
  | rest + 1, index =>
      let lhs := memory (pointerAdd left index)
      let rhs := memory (pointerAdd right index)
      if lhs ≠ rhs then (lhs.toNat : Int) - rhs.toNat
      else memcmpLoop memory left right rest (index + 1)

def memcmp (memory : ByteMemory) (left right len : Nat) : Int :=
  memcmpLoop memory left right len 0

def bcmp (memory : ByteMemory) (left right len : Nat) : Int := memcmp memory left right len

/-- The loop of `strlen`; `none` where the rounds do not suffice. -/
def strlenLoop (memory : ByteMemory) : Nat → Nat → Option Nat
  | 0, _ => none
  | rounds + 1, ptr =>
      if memory ptr ≠ 0 then strlenLoop memory rounds (pointerAdd ptr 1) else some ptr

def strlen (memory : ByteMemory) (rounds ptr : Nat) : Option Nat :=
  (strlenLoop memory rounds ptr).map fun stop => wrappingSub 64 stop ptr

/-! ## Copies -/

section Copies

variable {dst src len : Nat}

theorem pointerAdd_of_lt {pointer index : Nat} (inside : pointer + index < 2 ^ 64) :
    pointerAdd pointer index = pointer + index :=
  Nat.mod_eq_of_lt inside

theorem memcpyLoop_eq (left index : Nat) (memory : ByteMemory) :
    memcpyLoop dst src left index memory =
      copyEach (pointerAdd dst) (pointerAdd src) (List.range' index left) memory := by
  induction left generalizing index memory with
  | zero => rfl
  | succ left ih => exact ih (index + 1) (copyByte memory dst src index)

theorem memmoveLoop_eq (index : Nat) (memory : ByteMemory) :
    memmoveLoop dst src index memory =
      copyEach (pointerAdd dst) (pointerAdd src) (List.range index).reverse memory := by
  induction index generalizing memory with
  | zero => rfl
  | succ index ih =>
      rw [List.range_succ, List.reverse_concat]
      exact ih (copyByte memory dst src index)

/-- Upwards no byte is overwritten before it is read if the target starts first or the ranges
are apart. -/
theorem copySafe_up (dstFits : dst + len ≤ 2 ^ 64) (srcFits : src + len ≤ 2 ^ 64)
    (direction : dst ≤ src ∨ src + len ≤ dst) :
    CopySafe (pointerAdd dst) (pointerAdd src) (List.range len) := by
  refine List.pairwise_lt_range.imp_of_mem ?_
  intro earlier later earlierListed laterListed before
  have inside := List.mem_range.mp laterListed
  rw [pointerAdd_of_lt (by omega), pointerAdd_of_lt (by omega), pointerAdd_of_lt (by omega)]
  omega

/-- Downwards it is enough that the target starts last. -/
theorem copySafe_down (dstFits : dst + len ≤ 2 ^ 64) (direction : src < dst) :
    CopySafe (pointerAdd dst) (pointerAdd src) (List.range len).reverse := by
  refine List.pairwise_reverse.mpr (List.pairwise_lt_range.imp_of_mem ?_)
  intro later earlier laterListed earlierListed before
  have inside := List.mem_range.mp earlierListed
  rw [pointerAdd_of_lt (by omega), pointerAdd_of_lt (by omega), pointerAdd_of_lt (by omega)]
  omega

/-- The target holds what the source held, and nothing else has changed. -/
structure Copied (before after : ByteMemory) (dst src len : Nat) : Prop where
  target : ∀ i < len, after (dst + i) = before (src + i)
  others : ∀ address, ¬(dst ≤ address ∧ address < dst + len) → after address = before address

theorem copied_of_safe {order : List Nat} (dstFits : dst + len ≤ 2 ^ 64)
    (srcFits : src + len ≤ 2 ^ 64) (whole : ∀ i, i ∈ order ↔ i < len)
    (safe : CopySafe (pointerAdd dst) (pointerAdd src) order) (memory : ByteMemory) :
    Copied memory (copyEach (pointerAdd dst) (pointerAdd src) order memory) dst src len where
  target i inside := by
    have copied := copyEach_target safe ((whole i).mpr inside) memory
    rwa [pointerAdd_of_lt (by omega), pointerAdd_of_lt (by omega)] at copied
  others address outside := by
    apply copyEach_other
    intro i listed same
    have inside := (whole i).mp listed
    rw [pointerAdd_of_lt (by omega)] at same
    omega

/-- `memcpy` copies ranges that are apart, and others that it need not copy downwards. -/
theorem memcpy_copies (memory : ByteMemory) (dst src len : Nat) (dstFits : dst + len ≤ 2 ^ 64)
    (srcFits : src + len ≤ 2 ^ 64) (direction : dst ≤ src ∨ src + len ≤ dst) :
    (memcpy memory dst src len).1 = dst ∧
      Copied memory (memcpy memory dst src len).2 dst src len := by
  refine ⟨rfl, ?_⟩
  rw [memcpy, memcpyLoop_eq, ← List.range_eq_range']
  exact copied_of_safe dstFits srcFits (fun _ => List.mem_range)
    (copySafe_up dstFits srcFits direction) memory

/-- `memmove` copies whatever the ranges have in common. -/
theorem memmove_copies (memory : ByteMemory) (dst src len : Nat) (dstFits : dst + len ≤ 2 ^ 64)
    (srcFits : src + len ≤ 2 ^ 64) :
    (memmove memory dst src len).1 = dst ∧
      (∀ i < len, (memmove memory dst src len).2 (dst + i) = memory (src + i)) ∧
      ∀ address : Nat, ¬(dst ≤ address ∧ address < dst + len) →
        (memmove memory dst src len).2 address = memory address := by
  by_cases upwards : dst ≤ src
  · rw [memmove, if_pos upwards]
    obtain ⟨returned, copied⟩ := memcpy_copies memory dst src len dstFits srcFits (.inl upwards)
    exact ⟨returned, copied.target, copied.others⟩
  · rw [memmove, if_neg upwards, memmoveLoop_eq]
    have copied := copied_of_safe dstFits srcFits
      (fun _ => List.mem_reverse.trans List.mem_range)
      (copySafe_down dstFits (Nat.lt_of_not_le upwards)) memory
    exact ⟨rfl, copied.target, copied.others⟩

/-- Four bytes, moved up by two over themselves. -/
theorem memmove_copies_overlapping :
    ((memmove (fun address => UInt8.ofNat address) 0x12 0x10 4).2.slice 0x10 6) =
      [0x10, 0x11, 0x10, 0x11, 0x12, 0x13] := by
  obtain ⟨_, copied, others⟩ :=
    memmove_copies (fun address => UInt8.ofNat address) 0x12 0x10 4 (by decide) (by decide)
  have first := others 0x10 (by decide)
  have second := others 0x11 (by decide)
  simp [ByteMemory.slice, List.range_succ, first, second, copied 0, copied 1, copied 2, copied 3]

end Copies

/-! ## The other routines -/

section Others

variable {memory : ByteMemory}

theorem memsetLoop_apply {dst left index : Nat} (fits : dst + (index + left) ≤ 2 ^ 64)
    (value : UInt8) (address : Nat) :
    memsetLoop dst value left index memory address =
      if dst + index ≤ address ∧ address < dst + (index + left) then value else memory address := by
  induction left generalizing index memory with
  | zero => exact (if_neg (by omega)).symm
  | succ left ih =>
      rw [memsetLoop, ih (by omega), pointerAdd_of_lt (by omega), Function.update_apply]
      by_cases first : address = dst + index
      · rw [if_neg (by omega), if_pos first, if_pos (by omega)]
      · rw [if_neg first]
        by_cases later : dst + (index + 1) ≤ address ∧ address < dst + (index + 1 + left)
        · rw [if_pos later, if_pos (by omega)]
        · rw [if_neg later, if_neg (by omega)]

/-- `memset` fills its range and nothing else. -/
theorem memset_fills (memory : ByteMemory) (dst len : Nat) (value : Int)
    (fits : dst + len ≤ 2 ^ 64) (address : Nat) :
    (memset memory dst value len).2 address =
      if dst ≤ address ∧ address < dst + len then UInt8.ofNat (value % 256).toNat
      else memory address := by
  have filled := @memsetLoop_apply memory dst len 0 (by omega) (UInt8.ofNat (value % 256).toNat)
    address
  rwa [Nat.add_zero, Nat.zero_add] at filled

theorem memcmpLoop_compare {left right rest index : Nat} (leftFits : left + (index + rest) ≤ 2 ^ 64)
    (rightFits : right + (index + rest) ≤ 2 ^ 64) :
    compare (memcmpLoop memory left right rest index) 0 =
      byteCompare (memory.slice (left + index) rest) (memory.slice (right + index) rest) := by
  induction rest generalizing index with
  | zero => rfl
  | succ rest ih =>
      rw [ByteMemory.slice_succ, ByteMemory.slice_succ, memcmpLoop, pointerAdd_of_lt (by omega),
        pointerAdd_of_lt (by omega), byteCompare]
      by_cases same : memory (left + index) = memory (right + index)
      · rw [if_neg (not_not.mpr same), ih (by omega) (by omega), same, Nat.compare_eq_eq.mpr rfl]
        rfl
      · rw [if_pos same]
        rcases Nat.lt_or_gt_of_ne (mt UInt8.toNat_inj.mp same) with below | above
        · rw [Nat.compare_eq_lt.mpr below, Int.compare_eq_lt]
          omega
        · rw [Nat.compare_eq_gt.mpr above, Int.compare_eq_gt]
          omega

/-- The sign of `memcmp` is the byte order of the two ranges. -/
theorem memcmp_compare (memory : ByteMemory) (left right len : Nat)
    (leftFits : left + len ≤ 2 ^ 64) (rightFits : right + len ≤ 2 ^ 64) :
    compare (memcmp memory left right len) 0 =
      byteCompare (memory.slice left len) (memory.slice right len) :=
  memcmpLoop_compare (by omega) (by omega)

theorem strlenLoop_eq {text : Bytes} {rounds ptr : Nat} (held : memory.Holds ptr (text ++ [0]))
    (nonzero : 0 ∉ text) (fits : ptr + text.length < 2 ^ 64) (enough : text.length < rounds) :
    strlenLoop memory rounds ptr = some (ptr + text.length) := by
  induction text generalizing rounds ptr with
  | nil =>
      obtain ⟨rounds, rfl⟩ := Nat.exists_eq_succ_of_ne_zero (Nat.ne_of_gt enough)
      have stop : memory ptr = 0 := held 0 0 rfl
      rw [strlenLoop, if_neg (not_not.mpr stop)]
      rfl
  | cons first rest ih =>
      obtain ⟨rounds, rfl⟩ := Nat.exists_eq_succ_of_ne_zero (Nat.ne_zero_of_lt enough)
      obtain ⟨read, later⟩ := ByteMemory.holds_cons.mp held
      have other : memory ptr ≠ 0 := fun zero =>
        nonzero (List.mem_cons.mpr (.inl (zero.symm.trans read)))
      rw [List.length_cons] at fits enough
      rw [strlenLoop, if_pos other, pointerAdd_of_lt (by omega), ih later
        (fun member => nonzero (List.mem_cons_of_mem _ member)) (by omega) (by omega),
        List.length_cons]
      congr 1
      omega

/-- `strlen` returns the length of a terminated string. -/
theorem strlen_eq {text : Bytes} {rounds ptr : Nat} (held : memory.Holds ptr (text ++ [0]))
    (nonzero : 0 ∉ text) (fits : ptr + text.length < 2 ^ 64) (enough : text.length < rounds) :
    strlen memory rounds ptr = some text.length := by
  rw [strlen, strlenLoop_eq held nonzero fits enough, Option.map_some]
  congr 1
  apply wrappingSub_of_add (by omega)
  rw [Nat.add_comm, Nat.mod_eq_of_lt fits]

end Others

end DynLinker.Startup
