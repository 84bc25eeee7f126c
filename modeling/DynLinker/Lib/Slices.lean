import DynLinker.Lib.Bytes
import DynLinker.Lib.MachineWord

/-! Rust code as it checks itself: indices into slices and sums of machine words panic where
they are out of range, and a loop that is cut off has not returned. -/

set_option autoImplicit false

namespace DynLinker.Lib

/-- Why a function has not returned. -/
inductive Halt where
  | panicked (panic : Panic)
  | unfinished
deriving DecidableEq

/-- `&bytes[start..]`. -/
def sliceFrom (bytes : Bytes) (start : Nat) : Except Halt Bytes :=
  if start ≤ bytes.length then .ok (bytes.drop start)
  else .error (.panicked ⟨"range start index out of range for slice"⟩)

/-- `&bytes[start..stop]`. -/
def sliceBetween (bytes : Bytes) (start stop : Nat) : Except Halt Bytes :=
  if stop < start then .error (.panicked ⟨"slice index starts after its end"⟩)
  else if bytes.length < stop then
    .error (.panicked ⟨"range end index out of range for slice"⟩)
  else .ok ((bytes.drop start).take (stop - start))

/-- `u32::from_le_bytes(slice.try_into().unwrap())`. -/
def u32FromSlice (slice : Bytes) : Except Halt Nat :=
  if slice.length = 4 then .ok (readU32 slice 0)
  else .error (.panicked ⟨"called `Result::unwrap()` on an `Err` value: TryFromSliceError"⟩)

def usizeAdd (checks : Bool) (left right : Nat) : Except Halt Nat :=
  (plainAdd checks 64 left right).mapError .panicked

def usizeSub (checks : Bool) (left right : Nat) : Except Halt Nat :=
  (plainSub checks 64 left right).mapError .panicked

def usizeMul (checks : Bool) (left right : Nat) : Except Halt Nat :=
  (plainMul checks 64 left right).mapError .panicked

theorem sliceFrom_of_le {bytes : Bytes} {start : Nat} (inside : start ≤ bytes.length) :
    sliceFrom bytes start = .ok (bytes.drop start) :=
  if_pos inside

theorem sliceBetween_of_le {bytes : Bytes} {start stop : Nat} (ordered : start ≤ stop)
    (inside : stop ≤ bytes.length) :
    sliceBetween bytes start stop = .ok ((bytes.drop start).take (stop - start)) := by
  rw [sliceBetween, if_neg (Nat.not_lt.mpr ordered), if_neg (Nat.not_lt.mpr inside)]

/-- Four bytes inside a slice are a word. -/
theorem u32_of_sliceBetween {bytes : Bytes} {start stop : Nat} (four : start + 4 = stop)
    (inside : stop ≤ bytes.length) :
    (sliceBetween bytes start stop >>= u32FromSlice) = .ok (readU32 bytes start) := by
  subst four
  have length : ((bytes.drop start).take 4).length = 4 := by
    rw [List.length_take, List.length_drop]
    omega
  have same : readU32 ((bytes.drop start).take 4) 0 = readU32 bytes start := by
    rw [readU32, readU32, List.drop_zero, List.take_take, Nat.min_self]
  rw [sliceBetween_of_le (Nat.le_add_right _ _) inside, Nat.add_sub_cancel_left, ok_bind,
    u32FromSlice, if_pos length, same]

section Words

variable {left right : Nat} (checks : Bool)

theorem usizeAdd_of_lt (bounded : left + right < 2 ^ 64) :
    usizeAdd checks left right = .ok (left + right) := by
  rw [usizeAdd, plainAdd_of_lt checks bounded]
  rfl

theorem usizeMul_of_lt (bounded : left * right < 2 ^ 64) :
    usizeMul checks left right = .ok (left * right) := by
  rw [usizeMul, plainMul_of_lt checks bounded]
  rfl

theorem usizeSub_of_le (ordered : right ≤ left) (word : left < 2 ^ 64) :
    usizeSub checks left right = .ok (left - right) := by
  rw [usizeSub, plainSub_of_le checks ordered word]
  rfl

end Words

end DynLinker.Lib
