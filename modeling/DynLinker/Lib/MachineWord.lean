import DynLinker.Lib.Outcome
import Mathlib.Data.Nat.Bitwise
import Mathlib.Data.Nat.ModEq
import Mathlib.Order.Bounds.Basic

/-! Arithmetic on machine words of a given width, with natural numbers as values:
additions that report overflow or panic on it, masks that clear low bits, rounding up, and
powers of two. -/

set_option autoImplicit false

namespace DynLinker.Lib

def checkedAdd (width left right : Nat) : Option Nat :=
  if left + right < 2 ^ width then some (left + right) else none

theorem checkedAdd_eq_some_iff {width left right sum : Nat} :
    checkedAdd width left right = some sum ↔ left + right < 2 ^ width ∧ sum = left + right := by
  rw [checkedAdd]
  split
  · next bounded => simp [bounded, eq_comm]
  · next unbounded => simp [unbounded]

/-- `left + right`, which panics on overflow or wraps, as the build profile has it. -/
def plainAdd (checks : Bool) (width left right : Nat) : Except Panic Nat :=
  if checks = true ∧ 2 ^ width ≤ left + right then .error ⟨"attempt to add with overflow"⟩
  else .ok ((left + right) % 2 ^ width)

theorem plainAdd_eq_ok {checks : Bool} {width left right sum : Nat} :
    plainAdd checks width left right = .ok sum ↔
      (checks = true → left + right < 2 ^ width) ∧ (left + right) % 2 ^ width = sum := by
  rw [plainAdd]
  split
  · next overflow => simp [overflow.1, Nat.not_lt.mpr overflow.2]
  · next fits =>
      have bounded : checks = true → left + right < 2 ^ width :=
        fun checked => Nat.lt_of_not_le fun overflow => fits ⟨checked, overflow⟩
      exact ⟨fun same => ⟨bounded, Except.ok.inj same⟩, fun same => congrArg Except.ok same.2⟩

/-- `left * right`, which panics on overflow or wraps, as the build profile has it. -/
def plainMul (checks : Bool) (width left right : Nat) : Except Panic Nat :=
  if checks = true ∧ 2 ^ width ≤ left * right then .error ⟨"attempt to multiply with overflow"⟩
  else .ok (left * right % 2 ^ width)

theorem plainAdd_of_lt {width left right : Nat} (checks : Bool)
    (bounded : left + right < 2 ^ width) : plainAdd checks width left right = .ok (left + right) := by
  rw [plainAdd, if_neg fun overflow => absurd bounded (Nat.not_lt.mpr overflow.2),
    Nat.mod_eq_of_lt bounded]

theorem plainMul_of_lt {width left right : Nat} (checks : Bool)
    (bounded : left * right < 2 ^ width) : plainMul checks width left right = .ok (left * right) := by
  rw [plainMul, if_neg fun overflow => absurd bounded (Nat.not_lt.mpr overflow.2),
    Nat.mod_eq_of_lt bounded]

/-- `left - right`, which panics on overflow or wraps, as the build profile has it. -/
def plainSub (checks : Bool) (width left right : Nat) : Except Panic Nat :=
  if checks = true ∧ left < right then .error ⟨"attempt to subtract with overflow"⟩
  else .ok ((left + 2 ^ width - right) % 2 ^ width)

theorem plainSub_of_le {width left right : Nat} (checks : Bool) (ordered : right ≤ left)
    (word : left < 2 ^ width) : plainSub checks width left right = .ok (left - right) := by
  rw [plainSub, if_neg fun overflow => absurd overflow.2 (Nat.not_lt.mpr ordered),
    Nat.sub_add_comm ordered, Nat.add_mod_right, Nat.mod_eq_of_lt (by omega)]

def checkedMul (width left right : Nat) : Option Nat :=
  if left * right < 2 ^ width then some (left * right) else none

def wrappingSub (width left right : Nat) : Nat :=
  (left + (2 ^ width - right % 2 ^ width)) % 2 ^ width

/-- What was added, wrapping, comes back. -/
theorem wrappingSub_of_add {width left right sum : Nat} (word : left < 2 ^ width)
    (added : (left + right) % 2 ^ width = sum) : wrappingSub width sum right = left := by
  have below : right % 2 ^ width < 2 ^ width := Nat.mod_lt _ (Nat.two_pow_pos width)
  have whole : left + right % 2 ^ width + (2 ^ width - right % 2 ^ width) = left + 2 ^ width := by
    omega
  rw [wrappingSub, ← added, ← Nat.add_mod_mod left right, Nat.mod_add_mod, whole, Nat.add_mod_right,
    Nat.mod_eq_of_lt word]

/-- What was taken away, wrapping, comes back. -/
theorem add_wrappingSub {width right sum : Nat} (word : sum < 2 ^ width) :
    (right + wrappingSub width sum right) % 2 ^ width = sum := by
  have below : right % 2 ^ width < 2 ^ width := Nat.mod_lt _ (Nat.two_pow_pos width)
  have whole : right % 2 ^ width + (sum + (2 ^ width - right % 2 ^ width)) = sum + 2 ^ width := by
    omega
  rw [wrappingSub, Nat.add_mod_mod, ← Nat.mod_add_mod, whole, Nat.add_mod_right,
    Nat.mod_eq_of_lt word]

/-- `value & !(align - 1)`. -/
def clearLow (width value align : Nat) : Nat := value &&& (2 ^ width - align)

theorem testBit_highMask {width low : Nat} (bounded : low ≤ width) (i : Nat) :
    (2 ^ width - 2 ^ low).testBit i = decide (low ≤ i ∧ i < width) := by
  have shifted : 2 ^ width - 2 ^ low = (2 ^ (width - low) - 1) <<< low := by
    rw [Nat.shiftLeft_eq, Nat.sub_mul, Nat.one_mul, ← Nat.pow_add, Nat.sub_add_cancel bounded]
  rw [shifted, Nat.testBit_shiftLeft, Nat.testBit_two_pow_sub_one]
  by_cases above : low ≤ i
  · have same : i - low < width - low ↔ i < width := by omega
    simp [above, same]
  · simp [above]

theorem clearLow_two_pow {width low value : Nat} (bounded : low ≤ width)
    (word : value < 2 ^ width) : clearLow width value (2 ^ low) = value / 2 ^ low * 2 ^ low := by
  apply Nat.eq_of_testBit_eq
  intro i
  rw [clearLow, Nat.testBit_and, testBit_highMask bounded, ← Nat.shiftRight_eq_div_pow,
    ← Nat.shiftLeft_eq, Nat.testBit_shiftLeft]
  by_cases above : low ≤ i
  · by_cases inside : i < width
    · simp [above, inside, Nat.testBit_shiftRight]
    · have high : value.testBit i = false :=
        Nat.testBit_lt_two_pow (lt_of_lt_of_le word (Nat.pow_le_pow_right Nat.two_pos (by omega)))
      simp [above, inside, Nat.testBit_shiftRight, high]
  · simp [above]

/-- The value, raised to a multiple. -/
def roundUp (value align : Nat) : Nat := (value + (align - 1)) / align * align

section RoundUp

variable {value align : Nat}

theorem le_roundUp (positive : 0 < align) : value ≤ roundUp value align := by
  have reached := Nat.lt_div_mul_add (a := value + (align - 1)) positive
  rw [roundUp]
  omega

theorem dvd_roundUp : align ∣ roundUp value align :=
  Nat.dvd_mul_left _ _

theorem roundUp_le {multiple : Nat} (positive : 0 < align) (above : value ≤ multiple)
    (divides : align ∣ multiple) : roundUp value align ≤ multiple := by
  obtain ⟨count, rfl⟩ := divides
  rw [roundUp, Nat.mul_comm]
  apply Nat.mul_le_mul_left
  apply Nat.le_of_lt_succ
  rw [Nat.div_lt_iff_lt_mul positive, Nat.succ_mul, Nat.mul_comm count]
  omega

/-- The least number from `value` on that leaves the remainder of `offset`. -/
theorem isLeast_roundUp_add {offset : Nat} (small : offset < align) :
    IsLeast {candidate | value ≤ candidate ∧ candidate ≡ offset [MOD align]}
      (roundUp (value - offset) align + offset) := by
  have positive : 0 < align := Nat.zero_lt_of_lt small
  constructor
  · have reached := @le_roundUp (value - offset) align positive
    refine ⟨by omega, ?_⟩
    simpa using ((Nat.modEq_zero_iff_dvd.mpr dvd_roundUp).add_right offset)
  · intro candidate possible
    obtain ⟨above, congruent⟩ := possible
    have below : offset ≤ candidate := by
      rw [← Nat.mod_eq_of_lt small, ← congruent]
      exact Nat.mod_le _ _
    have divides : align ∣ candidate - offset := (Nat.modEq_iff_dvd' below).mp congruent.symm
    have bounded := roundUp_le positive (Nat.sub_le_sub_right above offset) divides
    omega

/-- Rounding up to a power of two overflows where adding the mask does. -/
theorem roundUp_lt_two_pow_iff {width low : Nat} (bounded : low ≤ width) :
    roundUp value (2 ^ low) < 2 ^ width ↔ value + (2 ^ low - 1) < 2 ^ width := by
  have divides : 2 ^ low ∣ 2 ^ width := Nat.pow_dvd_pow 2 bounded
  constructor
  · intro fits
    by_contra overflow
    have reached := Nat.div_le_div_right (c := 2 ^ low) (Nat.le_of_not_lt overflow)
    have whole := Nat.mul_le_mul_right (2 ^ low) reached
    rw [Nat.div_mul_cancel divides] at whole
    exact absurd fits (Nat.not_lt.mpr whole)
  · exact Nat.lt_of_le_of_lt (Nat.div_mul_le_self _ _)

end RoundUp

/-- The first of `start`, `2 * start`, `4 * start`, .. that reaches `value`. -/
def firstDoubling (value : Nat) : Nat → Nat → Option Nat
  | 0, _ => none
  | fuel + 1, start => if value ≤ start then some start else firstDoubling value fuel (2 * start)

def checkedNextPowerOfTwo (width value : Nat) : Option Nat := firstDoubling value width 1

theorem firstDoubling_spec {value fuel exponent found : Nat}
    (accepted : firstDoubling value fuel (2 ^ exponent) = some found) :
    ∃ low, low < exponent + fuel ∧ found = 2 ^ low ∧ value ≤ found := by
  induction fuel generalizing exponent with
  | zero => cases accepted
  | succ fuel ih =>
      rw [firstDoubling] at accepted
      split at accepted
      · next reached =>
          cases accepted
          exact ⟨exponent, by omega, rfl, reached⟩
      · rw [← Nat.pow_succ'] at accepted
        obtain ⟨low, bounded, rest⟩ := ih accepted
        exact ⟨low, by omega, rest⟩

theorem checkedNextPowerOfTwo_spec {width value found : Nat}
    (accepted : checkedNextPowerOfTwo width value = some found) :
    ∃ low, low < width ∧ found = 2 ^ low ∧ value ≤ found := by
  rw [checkedNextPowerOfTwo, ← Nat.pow_zero 2] at accepted
  obtain ⟨low, bounded, rest⟩ := firstDoubling_spec accepted
  exact ⟨low, by omega, rest⟩

theorem firstDoubling_two_pow {low fuel exponent : Nat} (reached : exponent ≤ low)
    (enough : low < exponent + fuel) :
    firstDoubling (2 ^ low) fuel (2 ^ exponent) = some (2 ^ low) := by
  induction fuel generalizing exponent with
  | zero => omega
  | succ fuel ih =>
      rw [firstDoubling]
      rcases Nat.eq_or_lt_of_le reached with rfl | below
      · rw [if_pos (Nat.le_refl _)]
      · rw [if_neg (Nat.not_le.mpr (Nat.pow_lt_pow_right Nat.one_lt_two below)), ← Nat.pow_succ']
        exact ih below (by omega)

/-- A power of two is its own next power of two. -/
theorem checkedNextPowerOfTwo_two_pow {width low : Nat} (bounded : low < width) :
    checkedNextPowerOfTwo width (2 ^ low) = some (2 ^ low) := by
  rw [checkedNextPowerOfTwo, ← Nat.pow_zero 2]
  exact firstDoubling_two_pow (Nat.zero_le low) (by omega)

theorem max_two_pow {width left right : Nat} (leftPower : ∃ low < width, left = 2 ^ low)
    (rightPower : ∃ low < width, right = 2 ^ low) : ∃ low < width, max left right = 2 ^ low := by
  rcases Nat.le_total left right with below | below
  · rw [Nat.max_eq_right below]
    exact rightPower
  · rw [Nat.max_eq_left below]
    exact leftPower

end DynLinker.Lib
