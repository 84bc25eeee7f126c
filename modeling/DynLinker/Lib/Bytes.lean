import Mathlib.Data.List.Basic
import Mathlib.Data.Nat.Bitwise

/-! Byte strings as the loader reads them: C strings, UTF-8 validity, the byte
order of strings and little-endian words. -/

set_option autoImplicit false

namespace DynLinker.Lib

abbrev Bytes := List UInt8

/-- The bytes of an ASCII literal. -/
def ascii (text : String) : Bytes := text.toList.map fun char => UInt8.ofNat char.toNat

private def within (low high : Nat) (byte : UInt8) : Bool :=
  low ≤ byte.toNat && byte.toNat ≤ high

private def continuation : UInt8 → Bool := within 0x80 0xbf

/-- Well-formed UTF-8: no overlong forms, no surrogates, nothing above U+10FFFF. -/
def utf8Valid : Bytes → Bool
  | [] => true
  | first :: rest =>
      if within 0x00 0x7f first then utf8Valid rest
      else match rest with
        | [] => false
        | second :: rest =>
            if within 0xc2 0xdf first then continuation second && utf8Valid rest
            else match rest with
              | [] => false
              | third :: rest =>
                  if within 0xe0 0xef first then
                    (if first = 0xe0 then within 0xa0 0xbf second
                     else if first = 0xed then within 0x80 0x9f second
                     else continuation second) &&
                      continuation third && utf8Valid rest
                  else match rest with
                    | [] => false
                    | fourth :: rest =>
                        within 0xf0 0xf4 first &&
                          (if first = 0xf0 then within 0x90 0xbf second
                           else if first = 0xf4 then within 0x80 0x8f second
                           else continuation second) &&
                          continuation third && continuation fourth && utf8Valid rest

/-- `core::str::from_utf8(..).ok()`; a valid string is kept as its bytes. -/
def fromUtf8 (bytes : Bytes) : Option Bytes :=
  if utf8Valid bytes then some bytes else none

/-- The bytes before the first NUL, or all of them. -/
def untilNul (bytes : Bytes) : Bytes := bytes.takeWhile (· ≠ 0)

/-- `str::cmp`: strings compare byte by byte, a proper prefix first. -/
def byteCompare : Bytes → Bytes → Ordering
  | [], [] => .eq
  | [], _ :: _ => .lt
  | _ :: _, [] => .gt
  | left :: lefts, right :: rights =>
      match compare left.toNat right.toNat with
      | .lt => .lt
      | .gt => .gt
      | .eq => byteCompare lefts rights

theorem byteCompare_eq_iff {left right : Bytes} : byteCompare left right = .eq ↔ left = right := by
  induction left generalizing right with
  | nil => cases right <;> simp [byteCompare]
  | cons head tail ih =>
      cases right with
      | nil => simp [byteCompare]
      | cons other rest =>
          rw [List.cons.injEq, ← UInt8.toNat_inj, ← Nat.compare_eq_eq, ← ih]
          simp only [byteCompare]
          cases compare head.toNat other.toNat <;> simp

theorem byteCompare_swap (left right : Bytes) :
    byteCompare left right = (byteCompare right left).swap := by
  induction left generalizing right with
  | nil => cases right <;> rfl
  | cons head tail ih =>
      cases right with
      | nil => rfl
      | cons other rest =>
          simp only [byteCompare]
          rw [Nat.compare_swap other.toNat head.toNat |>.symm]
          cases compare other.toNat head.toNat with
          | lt => rfl
          | eq => exact ih rest
          | gt => rfl

theorem byteCompare_isLE_trans {left middle right : Bytes}
    (early : (byteCompare left middle).isLE) (late : (byteCompare middle right).isLE) :
    (byteCompare left right).isLE := by
  induction left generalizing middle right with
  | nil => cases right <;> rfl
  | cons first rest ih =>
      cases middle with
      | nil => cases early
      | cons second more =>
          cases right with
          | nil => cases late
          | cons third last =>
              simp only [byteCompare] at early late ⊢
              rcases Nat.lt_trichotomy first.toNat second.toNat with below | same | above
              · rcases Nat.lt_trichotomy second.toNat third.toNat with under | alike | above
                · rw [Nat.compare_eq_lt.mpr (by omega)]
                  rfl
                · rw [Nat.compare_eq_lt.mpr (by omega)]
                  rfl
                · rw [Nat.compare_eq_gt.mpr above] at late
                  cases late
              · rw [Nat.compare_eq_eq.mpr same] at early
                rw [same]
                split
                · rfl
                · next above =>
                    rw [above] at late
                    cases late
                · next alike =>
                    rw [alike] at late
                    exact ih early late
              · rw [Nat.compare_eq_gt.mpr above] at early
                cases early

instance : Std.TransCmp byteCompare where
  eq_swap := byteCompare_swap _ _
  isLE_trans := byteCompare_isLE_trans

/-- `u32::from_le_bytes` of the bytes at an offset. -/
def readU32 (bytes : Bytes) (offset : Nat) : Nat :=
  ((bytes.drop offset).take 4).foldr (fun byte value => byte.toNat + 256 * value) 0

/-- A little-endian word has no more bits than its bytes. -/
theorem foldr_bytes_lt (word : Bytes) :
    word.foldr (fun byte value => byte.toNat + 256 * value) 0 < 256 ^ word.length := by
  induction word with
  | nil => exact Nat.one_pos
  | cons byte rest ih =>
      have bounded := byte.toNat_lt
      rw [List.foldr_cons, List.length_cons, Nat.pow_succ]
      omega

theorem readU32_lt (bytes : Bytes) (offset : Nat) : readU32 bytes offset < 2 ^ 32 := by
  have bounded := foldr_bytes_lt ((bytes.drop offset).take 4)
  have short : 256 ^ ((bytes.drop offset).take 4).length ≤ 256 ^ 4 :=
    Nat.pow_le_pow_right (by decide) (List.length_take_le _ _)
  exact Nat.lt_of_lt_of_le bounded short

/-- The little-endian bytes of a word of the given width. -/
def littleEndian : Nat → Nat → Bytes
  | 0, _ => []
  | width + 1, value => UInt8.ofNat (value % 256) :: littleEndian width (value / 256)

theorem littleEndian_length (width value : Nat) : (littleEndian width value).length = width := by
  induction width generalizing value with
  | zero => rfl
  | succ width ih => simp [littleEndian, ih]

theorem littleEndian_value (width value : Nat) :
    (littleEndian width value).foldr (fun byte rest => byte.toNat + 256 * rest) 0 =
      value % 256 ^ width := by
  induction width generalizing value with
  | zero => simp [littleEndian, Nat.mod_one]
  | succ width ih =>
      have byte : (UInt8.ofNat (value % 256)).toNat = value % 256 := by
        simp
      rw [littleEndian, List.foldr_cons, ih, byte, Nat.pow_succ', Nat.mod_mul]

end DynLinker.Lib
