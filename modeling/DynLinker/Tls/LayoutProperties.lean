import DynLinker.Tls.Layout
import Mathlib.Data.Int.ModEq

/-! Bounds on the layout computations. -/

set_option autoImplicit false

namespace DynLinker.Tls

open Lib

theorem lt_clearLow_add {value low : Nat} (bounded : low ≤ usizeBits)
    (word : value < 2 ^ usizeBits) : value < clearLow usizeBits value (2 ^ low) + 2 ^ low := by
  rw [clearLow_two_pow bounded word]
  exact Nat.lt_div_mul_add (Nat.two_pow_pos low)

theorem alignUp_eq {value low : Nat} (bounded : low ≤ usizeBits) :
    alignUp value (2 ^ low) =
      if roundUp value (2 ^ low) < 2 ^ usizeBits then some (roundUp value (2 ^ low)) else none := by
  rw [alignUp, checkedAdd]
  by_cases word : value + (2 ^ low - 1) < 2 ^ usizeBits
  · rw [if_pos word, if_pos ((roundUp_lt_two_pow_iff bounded).mpr word), Option.map_some,
      clearLow_two_pow bounded word, roundUp]
  · rw [if_neg word, if_neg fun fits => word ((roundUp_lt_two_pow_iff bounded).mp fits),
      Option.map_none]

theorem alignUp_eq_some_iff {value low raised : Nat} (bounded : low ≤ usizeBits) :
    alignUp value (2 ^ low) = some raised ↔
      roundUp value (2 ^ low) < 2 ^ usizeBits ∧ roundUp value (2 ^ low) = raised := by
  rw [alignUp_eq bounded, Option.ite_none_right_eq_some, Option.some.injEq]

theorem le_alignUp {value low raised : Nat} (bounded : low ≤ usizeBits)
    (accepted : alignUp value (2 ^ low) = some raised) : value ≤ raised := by
  obtain ⟨_, rfl⟩ := (alignUp_eq_some_iff bounded).mp accepted
  exact le_roundUp (Nat.two_pow_pos low)

theorem dvd_alignUp {value low raised : Nat} (bounded : low ≤ usizeBits)
    (accepted : alignUp value (2 ^ low) = some raised) : 2 ^ low ∣ raised := by
  obtain ⟨_, rfl⟩ := (alignUp_eq_some_iff bounded).mp accepted
  exact dvd_roundUp

/-- Rounding up finds the least multiple. -/
theorem alignUp_least {value low bound : Nat} (bounded : low ≤ usizeBits)
    (small : bound ≤ isizeMax) (fits : value ≤ bound) (multiple : 2 ^ low ∣ bound) :
    ∃ raised ≤ bound, alignUp value (2 ^ low) = some raised := by
  have least := roundUp_le (Nat.two_pow_pos low) fits multiple
  have limit : isizeMax < 2 ^ usizeBits := by decide
  exact ⟨roundUp value (2 ^ low), least, (alignUp_eq_some_iff bounded).mpr ⟨by omega, rfl⟩⟩

/-! ## The end of a module -/

/-- The distance of the first byte of a segment to the next aligned address below it, counted
downwards from there. -/
def firstbyte (vaddr align : Nat) : Nat :=
  ((2 ^ usizeBits - vaddr) % 2 ^ usizeBits) &&& (align - 1)

/-- The end of a module without the limits of the machine's arithmetic. -/
def leastModuleEnd (used memsz vaddr align : Nat) : Nat :=
  roundUp (used + memsz - firstbyte vaddr align) align + firstbyte vaddr align

theorem firstbyte_lt (vaddr low : Nat) : firstbyte vaddr (2 ^ low) < 2 ^ low := by
  rw [firstbyte, Nat.and_two_pow_sub_one_eq_mod]
  exact Nat.mod_lt _ (Nat.two_pow_pos low)

/-- The distance and the first address cancel out. -/
theorem firstbyte_congruent {vaddr low : Nat} (bounded : low ≤ usizeBits)
    (word : vaddr < 2 ^ usizeBits) : 2 ^ low ∣ firstbyte vaddr (2 ^ low) + vaddr := by
  have wraps : 2 ^ low ∣ 2 ^ usizeBits := Nat.pow_dvd_pow 2 bounded
  rw [firstbyte, Nat.and_two_pow_sub_one_eq_mod, Nat.mod_mod_of_dvd _ wraps,
    Nat.dvd_iff_mod_eq_zero, Nat.mod_add_mod, Nat.sub_add_cancel word.le,
    ← Nat.dvd_iff_mod_eq_zero]
  exact wraps

theorem le_leastModuleEnd (used memsz vaddr low : Nat) :
    used + memsz ≤ leastModuleEnd used memsz vaddr (2 ^ low) := by
  have reached := @le_roundUp (used + memsz - firstbyte vaddr (2 ^ low)) _ (Nat.two_pow_pos low)
  rw [leastModuleEnd]
  omega

theorem leastModuleEnd_isLeast (used memsz : Nat) {vaddr low : Nat} (bounded : low ≤ usizeBits)
    (word : vaddr < 2 ^ usizeBits) :
    IsLeast {finish : Nat | used + memsz ≤ finish ∧
      (finish : Int) ≡ -(vaddr : Int) [ZMOD (2 ^ low : Nat)]}
      (leastModuleEnd used memsz vaddr (2 ^ low)) := by
  have offset : (firstbyte vaddr (2 ^ low) : Int) ≡ -(vaddr : Int) [ZMOD (2 ^ low : Nat)] := by
    rw [Int.modEq_iff_dvd, ← neg_add', Int.dvd_neg, Int.add_comm]
    exact_mod_cast firstbyte_congruent bounded word
  have same (finish : Nat) : (finish : Int) ≡ -(vaddr : Int) [ZMOD (2 ^ low : Nat)] ↔
      finish ≡ firstbyte vaddr (2 ^ low) [MOD 2 ^ low] := by
    rw [← Int.natCast_modEq_iff]
    exact ⟨fun congruent => congruent.trans offset.symm, fun congruent => congruent.trans offset⟩
  simp only [same]
  exact isLeast_roundUp_add (firstbyte_lt vaddr low)

/-- No step of the computation overflows unless its result does, and the correction at the
end is not needed. -/
theorem staticModuleEnd_eq (used memsz vaddr : Nat) {low : Nat} (bounded : low ≤ usizeBits) :
    staticModuleEnd used memsz vaddr (2 ^ low) =
      if leastModuleEnd used memsz vaddr (2 ^ low) < 2 ^ usizeBits then
        some (leastModuleEnd used memsz vaddr (2 ^ low))
      else none := by
  have reached := le_leastModuleEnd used memsz vaddr low
  change ((checkedAdd usizeBits used memsz).bind fun minEnd =>
    (alignUp (minEnd - firstbyte vaddr (2 ^ low)) (2 ^ low)).bind fun aligned =>
      (checkedAdd usizeBits aligned (firstbyte vaddr (2 ^ low))).bind fun finish =>
        if finish < minEnd then checkedAdd usizeBits finish (2 ^ low) else some finish) = _
  by_cases added : used + memsz < 2 ^ usizeBits
  · rw [checkedAdd, if_pos added, Option.bind_some, alignUp_eq bounded]
    rw [leastModuleEnd] at reached ⊢
    by_cases raised :
        roundUp (used + memsz - firstbyte vaddr (2 ^ low)) (2 ^ low) < 2 ^ usizeBits
    · rw [if_pos raised, Option.bind_some, checkedAdd]
      split
      · exact if_neg (Nat.not_lt.mpr reached)
      · rfl
    · rw [if_neg raised, Option.bind_none, if_neg (by omega)]
  · rw [checkedAdd, if_neg added, Option.bind_none, if_neg (by omega)]

theorem staticModuleEnd_eq_some_iff {used memsz vaddr low finish : Nat}
    (bounded : low ≤ usizeBits) :
    staticModuleEnd used memsz vaddr (2 ^ low) = some finish ↔
      leastModuleEnd used memsz vaddr (2 ^ low) < 2 ^ usizeBits ∧
        leastModuleEnd used memsz vaddr (2 ^ low) = finish := by
  rw [staticModuleEnd_eq used memsz vaddr bounded, Option.ite_none_right_eq_some,
    Option.some.injEq]

theorem le_staticModuleEnd {used memsz vaddr low finish : Nat} (bounded : low ≤ usizeBits)
    (accepted : staticModuleEnd used memsz vaddr (2 ^ low) = some finish) :
    used + memsz ≤ finish := by
  obtain ⟨_, rfl⟩ := (staticModuleEnd_eq_some_iff bounded).mp accepted
  exact le_leastModuleEnd used memsz vaddr low

theorem staticModuleEnd_congruent {used memsz vaddr low finish : Nat} (bounded : low ≤ usizeBits)
    (word : vaddr < 2 ^ usizeBits)
    (accepted : staticModuleEnd used memsz vaddr (2 ^ low) = some finish) :
    2 ^ low ∣ finish + vaddr := by
  obtain ⟨_, rfl⟩ := (staticModuleEnd_eq_some_iff bounded).mp accepted
  rw [leastModuleEnd, Nat.add_assoc]
  exact Nat.dvd_add dvd_roundUp (firstbyte_congruent bounded word)

/-- An empty arena gives a module the least suitable distance. -/
theorem staticModuleEnd_least {memsz vaddr low distance : Nat} (bounded : low ≤ usizeBits)
    (word : vaddr < 2 ^ usizeBits) (small : distance ≤ isizeMax) (fits : memsz ≤ distance)
    (suitable : 2 ^ low ∣ distance + vaddr) :
    ∃ finish ≤ distance, staticModuleEnd 0 memsz vaddr (2 ^ low) = some finish := by
  have possible : (distance : Int) ≡ -(vaddr : Int) [ZMOD (2 ^ low : Nat)] := by
    rw [Int.modEq_iff_dvd, ← neg_add', Int.dvd_neg, Int.add_comm]
    exact_mod_cast suitable
  have least : leastModuleEnd 0 memsz vaddr (2 ^ low) ≤ distance :=
    (leastModuleEnd_isLeast 0 memsz bounded word).2 ⟨by omega, possible⟩
  have limit : isizeMax < 2 ^ usizeBits := by decide
  exact ⟨_, least, (staticModuleEnd_eq_some_iff bounded).mpr ⟨by omega, rfl⟩⟩

/-- The end of a module is the least one that leaves room and suits the segment's address;
where that is no machine word there is none. The correction at the end is never made. -/
theorem staticModuleEnd_exact (used memsz vaddr align : Nat) (word : vaddr < 2 ^ usizeBits)
    (power : ∃ low < usizeBits, align = 2 ^ low) :
    (∃ least : Nat,
      IsLeast {finish : Nat | used + memsz ≤ finish ∧
        (finish : Int) ≡ -(vaddr : Int) [ZMOD align]} least ∧
      staticModuleEnd used memsz vaddr align = if least < 2 ^ usizeBits then some least else none) ∧
    ∀ minEnd aligned finish : Nat, checkedAdd usizeBits used memsz = some minEnd →
      alignUp (minEnd - firstbyte vaddr align) align = some aligned →
      checkedAdd usizeBits aligned (firstbyte vaddr align) = some finish → ¬finish < minEnd := by
  obtain ⟨low, bounded, rfl⟩ := power
  refine ⟨⟨_, leastModuleEnd_isLeast used memsz bounded.le word,
    staticModuleEnd_eq used memsz vaddr bounded.le⟩, ?_⟩
  intro minEnd aligned finish added aligning ending
  obtain ⟨_, rfl⟩ := checkedAdd_eq_some_iff.mp ending
  have reached := le_alignUp bounded.le aligning
  omega

/-- A block of 20 bytes for a segment whose address is 4 above an aligned one. -/
theorem staticModuleEnd_exact_offset : staticModuleEnd 0x30 0x14 0x1004 16 = some 0x4c := by
  obtain ⟨⟨least, isLeast, same⟩, _⟩ :=
    staticModuleEnd_exact 0x30 0x14 0x1004 16 (by decide) ⟨4, by decide, rfl⟩
  have upper : least ≤ 0x4c := isLeast.2 ⟨by decide, by decide⟩
  obtain ⟨above, congruent⟩ := isLeast.1
  have lower : least = 0x4c := by
    rw [Int.modEq_iff_dvd] at congruent
    omega
  rw [same, lower]
  rfl

theorem staticUsedWithRseq_spec {used total : Nat}
    (accepted : staticUsedWithRseq used = some total) : used + rseqAreaSize ≤ total := by
  obtain ⟨aligned, aligning, accepted⟩ := Option.bind_eq_some_iff.mp accepted
  obtain ⟨_, rfl⟩ := checkedAdd_eq_some_iff.mp accepted
  have reached : used ≤ aligned := @le_alignUp used 5 aligned (by decide) aligning
  exact Nat.add_le_add_right reached _

theorem staticUsedWithRseq_zero : staticUsedWithRseq 0 = some rseqAreaSize := by decide +kernel

theorem staticUsedWithRseq_fits {used : Nat}
    (fits : used + rseqAreaSize ≤ staticTlsArenaSize) :
    ∃ total, staticUsedWithRseq used = some total ∧ total ≤ staticTlsArenaSize := by
  have multiple : 2 ^ 5 ∣ staticTlsArenaSize - rseqAreaSize := by decide
  obtain ⟨raised, least, raising⟩ := @alignUp_least used 5 (staticTlsArenaSize - rseqAreaSize)
    (by decide) (by decide) (by omega) multiple
  have inside : raised + rseqAreaSize ≤ staticTlsArenaSize := by
    simp only [staticTlsArenaSize, rseqAreaSize] at *
    omega
  have limit : staticTlsArenaSize < 2 ^ usizeBits := by decide
  refine ⟨raised + rseqAreaSize, Option.bind_eq_some_iff.mpr ⟨raised, raising, ?_⟩, inside⟩
  exact if_pos (by omega)

/-- The alignment of storage is a power of two, whatever least alignment is asked for. -/
theorem storageAlign_power {align : Nat} (power : ∃ low < usizeBits, align = 2 ^ low) :
    ∃ most < usizeBits, ∀ least ≤ tlsTcbAlign,
      max (max (max align rseqAreaAlign) tlsTcbAlign) least = 2 ^ most := by
  obtain ⟨most, inside, same⟩ := max_two_pow power ⟨6, by decide, rfl⟩
  refine ⟨most, inside, ?_⟩
  intro least small
  rw [← same]
  simp only [rseqAreaAlign, tlsTcbAlign] at *
  omega

theorem staticRseqOffset_spec {used total : Nat} (computed : staticUsedWithRseq used = some total)
    {offset : Int} (accepted : staticRseqOffset used = some offset) : offset = -(total : Int) := by
  rw [staticRseqOffset, computed] at accepted
  change (if total ≤ isizeMax then some (-(total : Int)) else none) = some offset at accepted
  split at accepted
  · cases accepted
    rfl
  · cases accepted

theorem Layout.fromSizeAlign_spec {size align : Nat} {layout : Layout}
    (accepted : Layout.fromSizeAlign size align = some layout) :
    layout = ⟨size, align⟩ ∧ 0 < align ∧ size + (align - 1) ≤ isizeMax := by
  rw [Layout.fromSizeAlign] at accepted
  split at accepted
  · next valid =>
      cases accepted
      obtain ⟨⟨low, _, power⟩, bounded⟩ := valid
      exact ⟨rfl, power ▸ Nat.two_pow_pos low, bounded⟩
  · cases accepted

theorem size_le_pageRoundedSize {size align : Nat} {layout : Layout}
    (accepted : Layout.fromSizeAlign size align = some layout) :
    size ≤ pageRoundedSize layout := by
  obtain ⟨rfl, positive, bounded⟩ := Layout.fromSizeAlign_spec accepted
  have word : max size align + 0xfff < 2 ^ usizeBits := by
    have limit : isizeMax + 0x1000 < 2 ^ usizeBits := by decide
    omega
  have reached := @lt_clearLow_add _ 12 (by decide) word
  change size ≤ clearLow usizeBits (max size align + 0xfff) 0x1000
  change _ < clearLow usizeBits _ 0x1000 + 0x1000 at reached
  omega

end DynLinker.Tls
