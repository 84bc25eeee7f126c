import DynLinker.Cache.Ldconfig
import Mathlib.Data.Nat.Find

/-! When the binary search of the cache is right. The search follows byte order,
`ldconfig` sorts by `libcmp`; the two disagree on names with digits, so it depends on
how they compare the names on the way. -/

set_option autoImplicit false

namespace DynLinker.Cache.LdCache

open Lib

variable {cache : LdCache} {arch : Arch}

/-! ## Scans -/

theorem scanRun_eq_some_iff {name path : Bytes} {remaining idx : Nat} :
    cache.scanRun arch name remaining idx = some path ↔
      ∃ found, idx ≤ found ∧ found < idx + remaining ∧
        (∀ between, idx ≤ between → between ≤ found → cache.getName between = some name) ∧
        cache.candidate arch found = some path ∧
        ∀ earlier, idx ≤ earlier → earlier < found → cache.candidate arch earlier = none := by
  induction remaining generalizing idx with
  | zero =>
      constructor
      · intro scanned
        cases scanned
      · rintro ⟨found, lower, upper, _⟩
        omega
  | succ remaining ih =>
      unfold scanRun
      by_cases same : cache.getName idx = some name
      · rw [if_pos same]
        cases here : cache.candidate arch idx with
        | some first =>
            constructor
            · intro scanned
              refine ⟨idx, Nat.le_refl _, by omega, ?_, here.trans scanned, by omega⟩
              intro between lower upper
              obtain rfl : between = idx := by omega
              exact same
            · rintro ⟨found, lower, _, _, selected, skipped⟩
              by_cases later : idx < found
              · have absent := skipped idx (Nat.le_refl _) later
                rw [here] at absent
                cases absent
              · obtain rfl : found = idx := by omega
                exact here.symm.trans selected
        | none =>
            rw [ih]
            constructor
            · rintro ⟨found, lower, upper, named, selected, skipped⟩
              refine ⟨found, by omega, by omega, ?_, selected, ?_⟩
              · intro between above below
                by_cases start : between = idx
                · exact start ▸ same
                · exact named between (by omega) below
              · intro earlier above below
                by_cases start : earlier = idx
                · exact start ▸ here
                · exact skipped earlier (by omega) below
            · rintro ⟨found, lower, upper, named, selected, skipped⟩
              have later : idx ≠ found := by
                rintro rfl
                rw [here] at selected
                cases selected
              exact ⟨found, by omega, by omega, fun between above => named between (by omega),
                selected, fun earlier above => skipped earlier (by omega)⟩
      · rw [if_neg same]
        constructor
        · intro scanned
          cases scanned
        · rintro ⟨found, lower, _, named, _⟩
          exact absurd (named idx (Nat.le_refl _) lower) same

theorem runStart_le {name : Bytes} (idx : Nat) : cache.runStart name idx ≤ idx := by
  induction idx with
  | zero => exact Nat.le_refl _
  | succ idx ih =>
      unfold runStart
      split
      · exact Nat.le_succ_of_le ih
      · exact Nat.le_refl _

theorem runStart_named {name : Bytes} {idx between : Nat}
    (lower : cache.runStart name idx ≤ between) (upper : between < idx) :
    cache.getName between = some name := by
  induction idx with
  | zero => omega
  | succ idx ih =>
      unfold runStart at lower
      split at lower
      · next same =>
          by_cases last : between = idx
          · exact last ▸ same
          · exact ih lower (by omega)
      · omega

theorem runStart_boundary {name : Bytes} {idx before : Nat}
    (start : cache.runStart name idx = before + 1) : cache.getName before ≠ some name := by
  induction idx with
  | zero => cases start
  | succ idx ih =>
      unfold runStart at start
      split at start
      · exact ih start
      · next different =>
          cases start
          exact different

/-! ## Names of a well-formed image -/

theorem entry_in_bounds {idx : Nat} (valid : idx < cache.nlibs) :
    cache.entryOffset idx + entrySize ≤ cache.data.length := by
  have layout := cache.layout
  have bounded := cache.bounded
  unfold entrySize at layout
  unfold entryOffset entrySize
  omega

theorem LdconfigImage.getName_eq (image : cache.LdconfigImage) {idx : Nat}
    (valid : idx < cache.nlibs) : cache.getName idx = cache.entryName idx := by
  obtain ⟨name, named, nonempty, relative⟩ := image.named idx valid
  have inside := entry_in_bounds valid
  unfold entrySize at inside
  unfold getName
  rw [if_neg (by omega)]
  unfold entryName at named ⊢
  simp only [named, relative]
  cases name with
  | nil => exact absurd rfl nonempty
  | cons first rest => rfl

/-- The run that the two scans walk is the run of equal names around the hit. -/
theorem LdconfigImage.sameRun_iff (image : cache.LdconfigImage) {name : Bytes}
    {idx other : Nat} (valid : idx < cache.nlibs) (named : cache.entryName idx = some name)
    (otherValid : other < cache.nlibs) :
    cache.SameRun idx other ↔ cache.runStart name idx ≤ other ∧
      ∀ between, cache.runStart name idx ≤ between → between ≤ other →
        cache.getName between = some name := by
  have startLe : cache.runStart name idx ≤ idx := runStart_le idx
  constructor
  · intro same
    have started : cache.runStart name idx ≤ other := by
      by_contra before
      obtain ⟨boundary, start⟩ : ∃ boundary, cache.runStart name idx = boundary + 1 :=
        ⟨cache.runStart name idx - 1, by omega⟩
      apply runStart_boundary start
      rw [image.getName_eq (by omega), same boundary (by omega) (by omega), named]
    refine ⟨started, fun between lower upper => ?_⟩
    by_cases inside : between < idx
    · exact runStart_named lower inside
    · rw [image.getName_eq (by omega), same between (by omega) (by omega), named]
  · rintro ⟨started, run⟩ between lower upper
    by_cases inside : between < idx
    · have inRun : cache.getName between = some name := runStart_named (by omega) inside
      rw [← image.getName_eq (by omega), inRun, named]
    · by_cases start : between = idx
      · rw [start]
      · rw [← image.getName_eq (by omega), run between (by omega) (by omega), named]

theorem LdconfigImage.scan_eq_some_iff (image : cache.LdconfigImage) {name path : Bytes}
    {idx : Nat} (valid : idx < cache.nlibs) (named : cache.entryName idx = some name) :
    cache.scanRun arch name (cache.nlibs - cache.runStart name idx)
        (cache.runStart name idx) = some path ↔ cache.FirstInRun arch idx path := by
  have startLe : cache.runStart name idx ≤ idx := runStart_le idx
  rw [scanRun_eq_some_iff]
  constructor
  · rintro ⟨found, lower, upper, run, selected, skipped⟩
    refine ⟨found, by omega, ?_, selected, ?_⟩
    · exact (image.sameRun_iff valid named (by omega)).mpr ⟨lower, run⟩
    · intro earlier before same
      have started := ((image.sameRun_iff valid named (by omega)).mp same).1
      exact skipped earlier started before
  · rintro ⟨found, inside, same, selected, skipped⟩
    obtain ⟨started, run⟩ := (image.sameRun_iff valid named inside).mp same
    refine ⟨found, started, by omega, run, selected, ?_⟩
    intro earlier above below
    apply skipped earlier below
    exact (image.sameRun_iff valid named (by omega)).mpr
      ⟨above, fun between lower upper => run between lower (by omega)⟩

/-! ## The lookup -/

/-- Byte order leads a halving search to the entry. -/
def ByteOrderReaches (cache : LdCache) (libName : Bytes) (idx : Nat) : Prop :=
  ∀ visited ∈ halvingPath cache.nlibs 0 cache.nlibs idx,
    Towards (cache.byteOrderAt libName) idx visited

theorem byteOrderAt_eq_iff {libName : Bytes} {idx : Nat} :
    cache.byteOrderAt libName idx = some .eq ↔ cache.entryName idx = some libName := by
  rw [byteOrderAt]
  cases cache.entryName idx with
  | none => simp
  | some name =>
      cases cache.guessedDescending with
      | false =>
          simp only [Option.map_some, Bool.false_eq_true, ↓reduceIte, Option.some.injEq,
            byteCompare_eq_iff]
          exact eq_comm
      | true => simp [byteCompare_eq_iff]

/-- The search of a well-formed image: hit by byte order, then the run of the hit. -/
theorem LdconfigImage.lookup_eq_some_iff (image : cache.LdconfigImage) {libName path : Bytes} :
    cache.lookup arch libName = some path ↔
      ∃ idx, idx < cache.nlibs ∧ cache.entryName idx = some libName ∧
        cache.ByteOrderReaches libName idx ∧ cache.FirstInRun arch idx path := by
  unfold lookup
  by_cases empty : cache.nlibs = 0
  · rw [if_pos empty]
    constructor
    · intro looked
      cases looked
    · rintro ⟨idx, valid, _⟩
      omega
  rw [if_neg empty]
  obtain ⟨firstName, first, _⟩ := image.named 0 (by omega)
  obtain ⟨lastName, last, _⟩ := image.named (cache.nlibs - 1) (by omega)
  have guessed : cache.guessedDescending = isDescending firstName lastName := by
    simp only [guessedDescending, first, last]
  rw [image.getName_eq (by omega), image.getName_eq (by omega), first, last]
  simp only [Option.bind_eq_bind, Option.bind_some, ← guessed, Option.bind_eq_some_iff]
  have probed {idx : Nat} (valid : idx < cache.nlibs) :
      cache.probe cache.guessedDescending libName idx = cache.byteOrderAt libName idx := by
    rw [probe, byteOrderAt, image.getName_eq valid]
  have towards {idx visited : Nat} (valid : idx < cache.nlibs)
      (member : visited ∈ halvingPath cache.nlibs 0 cache.nlibs idx) :
      Towards (cache.probe cache.guessedDescending libName) idx visited ↔
        Towards (cache.byteOrderAt libName) idx visited := by
    rw [Towards, Towards, probed (mem_halvingPath (Nat.zero_le _) valid member).2.1]
  constructor
  · rintro ⟨idx, hit, name, named, scanned⟩
    obtain ⟨_, valid, equal, path⟩ := (bisect_eq_some_iff (Nat.sub_le _ _)).mp hit
    have sameName := byteOrderAt_eq_iff.mp ((probed valid).symm.trans equal)
    rw [image.getName_eq valid, sameName] at named
    cases named
    exact ⟨idx, valid, sameName, fun visited member => (towards valid member).mp (path _ member),
      (image.scan_eq_some_iff valid sameName).mp scanned⟩
  · rintro ⟨idx, valid, named, reaches, inRun⟩
    refine ⟨idx, ?_, libName, (image.getName_eq valid).trans named, ?_⟩
    · exact (bisect_eq_some_iff (Nat.sub_le _ _)).mpr
        ⟨Nat.zero_le _, valid, (probed valid).trans (byteOrderAt_eq_iff.mpr named),
          fun visited member => (towards valid member).mpr (reaches _ member)⟩
    · exact (image.scan_eq_some_iff valid named).mpr inRun

theorem FirstMatch.unique {libName path other : Bytes}
    (left : cache.FirstMatch arch libName path) (right : cache.FirstMatch arch libName other) :
    path = other := by
  obtain ⟨idx, _, named, selected, skipped⟩ := left
  obtain ⟨idx', _, named', selected', skipped'⟩ := right
  rcases Nat.lt_trichotomy idx idx' with before | rfl | after
  · rw [skipped' idx before named] at selected
    cases selected
  · exact Option.some.inj (selected.symm.trans selected')
  · rw [skipped idx' after named'] at selected'
    cases selected'

/-- An entry of the run that has a path is an entry of that name that has one. -/
theorem FirstInRun.exists_match {libName path : Bytes} {idx : Nat}
    (named : cache.entryName idx = some libName) (inRun : cache.FirstInRun arch idx path) :
    ∃ first, cache.FirstMatch arch libName first := by
  obtain ⟨other, valid, same, selected, _⟩ := inRun
  have otherNamed : cache.entryName other = some libName := by
    rw [same other (by omega) (by omega), named]
  have exists_ : ∃ found, found < cache.nlibs ∧ cache.entryName found = some libName ∧
      cache.candidate arch found ≠ none := ⟨other, valid, otherNamed, by simp [selected]⟩
  classical
  obtain ⟨inside, firstNamed, present⟩ := Nat.find_spec exists_
  obtain ⟨first, firstSelected⟩ := Option.ne_none_iff_exists'.mp present
  refine ⟨first, Nat.find exists_, inside, firstNamed, firstSelected, ?_⟩
  intro earlier before earlierNamed
  by_contra earlierPresent
  exact Nat.find_min exists_ before ⟨by omega, earlierNamed, earlierPresent⟩

/-- The lookup is right if there is nothing to find, or if byte order reaches an entry whose
run starts with the right path. -/
theorem LdconfigImage.lookup_right_iff (image : cache.LdconfigImage) (libName : Bytes) :
    (∀ path, cache.lookup arch libName = some path ↔ cache.FirstMatch arch libName path) ↔
      (∀ path, ¬ cache.FirstMatch arch libName path) ∨
        ∃ idx, idx < cache.nlibs ∧ cache.entryName idx = some libName ∧
          cache.ByteOrderReaches libName idx ∧
          ∃ path, cache.FirstMatch arch libName path ∧ cache.FirstInRun arch idx path := by
  constructor
  · intro exact_
    by_cases absent : ∀ path, ¬ cache.FirstMatch arch libName path
    · exact .inl absent
    · obtain ⟨path, first⟩ := not_forall_not.mp absent
      obtain ⟨idx, valid, named, reaches, inRun⟩ :=
        image.lookup_eq_some_iff.mp ((exact_ path).mpr first)
      exact .inr ⟨idx, valid, named, reaches, path, first, inRun⟩
  · rintro (absent | ⟨idx, valid, named, reaches, path, first, inRun⟩) other
    · constructor
      · intro looked
        obtain ⟨idx, valid, named, reaches, inRun⟩ := image.lookup_eq_some_iff.mp looked
        obtain ⟨first, isFirst⟩ := inRun.exists_match named
        exact absurd isFirst (absent first)
      · intro first
        exact absurd first (absent other)
    · have looked : cache.lookup arch libName = some path :=
        image.lookup_eq_some_iff.mpr ⟨idx, valid, named, reaches, inRun⟩
      constructor
      · intro found
        rw [looked] at found
        cases found
        exact first
      · intro found
        rw [looked, first.unique found]

/-! ## The order of the cache -/

/-- Around an entry of the name, the order of the cache tells the side. -/
theorem LdconfigImage.leads (image : cache.LdconfigImage) {libName : Bytes} {goal : Nat}
    (valid : goal < cache.nlibs) (named : cache.entryName goal = some libName) (position : Nat)
    (inside : position < cache.nlibs) : Leads (cache.libcmpAt libName) goal position := by
  obtain ⟨name, known, _⟩ := image.named position inside
  have answered : cache.libcmpAt libName position = some (libcmp name libName) := by
    rw [libcmpAt, known]
    rfl
  refine ⟨⟨_, answered⟩, ?_, ?_⟩
  · intro below
    have order : libcmp name libName = .lt := Option.some.inj (answered.symm.trans below)
    rcases Nat.lt_trichotomy position goal with earlier | rfl | later
    · exact absurd order (image.descending _ _ earlier valid _ _ known named)
    · cases known.symm.trans named
      rw [libcmp_self] at order
      cases order
    · exact later
  · intro above
    have order : libcmp name libName = .gt := Option.some.inj (answered.symm.trans above)
    rcases Nat.lt_trichotomy position goal with earlier | rfl | later
    · exact earlier
    · cases known.symm.trans named
      rw [libcmp_self] at order
      cases order
    · have swapped := libcmp_swap libName name
      rw [order] at swapped
      exact absurd swapped (image.descending _ _ later inside _ _ named known)

theorem LdconfigImage.reaches_iff (image : cache.LdconfigImage) {libName : Bytes} {idx : Nat}
    (valid : idx < cache.nlibs) (named : cache.entryName idx = some libName) :
    cache.ByteOrderReaches libName idx ↔ cache.OrdersAgreeTo libName idx := by
  refine forall₂_congr fun visited member => ?_
  obtain ⟨_, inside, apart⟩ := mem_halvingPath (Nat.zero_le _) valid member
  split
  · rfl
  · next unequal =>
      have towards := (image.leads valid named visited inside).towards unequal
      constructor
      · intro byBytes
        rcases Nat.lt_or_gt_of_ne apart with earlier | later
        · exact (byBytes.1 earlier).trans (towards.1 earlier).symm
        · exact (byBytes.2 later).trans (towards.2 later).symm
      · intro agree
        exact ⟨fun earlier => agree.trans (towards.1 earlier),
          fun later => agree.trans (towards.2 later)⟩

/-! ## One spelling -/

theorem libcmpAt_of_named {libName : Bytes} {idx : Nat}
    (named : cache.entryName idx = some libName) : cache.libcmpAt libName idx = some .eq := by
  rw [libcmpAt, named, Option.map_some, libcmp_self]

theorem OneSpelling.libcmpAt_iff {libName : Bytes} (one : cache.OneSpelling libName) {idx : Nat}
    (valid : idx < cache.nlibs) :
    cache.libcmpAt libName idx = some .eq ↔ cache.entryName idx = some libName :=
  ⟨one idx valid, libcmpAt_of_named⟩

/-- Entries of the name have only entries of the name between them. -/
theorem LdconfigImage.sameRun_of_named (image : cache.LdconfigImage) {libName : Bytes}
    (one : cache.OneSpelling libName) {idx other : Nat} (valid : idx < cache.nlibs)
    (named : cache.entryName idx = some libName) (otherValid : other < cache.nlibs)
    (otherNamed : cache.entryName other = some libName) : cache.SameRun idx other := by
  intro between lower upper
  have inside : between < cache.nlibs := by omega
  rw [named]
  apply one between inside
  by_contra unequal
  have fromIdx := (image.leads valid named between inside).towards unequal
  have fromOther := (image.leads otherValid otherNamed between inside).towards unequal
  rcases Nat.lt_trichotomy between idx with earlier | rfl | later
  · by_cases same : between = other
    · exact unequal (same ▸ libcmpAt_of_named otherNamed)
    · cases (fromIdx.1 earlier).symm.trans (fromOther.2 (by omega))
  · exact unequal (libcmpAt_of_named named)
  · by_cases same : between = other
    · exact unequal (same ▸ libcmpAt_of_named otherNamed)
    · cases (fromIdx.2 later).symm.trans (fromOther.1 (by omega))

theorem LdconfigImage.firstInRun_of_match (image : cache.LdconfigImage) {libName path : Bytes}
    (one : cache.OneSpelling libName) {idx : Nat} (valid : idx < cache.nlibs)
    (named : cache.entryName idx = some libName) (first : cache.FirstMatch arch libName path) :
    cache.FirstInRun arch idx path := by
  obtain ⟨other, otherValid, otherNamed, selected, skipped⟩ := first
  refine ⟨other, otherValid, image.sameRun_of_named one valid named otherValid otherNamed,
    selected, ?_⟩
  intro earlier before same
  apply skipped earlier before
  rw [same earlier (by omega) (by omega), named]

theorem LdconfigImage.reached_iff_agree (image : cache.LdconfigImage) {libName path : Bytes}
    (one : cache.OneSpelling libName) (first : cache.FirstMatch arch libName path) :
    (∃ idx, idx < cache.nlibs ∧ cache.entryName idx = some libName ∧
      cache.ByteOrderReaches libName idx) ↔ cache.OrdersAgree libName := by
  obtain ⟨target, valid, named, _, _⟩ := first
  have searched := @bisect_finds_iff (cache.libcmpAt libName) (cache.byteOrderAt libName)
    cache.nlibs 0 cache.nlibs target (Nat.sub_le _ _) (Nat.zero_le _) valid
    (libcmpAt_of_named named)
    (fun goal _ below equal position _ inside => image.leads below (one goal below equal) _ inside)
    (fun position _ inside => byteOrderAt_eq_iff.trans (one.libcmpAt_iff inside).symm)
  rw [OrdersAgree, ← searched]
  apply exists_congr
  intro idx
  rw [bisect_eq_some_iff (Nat.sub_le _ _), byteOrderAt_eq_iff]
  exact ⟨fun ⟨below, sameName, reaches⟩ => ⟨Nat.zero_le _, below, sameName, reaches⟩,
    fun ⟨_, below, sameName, reaches⟩ => ⟨below, sameName, reaches⟩⟩

/-- `lookup` gives the first match of a well-formed `ldconfig` image exactly when there is
no match to give, or byte order and the order of the cache agree on the names that lie on
the way to it. Where the name has another spelling in the cache, they have to agree on the
way to an entry of the name whose run starts with the path of the first match. -/
theorem lookup_first_match_iff (arch : Arch) (cache : LdCache) (image : cache.LdconfigImage)
    (libName : Bytes) :
    (∀ path, cache.lookup arch libName = some path ↔ cache.FirstMatch arch libName path) ↔
      (∀ path, ¬ cache.FirstMatch arch libName path) ∨
      (cache.OneSpelling libName ∧ cache.OrdersAgree libName) ∨
      (¬ cache.OneSpelling libName ∧
        ∃ idx, idx < cache.nlibs ∧ cache.entryName idx = some libName ∧
          cache.OrdersAgreeTo libName idx ∧
          ∃ path, cache.FirstMatch arch libName path ∧ cache.FirstInRun arch idx path) := by
  rw [image.lookup_right_iff]
  by_cases absent : ∀ path, ¬ cache.FirstMatch arch libName path
  · exact ⟨fun _ => .inl absent, fun _ => .inl absent⟩
  obtain ⟨path, first⟩ := not_forall_not.mp absent
  rw [or_iff_right absent, or_iff_right absent]
  by_cases one : cache.OneSpelling libName
  · rw [← image.reached_iff_agree one first]
    constructor
    · rintro ⟨idx, valid, named, reaches, _⟩
      exact .inl ⟨one, idx, valid, named, reaches⟩
    · rintro (⟨_, idx, valid, named, reaches⟩ | ⟨several, _⟩)
      · exact ⟨idx, valid, named, reaches, path, first,
          image.firstInRun_of_match one valid named first⟩
      · exact absurd one several
  · constructor
    · rintro ⟨idx, valid, named, reaches, ends⟩
      exact .inr ⟨one, idx, valid, named, (image.reaches_iff valid named).mp reaches, ends⟩
    · rintro (⟨only, _⟩ | ⟨_, idx, valid, named, agree, ends⟩)
      · exact absurd only one
      · exact ⟨idx, valid, named, (image.reaches_iff valid named).mpr agree, ends⟩

/-! ## An image on which the orders disagree -/

/-- Three libraries as `ldconfig` orders them: `3` sorts above `s`. -/
def digitEntries : List CacheEntry := [
  ⟨0x0303, ascii "libz3.so", ascii "/l/libz3.so"⟩,
  ⟨0x0303, ascii "libzstd.so", ascii "/l/libzstd.so"⟩,
  ⟨0x0303, ascii "liba.so", ascii "/l/liba.so"⟩]

def digitCache : LdCache where
  data := encodeImage digitEntries
  headerOffset := 0
  nlibs := 3
  stringTableOffset := 120
  layout := rfl
  bounded := by decide +kernel

theorem digitCache_parsed : LdCache.new (.ok (encodeImage digitEntries)) = .ok digitCache := by
  decide +kernel

theorem digitCache_names : digitCache.entryName 0 = some (ascii "libz3.so") ∧
    digitCache.entryName 1 = some (ascii "libzstd.so") ∧
    digitCache.entryName 2 = some (ascii "liba.so") := by
  decide +kernel

theorem digitCache_image : digitCache.LdconfigImage := by
  obtain ⟨first, second, third⟩ := digitCache_names
  constructor
  · intro idx valid
    have cases_ : idx = 0 ∨ idx = 1 ∨ idx = 2 := by
      change idx < 3 at valid
      omega
    rcases cases_ with rfl | rfl | rfl
    · exact ⟨_, first, by decide +kernel, by decide +kernel⟩
    · exact ⟨_, second, by decide +kernel, by decide +kernel⟩
    · exact ⟨_, third, by decide +kernel, by decide +kernel⟩
  · intro earlier later before valid earlierName laterName earlierNamed laterNamed
    have cases_ : (earlier = 0 ∧ later = 1) ∨ (earlier = 0 ∧ later = 2) ∨
        (earlier = 1 ∧ later = 2) := by
      change later < 3 at valid
      omega
    rcases cases_ with ⟨rfl, rfl⟩ | ⟨rfl, rfl⟩ | ⟨rfl, rfl⟩
    · cases first.symm.trans earlierNamed
      cases second.symm.trans laterNamed
      decide +kernel
    · cases first.symm.trans earlierNamed
      cases third.symm.trans laterNamed
      decide +kernel
    · cases second.symm.trans earlierNamed
      cases third.symm.trans laterNamed
      decide +kernel

/-- The first probe, `libzstd.so`, sends the search for `libz3.so` the wrong way. -/
theorem lookup_misses_digit_name :
    LdCache.new (.ok (encodeImage digitEntries)) = .ok digitCache ∧ digitCache.LdconfigImage ∧
      digitCache.FirstMatch .x86_64 (ascii "libz3.so") (ascii "/l/libz3.so") ∧
      digitCache.lookup .x86_64 (ascii "libz3.so") = none := by
  refine ⟨digitCache_parsed, digitCache_image, ?_, by decide +kernel⟩
  exact ⟨0, by decide, digitCache_names.1, by decide +kernel, by omega⟩

/-- On the same image `liba.so` is found. -/
theorem lookup_first_match_liba :
    digitCache.lookup .x86_64 (ascii "liba.so") = some (ascii "/l/liba.so") := by
  have third := digitCache_names.2.2
  have selected : digitCache.candidate .x86_64 2 = some (ascii "/l/liba.so") := by decide +kernel
  have first : digitCache.FirstMatch .x86_64 (ascii "liba.so") (ascii "/l/liba.so") := by
    refine ⟨2, by decide, third, selected, ?_⟩
    intro earlier before named
    have cases_ : earlier = 0 ∨ earlier = 1 := by omega
    rcases cases_ with rfl | rfl
    · exact absurd named (by decide +kernel)
    · exact absurd named (by decide +kernel)
  have one : digitCache.OneSpelling (ascii "liba.so") := by
    unfold OneSpelling
    decide +kernel
  have agree : digitCache.OrdersAgree (ascii "liba.so") := by
    unfold OrdersAgree
    decide +kernel
  have found := (lookup_first_match_iff .x86_64 digitCache digitCache_image (ascii "liba.so")).mpr
    (.inr (.inl ⟨one, agree⟩))
  exact (found _).mpr first

end DynLinker.Cache.LdCache
