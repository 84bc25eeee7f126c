import DynLinker.Cache.LdCacheProperties

/-! The lookup in a cache whose names are in byte order, up or down: it answers as a plain
scan over all entries does. -/

set_option autoImplicit false

namespace DynLinker.Cache.LdCache

open Lib

/-- Byte order, turned around for a descending cache. -/
def inOrder (descending : Bool) (left right : Bytes) : Ordering :=
  if descending then byteCompare right left else byteCompare left right

variable (cache : LdCache)

/-- Every entry has a name. -/
def NamesDecode : Prop := ∀ idx, idx < cache.nlibs → ∃ name, cache.getName idx = some name

/-- The names never step back; neighbours may be equal. -/
def SortedNames (descending : Bool) : Prop :=
  ∀ earlier later earlierName laterName, earlier ≤ later → later < cache.nlibs →
    cache.getName earlier = some earlierName → cache.getName later = some laterName →
    (inOrder descending earlierName laterName).isLE

/-- What an entry gives to a scan for `libName`. -/
def scanEntry (arch : Arch) (libName : Bytes) (idx : Nat) : Option Bytes :=
  if cache.getName idx = some libName then cache.candidate arch idx else none

/-- The scan over all entries: the path of the first one with this name that passes the
flag check and has a path. -/
def linearScan (arch : Arch) (libName : Bytes) : Option Bytes :=
  (List.range cache.nlibs).findSome? (cache.scanEntry arch libName)

instance : Decidable cache.NamesDecode :=
  decidable_of_iff (∀ idx, idx < cache.nlibs → (cache.getName idx).isSome)
    (by simp only [NamesDecode, Option.isSome_iff_exists])

instance (descending : Bool) : Decidable (cache.SortedNames descending) :=
  decidable_of_iff
    (∀ later, later < cache.nlibs → ∀ earlier, earlier < later + 1 →
      ∀ earlierName ∈ cache.getName earlier, ∀ laterName ∈ cache.getName later,
        (inOrder descending earlierName laterName).isLE) (by
    constructor
    · intro checked earlier later earlierName laterName before inside earlierNamed laterNamed
      exact checked later inside earlier (by omega) earlierName earlierNamed laterName laterNamed
    · intro sorted later inside earlier before earlierName earlierNamed laterName laterNamed
      exact sorted earlier later earlierName laterName (by omega) inside earlierNamed laterNamed)

variable {cache} {arch : Arch} {descending : Bool} {libName : Bytes}

instance (descending : Bool) : Std.TransCmp (inOrder descending) :=
  match descending with
  | false => inferInstanceAs (Std.TransCmp fun left right => byteCompare left right)
  | true => inferInstanceAs (Std.TransCmp fun left right => byteCompare right left)

theorem inOrder_eq_iff {left right : Bytes} :
    inOrder descending left right = .eq ↔ left = right := by
  cases descending with
  | false => exact byteCompare_eq_iff
  | true => exact byteCompare_eq_iff.trans eq_comm

theorem probe_eq (mid : Nat) :
    cache.probe descending libName mid = (cache.getName mid).map (inOrder descending libName) := by
  cases descending with
  | false => rfl
  | true => rfl

theorem linearScan_eq_some_iff {path : Bytes} :
    cache.linearScan arch libName = some path ↔
      ∃ idx, idx < cache.nlibs ∧ cache.scanEntry arch libName idx = some path ∧
        ∀ earlier, earlier < idx → cache.scanEntry arch libName earlier = none := by
  unfold linearScan
  induction cache.nlibs with
  | zero => simp
  | succ size ih =>
      rw [List.range_succ, List.findSome?_append, Option.or_eq_some_iff, ih]
      constructor
      · intro found
        rcases found with ⟨idx, inside, selected, skipped⟩ | ⟨missing, selected⟩
        · exact ⟨idx, by omega, selected, skipped⟩
        · refine ⟨size, by omega, by simpa using selected, ?_⟩
          intro earlier before
          exact List.findSome?_eq_none_iff.mp missing earlier (List.mem_range.mpr before)
      · intro found
        obtain ⟨idx, inside, selected, skipped⟩ := found
        by_cases last : idx < size
        · exact .inl ⟨idx, last, selected, skipped⟩
        · obtain rfl : idx = size := by omega
          refine .inr ⟨List.findSome?_eq_none_iff.mpr ?_, by simpa using selected⟩
          intro earlier member
          exact skipped earlier (List.mem_range.mp member)

/-! ## The search -/

/-- The end names tell the direction: a cache in both directions is constant. -/
theorem sortedNames_guessed {firstName lastName : Bytes} (sorted : cache.SortedNames descending)
    (nonempty : cache.nlibs ≠ 0) (first : cache.getName 0 = some firstName)
    (last : cache.getName (cache.nlibs - 1) = some lastName) :
    cache.SortedNames (isDescending firstName lastName) := by
  have ends := sorted 0 (cache.nlibs - 1) firstName lastName (Nat.zero_le _) (by omega) first last
  cases descending with
  | false =>
      have upward : isDescending firstName lastName = false := by
        change (byteCompare firstName lastName).isLE at ends
        rw [isDescending, decide_eq_false_iff_not]
        intro downward
        rw [downward] at ends
        cases ends
      rw [upward]
      exact sorted
  | true =>
      change (byteCompare lastName firstName).isLE at ends
      cases guessed : isDescending firstName lastName with
      | true => exact sorted
      | false =>
          -- no step back is left: every name lies between two equal ends
          have upward : (byteCompare firstName lastName).isLE := by
            cases order : byteCompare firstName lastName with
            | lt => rfl
            | eq => rfl
            | gt =>
                rw [isDescending, order] at guessed
                cases guessed
          intro earlier later earlierName laterName before inside earlierNamed laterNamed
          have start := sorted 0 earlier firstName earlierName (Nat.zero_le _) (by omega) first
            earlierNamed
          have stop := sorted later (cache.nlibs - 1) laterName lastName (by omega) (by omega)
            laterNamed last
          exact Std.TransCmp.isLE_trans start (Std.TransCmp.isLE_trans upward stop)

theorem SortedNames.leads (sorted : cache.SortedNames descending) (decodes : cache.NamesDecode)
    {target position : Nat} (named : cache.getName target = some libName)
    (valid : target < cache.nlibs) (inside : position < cache.nlibs) :
    Leads (cache.probe descending libName) target position := by
  obtain ⟨name, here⟩ := decodes position inside
  constructor
  · exact ⟨_, by rw [probe_eq, here]; rfl⟩
  · intro below
    by_contra before
    have order := sorted position target name libName (by omega) valid here named
    rw [probe_eq, here, Option.map_some, Option.some.injEq] at below
    exact Std.OrientedCmp.not_lt_of_isLE order below
  · intro above
    by_contra after
    have order := sorted target position libName name (by omega) inside named here
    rw [probe_eq, here, Option.map_some, Option.some.injEq] at above
    rw [above] at order
    cases order

/-- Entries of one name are neighbours. -/
theorem SortedNames.between (sorted : cache.SortedNames descending) (decodes : cache.NamesDecode)
    {left right position : Nat} (leftNamed : cache.getName left = some libName)
    (rightNamed : cache.getName right = some libName) (lower : left ≤ position)
    (upper : position ≤ right) (valid : right < cache.nlibs) :
    cache.getName position = some libName := by
  obtain ⟨name, here⟩ := decodes position (by omega)
  have below := sorted left position libName name lower (by omega) leftNamed here
  have above := sorted position right name libName upper valid here rightNamed
  have same : inOrder descending libName name = .eq := Std.OrientedCmp.isLE_antisymm below above
  rw [here, inOrder_eq_iff.mp same]

theorem bisect_named {probed : Nat}
    (found : bisect (cache.probe descending libName) cache.nlibs 0 cache.nlibs = some probed) :
    probed < cache.nlibs ∧ cache.getName probed = some libName := by
  obtain ⟨_, valid, equal, _⟩ := (bisect_eq_some_iff (Nat.sub_le _ _)).mp found
  refine ⟨valid, ?_⟩
  rw [probe_eq, Option.map_eq_some_iff] at equal
  obtain ⟨name, named, same⟩ := equal
  rw [named, inOrder_eq_iff.mp same]

theorem runStart_self_named {mid : Nat} (named : cache.getName mid = some libName) :
    cache.getName (cache.runStart libName mid) = some libName := by
  have startLe : cache.runStart libName mid ≤ mid := runStart_le mid
  by_cases last : cache.runStart libName mid = mid
  · rw [last, named]
  · exact runStart_named (Nat.le_refl _) (by omega)

/-- The backward loop comes to the first entry of the name. -/
theorem SortedNames.runStart_le_named (sorted : cache.SortedNames descending)
    (decodes : cache.NamesDecode) {mid idx : Nat} (valid : mid < cache.nlibs)
    (named : cache.getName mid = some libName) (here : cache.getName idx = some libName) :
    cache.runStart libName mid ≤ idx := by
  have startLe : cache.runStart libName mid ≤ mid := runStart_le mid
  by_contra before
  obtain ⟨boundary, start⟩ : ∃ boundary, cache.runStart libName mid = boundary + 1 :=
    ⟨cache.runStart libName mid - 1, by omega⟩
  exact runStart_boundary start (sorted.between decodes here (runStart_self_named named)
    (by omega) (by omega) (by omega))

/-- From any entry of the name, the two loops give what the scan over all entries gives. -/
theorem SortedNames.scanRun_eq (sorted : cache.SortedNames descending)
    (decodes : cache.NamesDecode) {mid : Nat} (valid : mid < cache.nlibs)
    (named : cache.getName mid = some libName) :
    cache.scanRun arch libName (cache.nlibs - cache.runStart libName mid)
      (cache.runStart libName mid) = cache.linearScan arch libName := by
  have startLe : cache.runStart libName mid ≤ mid := runStart_le mid
  have startNamed := runStart_self_named named
  apply Option.ext
  intro path
  rw [scanRun_eq_some_iff, linearScan_eq_some_iff]
  constructor
  · intro scanned
    obtain ⟨found, lower, upper, run, selected, skipped⟩ := scanned
    refine ⟨found, by omega, ?_, ?_⟩
    · rw [scanEntry, if_pos (run found lower (Nat.le_refl _)), selected]
    · intro earlier before
      rw [scanEntry]
      split
      · next here =>
          exact skipped earlier (sorted.runStart_le_named decodes valid named here) before
      · rfl
  · intro scanned
    obtain ⟨found, inside, selected, skipped⟩ := scanned
    rw [scanEntry] at selected
    split at selected
    · next here =>
        have lower := sorted.runStart_le_named decodes valid named here
        have run : ∀ between, cache.runStart libName mid ≤ between → between ≤ found →
            cache.getName between = some libName := fun between above below =>
          sorted.between decodes startNamed here above below inside
        refine ⟨found, lower, by omega, run, selected, ?_⟩
        intro earlier above below
        have absent := skipped earlier below
        rw [scanEntry, if_pos (run earlier above (by omega))] at absent
        exact absent
    · cases selected

theorem SortedNames.lookup_eq (sorted : cache.SortedNames descending)
    (decodes : cache.NamesDecode) (libName : Bytes) :
    cache.lookup arch libName = cache.linearScan arch libName := by
  unfold lookup
  by_cases empty : cache.nlibs = 0
  · rw [if_pos empty, linearScan, empty]
    rfl
  rw [if_neg empty]
  obtain ⟨firstName, first⟩ := decodes 0 (by omega)
  obtain ⟨lastName, last⟩ := decodes (cache.nlibs - 1) (by omega)
  have guessed := sortedNames_guessed sorted empty first last
  rw [first, last]
  simp only [Option.bind_eq_bind, Option.bind_some]
  cases found : bisect (cache.probe (isDescending firstName lastName) libName) cache.nlibs 0
      cache.nlibs with
  | some mid =>
      obtain ⟨valid, named⟩ := bisect_named found
      rw [Option.bind_some, named, Option.bind_some]
      exact guessed.scanRun_eq decodes valid named
  | none =>
      symm
      rw [Option.bind_none, linearScan, List.findSome?_eq_none_iff]
      intro target member
      have valid := List.mem_range.mp member
      rw [scanEntry]
      split
      · next named =>
          have leads : ∀ position, 0 ≤ position → position < cache.nlibs →
              Leads (cache.probe (isDescending firstName lastName) libName) target position :=
            fun position _ inside => guessed.leads decodes named valid inside
          obtain ⟨position, hit⟩ := bisect_finds (Nat.sub_le _ _) (Nat.zero_le _) valid leads
          rw [found] at hit
          cases hit
      · rfl

/-- In a cache whose names all decode and are in byte order, up or down, the lookup is the
scan over all entries. -/
theorem lookup_eq_linearScan (arch : Arch) (cache : LdCache) (decodes : cache.NamesDecode)
    (descending : Bool) (sorted : cache.SortedNames descending) (libName : Bytes) :
    cache.lookup arch libName = cache.linearScan arch libName :=
  sorted.lookup_eq decodes libName

/-- Two libraries of one name, the first of a foreign architecture, between two others. -/
def duplicateEntries : List CacheEntry := [
  ⟨0x0303, ascii "libd.so", ascii "/l/libd.so"⟩,
  ⟨0x0003, ascii "libc.so", ascii "/foreign/libc.so"⟩,
  ⟨0x0303, ascii "libc.so", ascii "/l/libc.so"⟩,
  ⟨0x0303, ascii "liba.so", ascii "/l/liba.so"⟩]

def duplicateCache : LdCache where
  data := encodeImage duplicateEntries
  headerOffset := 0
  nlibs := 4
  stringTableOffset := 144
  layout := rfl
  bounded := by decide +kernel

theorem lookup_eq_linearScan_duplicates :
    LdCache.new (.ok (encodeImage duplicateEntries)) = .ok duplicateCache ∧
      duplicateCache.lookup .x86_64 (ascii "libc.so") = some (ascii "/l/libc.so") := by
  refine ⟨by decide +kernel, ?_⟩
  rw [lookup_eq_linearScan .x86_64 duplicateCache (by decide +kernel) true (by decide +kernel)]
  decide +kernel

end DynLinker.Cache.LdCache
