import DynLinker.Cache.SortedLookup

/-! Caches that list libraries for several machines. The architecture of an entry is a number
in one byte of its flags, and the lookup tests it bit by bit. -/

set_option autoImplicit false

namespace DynLinker.Cache.LdCache

open Lib

def flagArchMask : Nat := 0xff00

variable (cache : LdCache)

def flags (idx : Nat) : Nat := readU32 cache.data (cache.entryOffset idx)

/-- The forward loop, with the position of the entry instead of its path. -/
def scanRunIndex (arch : Arch) (name : Bytes) : Nat → Nat → Option Nat
  | 0, _ => none
  | remaining + 1, idx =>
      if cache.getName idx = some name then
        match cache.candidate arch idx with
        | some _ => some idx
        | none => scanRunIndex arch name remaining (idx + 1)
      else none

/-- The position of the entry whose path `lookup` returns. -/
def lookupIndex (arch : Arch) (libName : Bytes) : Option Nat :=
  if cache.nlibs = 0 then none
  else do
    let firstName ← cache.getName 0
    let lastName ← cache.getName (cache.nlibs - 1)
    let mid ← bisect (cache.probe (isDescending firstName lastName) libName) cache.nlibs 0
      cache.nlibs
    let name ← cache.getName mid
    let start := cache.runStart name mid
    cache.scanRunIndex arch name (cache.nlibs - start) start

/-- An entry with this name for the C library of this kind of machine. -/
structure Serves (arch : Arch) (libName : Bytes) (idx : Nat) : Prop where
  valid : idx < cache.nlibs
  named : cache.getName idx = some libName
  libc6 : cache.flags idx &&& flagTypeMask = flagLibc6
  own : cache.flags idx &&& flagArchMask = flagArchCurrent arch

/-- A lookup answers with an entry for this machine, if there is one. -/
structure RespectsMachine (arch : Arch) (libName : Bytes) : Prop where
  own : ∀ path, cache.lookup arch libName = some path →
    ∃ idx, cache.Serves arch libName idx ∧ cache.getPath idx = some path
  found : ∀ idx, cache.Serves arch libName idx → (cache.getPath idx).isSome →
    cache.lookup arch libName ≠ none ∧
      ∀ other < idx, cache.flags other &&& flagArchMask ≠ flagArchCurrent arch →
        cache.lookupIndex arch libName ≠ some other

/-- An entry for another machine whose number has a bit in common with that of this one. -/
structure Misread (arch : Arch) (libName : Bytes) (idx : Nat) : Prop where
  valid : idx < cache.nlibs
  named : cache.getName idx = some libName
  libc6 : cache.flags idx &&& flagTypeMask = flagLibc6
  foreign : cache.flags idx &&& flagArchMask ≠ flagArchCurrent arch
  overlaps : cache.flags idx &&& flagArchCurrent arch ≠ 0
  path : (cache.getPath idx).isSome

variable {cache} {arch : Arch} {libName : Bytes}

/-! ## The entry that is returned -/

theorem scanRun_eq_index (name : Bytes) (remaining idx : Nat) :
    cache.scanRun arch name remaining idx =
      (cache.scanRunIndex arch name remaining idx).bind (cache.candidate arch) := by
  induction remaining generalizing idx with
  | zero => rfl
  | succ remaining ih =>
      rw [scanRun, scanRunIndex]
      by_cases same : cache.getName idx = some name
      · rw [if_pos same, if_pos same]
        cases here : cache.candidate arch idx with
        | none => exact ih (idx + 1)
        | some path => exact here.symm
      · rw [if_neg same, if_neg same]
        rfl

theorem lookup_eq_index (arch : Arch) (libName : Bytes) :
    cache.lookup arch libName =
      (cache.lookupIndex arch libName).bind (cache.candidate arch) := by
  rw [lookup, lookupIndex]
  by_cases empty : cache.nlibs = 0
  · rw [if_pos empty, if_pos empty]
    rfl
  · rw [if_neg empty, if_neg empty]
    simp only [Option.bind_eq_bind, Option.bind_assoc, scanRun_eq_index]

theorem scanRunIndex_first {name : Bytes} {remaining idx found : Nat}
    (scanned : cache.scanRunIndex arch name remaining idx = some found) :
    idx ≤ found ∧ found < idx + remaining ∧ cache.getName found = some name ∧
      (∃ path, cache.candidate arch found = some path) ∧
      ∀ earlier, idx ≤ earlier → earlier < found → cache.candidate arch earlier = none := by
  induction remaining generalizing idx with
  | zero => cases scanned
  | succ remaining ih =>
      rw [scanRunIndex] at scanned
      split at scanned
      · next same =>
          split at scanned
          · next path here =>
              cases scanned
              exact ⟨Nat.le_refl _, by omega, same, ⟨path, here⟩, by omega⟩
          · next here =>
              obtain ⟨lower, upper, named, selected, skipped⟩ := ih scanned
              refine ⟨by omega, by omega, named, selected, ?_⟩
              intro earlier above below
              by_cases start : earlier = idx
              · exact start ▸ here
              · exact skipped earlier (by omega) below
      · cases scanned

/-- In a sorted cache the entry is the first of its name that passes the checks. -/
theorem lookupIndex_first {descending : Bool} (decodes : cache.NamesDecode)
    (sorted : cache.SortedNames descending) {found : Nat}
    (looked : cache.lookupIndex arch libName = some found) :
    found < cache.nlibs ∧ cache.getName found = some libName ∧
      (∃ path, cache.candidate arch found = some path) ∧
      ∀ earlier < found, cache.getName earlier = some libName →
        cache.candidate arch earlier = none := by
  rw [lookupIndex] at looked
  split at looked
  · cases looked
  · simp only [Option.bind_eq_bind, Option.bind_eq_some_iff] at looked
    obtain ⟨firstName, _, lastName, _, mid, hit, name, named, scanned⟩ := looked
    obtain ⟨valid, same⟩ := bisect_named hit
    cases named.symm.trans same
    have startLe : cache.runStart libName mid ≤ mid := runStart_le mid
    obtain ⟨_, upper, here, selected, skipped⟩ := scanRunIndex_first scanned
    refine ⟨by omega, here, selected, ?_⟩
    intro earlier before earlierNamed
    exact skipped earlier (sorted.runStart_le_named decodes valid named earlierNamed) before

/-- An entry that passes the checks is enough for an answer. -/
theorem exists_lookupIndex {descending : Bool} (decodes : cache.NamesDecode)
    (sorted : cache.SortedNames descending) {idx : Nat} (valid : idx < cache.nlibs)
    (named : cache.getName idx = some libName) {path : Bytes}
    (selected : cache.candidate arch idx = some path) :
    ∃ found, cache.lookupIndex arch libName = some found := by
  have scanned : cache.scanEntry arch libName idx = some path := by
    rw [scanEntry, if_pos named, selected]
  cases looked : cache.lookupIndex arch libName with
  | some found => exact ⟨found, rfl⟩
  | none =>
      have missing : cache.linearScan arch libName = none := by
        rw [← sorted.lookup_eq decodes, lookup_eq_index, looked]
        rfl
      rw [linearScan, List.findSome?_eq_none_iff] at missing
      cases (missing idx (List.mem_range.mpr valid)).symm.trans scanned

/-! ## The flags -/

theorem checkFlags_iff {idx : Nat} (valid : idx < cache.nlibs) (numbered : flagArchCurrent arch ≠ 0) :
    cache.checkFlags arch idx = true ↔ cache.flags idx &&& flagTypeMask = flagLibc6 ∧
      cache.flags idx &&& flagArchCurrent arch ≠ 0 := by
  have entry := entry_in_bounds valid
  unfold entrySize at entry
  have inside : ¬cache.entryOffset idx + 4 > cache.data.length := by omega
  rw [checkFlags, if_neg inside]
  change (if cache.flags idx &&& flagTypeMask ≠ flagLibc6 then false
    else if flagArchCurrent arch ≠ 0 ∧ cache.flags idx &&& flagArchCurrent arch = 0 then false
    else true) = true ↔ _
  by_cases libc6 : cache.flags idx &&& flagTypeMask = flagLibc6
  · simp [libc6, numbered]
  · simp [libc6]

/-- The number of an architecture has bits in common with itself. -/
theorem overlaps_of_own {flags : Nat} (numbered : flagArchCurrent arch ≠ 0)
    (own : flags &&& flagArchMask = flagArchCurrent arch) : flags &&& flagArchCurrent arch ≠ 0 := by
  have masked : flagArchMask &&& flagArchCurrent arch = flagArchCurrent arch := by
    cases arch <;> rfl
  rw [← masked, ← Nat.land_assoc, own, Nat.and_self]
  exact numbered

theorem candidate_eq_some_iff {idx : Nat} {path : Bytes} (valid : idx < cache.nlibs)
    (numbered : flagArchCurrent arch ≠ 0) :
    cache.candidate arch idx = some path ↔ (cache.flags idx &&& flagTypeMask = flagLibc6 ∧
      cache.flags idx &&& flagArchCurrent arch ≠ 0) ∧ cache.getPath idx = some path := by
  rw [candidate, Option.ite_none_right_eq_some, checkFlags_iff valid numbered]

/-- What passes the checks is an entry for this machine or one that is misread. -/
theorem serves_or_misread {idx : Nat} {path : Bytes} (valid : idx < cache.nlibs)
    (named : cache.getName idx = some libName) (numbered : flagArchCurrent arch ≠ 0)
    (selected : cache.candidate arch idx = some path) :
    cache.Serves arch libName idx ∨ cache.Misread arch libName idx := by
  obtain ⟨⟨libc6, overlaps⟩, present⟩ := (candidate_eq_some_iff valid numbered).mp selected
  by_cases own : cache.flags idx &&& flagArchMask = flagArchCurrent arch
  · exact .inl ⟨valid, named, libc6, own⟩
  · exact .inr ⟨valid, named, libc6, own, overlaps, present ▸ rfl⟩

theorem Serves.candidate_eq {idx : Nat} {path : Bytes} (serves : cache.Serves arch libName idx)
    (numbered : flagArchCurrent arch ≠ 0) (present : cache.getPath idx = some path) :
    cache.candidate arch idx = some path :=
  (candidate_eq_some_iff serves.valid numbered).mpr
    ⟨⟨serves.libc6, overlaps_of_own numbered serves.own⟩, present⟩

theorem Misread.candidate_eq {idx : Nat} (misread : cache.Misread arch libName idx)
    (numbered : flagArchCurrent arch ≠ 0) : ∃ path, cache.candidate arch idx = some path := by
  obtain ⟨path, present⟩ := Option.isSome_iff_exists.mp misread.path
  exact ⟨path, (candidate_eq_some_iff misread.valid numbered).mpr
    ⟨⟨misread.libc6, misread.overlaps⟩, present⟩⟩

/-! ## The machine -/

section Machine

variable {descending : Bool}

/-- Every entry that is misread stands behind one for this machine. -/
def Shielded (cache : LdCache) (arch : Arch) (libName : Bytes) : Prop :=
  ∀ idx, cache.Misread arch libName idx →
    ∃ own < idx, cache.Serves arch libName own ∧ (cache.getPath own).isSome

theorem shielded_of_respects (decodes : cache.NamesDecode)
    (sorted : cache.SortedNames descending) (numbered : flagArchCurrent arch ≠ 0)
    (respects : cache.RespectsMachine arch libName) : cache.Shielded arch libName := by
  intro idx misread
  obtain ⟨path, selected⟩ := misread.candidate_eq numbered
  obtain ⟨first, looked⟩ := exists_lookupIndex decodes sorted misread.valid misread.named selected
  obtain ⟨valid, named, ⟨answer, chosen⟩, skipped⟩ := lookupIndex_first decodes sorted looked
  have before : first ≤ idx := by
    by_contra after
    cases (skipped idx (by omega) misread.named).symm.trans selected
  have returned : cache.lookup arch libName = some answer := by
    rw [lookup_eq_index, looked]
    exact chosen
  rcases serves_or_misread valid named numbered chosen with serves | other
  · have different : first ≠ idx := by
      rintro rfl
      exact misread.foreign serves.own
    have present := ((candidate_eq_some_iff valid numbered).mp chosen).2
    exact ⟨first, by omega, serves, present ▸ rfl⟩
  · -- the answer is the path of a later entry too, which the first one is listed before
    obtain ⟨own, serves, present⟩ := respects.own answer returned
    have later : first < own := by
      have reached : first ≤ own := by
        by_contra after
        cases (skipped own (by omega) serves.named).symm.trans
          (serves.candidate_eq numbered present)
      have different : first ≠ own := by
        rintro rfl
        exact other.foreign serves.own
      omega
    exact absurd looked ((respects.found own serves (present ▸ rfl)).2 first later other.foreign)

theorem respects_of_shielded (decodes : cache.NamesDecode)
    (sorted : cache.SortedNames descending) (numbered : flagArchCurrent arch ≠ 0)
    (shielded : cache.Shielded arch libName) : cache.RespectsMachine arch libName := by
  have first_serves {first : Nat} (looked : cache.lookupIndex arch libName = some first) :
      cache.Serves arch libName first := by
    obtain ⟨valid, named, ⟨answer, chosen⟩, skipped⟩ := lookupIndex_first decodes sorted looked
    rcases serves_or_misread valid named numbered chosen with serves | misread
    · exact serves
    · obtain ⟨own, before, serves, present⟩ := shielded first misread
      obtain ⟨path, present⟩ := Option.isSome_iff_exists.mp present
      cases (skipped own before serves.named).symm.trans (serves.candidate_eq numbered present)
  constructor
  · intro path returned
    rw [lookup_eq_index, Option.bind_eq_some_iff] at returned
    obtain ⟨first, looked, chosen⟩ := returned
    have serves := first_serves looked
    exact ⟨first, serves, ((candidate_eq_some_iff serves.valid numbered).mp chosen).2⟩
  · intro idx serves present
    obtain ⟨path, present⟩ := Option.isSome_iff_exists.mp present
    obtain ⟨first, looked⟩ := exists_lookupIndex decodes sorted serves.valid serves.named
      (serves.candidate_eq numbered present)
    obtain ⟨_, _, ⟨answer, chosen⟩, _⟩ := lookupIndex_first decodes sorted looked
    refine ⟨?_, ?_⟩
    · rw [lookup_eq_index, looked, Option.bind_some, chosen]
      exact nofun
    · intro other _ foreign same
      exact foreign (first_serves same).own

end Machine

/-- In a sorted cache the lookup respects the machine exactly if every entry of the name that
is misread stands behind one for this machine. -/
theorem lookup_respects_machine_iff (cache : LdCache) (decodes : cache.NamesDecode)
    (descending : Bool) (sorted : cache.SortedNames descending) (libName : Bytes) :
    cache.RespectsMachine .x86_64 libName ↔
      ∀ idx, cache.Misread .x86_64 libName idx →
        ∃ own < idx, cache.Serves .x86_64 libName own ∧ (cache.getPath own).isSome :=
  ⟨shielded_of_respects decodes sorted (by decide), respects_of_shielded decodes sorted (by decide)⟩

/-- The C library of this machine, and the one of another (`0x0a00`) with a bit in common. -/
def ownEntry : CacheEntry := ⟨0x0303, ascii "libc.so.6", ascii "/lib/x86_64-linux-gnu/libc.so.6"⟩

def aarch64Entry : CacheEntry :=
  ⟨0x0a03, ascii "libc.so.6", ascii "/lib/aarch64-linux-gnu/libc.so.6"⟩

def ownFirstCache : LdCache where
  data := encodeImage [ownEntry, aarch64Entry]
  headerOffset := 0
  nlibs := 2
  stringTableOffset := 96
  layout := rfl
  bounded := by decide +kernel

theorem lookup_respects_machine_own :
    ownFirstCache.RespectsMachine .x86_64 (ascii "libc.so.6") := by
  apply (lookup_respects_machine_iff ownFirstCache (by decide +kernel) false (by decide +kernel)
    (ascii "libc.so.6")).mpr
  intro idx misread
  have second : idx = 1 := by
    have inside : idx < 2 := misread.valid
    have other : idx ≠ 0 := by
      rintro rfl
      exact misread.foreign (by decide +kernel)
    omega
  refine ⟨0, by omega, ⟨by decide, ?_, ?_, ?_⟩, ?_⟩
  · decide +kernel
  · decide +kernel
  · decide +kernel
  · decide +kernel

def foreignFirstCache : LdCache where
  data := encodeImage [aarch64Entry, ownEntry]
  headerOffset := 0
  nlibs := 2
  stringTableOffset := 96
  layout := rfl
  bounded := by decide +kernel

/-- The library of the other machine is returned. -/
theorem foreign_library_returned :
    LdCache.new (.ok (encodeImage [aarch64Entry, ownEntry])) = .ok foreignFirstCache ∧
      foreignFirstCache.NamesDecode ∧ foreignFirstCache.SortedNames false ∧
      foreignFirstCache.lookup .x86_64 (ascii "libc.so.6") = some aarch64Entry.path ∧
      ¬foreignFirstCache.RespectsMachine .x86_64 (ascii "libc.so.6") := by
  have returned : foreignFirstCache.lookup .x86_64 (ascii "libc.so.6") =
      some aarch64Entry.path := by
    decide +kernel
  refine ⟨by decide +kernel, by decide +kernel, by decide +kernel, returned, ?_⟩
  intro respects
  obtain ⟨idx, serves, present⟩ := respects.own _ returned
  have inside : idx < 2 := serves.valid
  by_cases first : idx = 0
  · rw [first] at serves
    exact absurd serves.own (by decide +kernel)
  · obtain rfl : idx = 1 := by omega
    exact absurd present (by decide +kernel)

end DynLinker.Cache.LdCache
