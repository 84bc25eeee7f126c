import DynLinker.Cache.CheckedLookup
import DynLinker.Cache.LdCacheProperties

/-! Caches that nobody vouches for: whatever the file holds, every index is in range, no sum
overflows and every loop ends, and the names and paths are parts of the file. -/

set_option autoImplicit false

namespace DynLinker.Cache

open Lib

/-- The fields of a cache, without what is known about them. -/
def LdCache.raw (cache : LdCache) : RawCache :=
  ⟨cache.data, cache.headerOffset, cache.nlibs, cache.stringTableOffset⟩

section Fields

variable (cache : LdCache)

theorem LdCache.raw_data : cache.raw.data = cache.data := rfl

theorem LdCache.raw_headerOffset : cache.raw.headerOffset = cache.headerOffset := rfl

theorem LdCache.raw_nlibs : cache.raw.nlibs = cache.nlibs := rfl

theorem LdCache.raw_stringTableOffset : cache.raw.stringTableOffset = cache.stringTableOffset := rfl

theorem LdCache.headerOffset_le : cache.headerOffset ≤ cache.data.length := by
  have layout := cache.layout
  have bounded := cache.bounded
  omega

end Fields

theorem extractStrChecked_eq (table : Bytes) (offset : Nat) :
    extractStrChecked table offset = .ok (extractStr table offset) := by
  rw [extractStrChecked, extractStr]
  by_cases past : offset ≥ table.length
  · rw [if_pos past, if_pos past]
  · have short : (table.drop offset).findIdx (fun byte => decide (byte = 0)) ≤
        (table.drop offset).length := List.findIdx_le_length
    have until_ : (table.drop offset).take
        ((table.drop offset).findIdx fun byte => decide (byte = 0)) =
          untilNul (table.drop offset) := by
      rw [untilNul, List.takeWhile_eq_take_findIdx_not]
      simp
    rw [if_neg past, if_neg past, sliceFrom_of_le (Nat.le_of_not_le past), ok_bind]
    dsimp only
    rw [sliceBetween_of_le (Nat.zero_le _) short, ok_bind, List.drop_zero, Nat.sub_zero, until_]
    rfl

/-- What is read as a string is UTF-8 and a part of what it is read from. -/
theorem extractStr_from {table text : Bytes} {offset : Nat}
    (found : extractStr table offset = some text) : utf8Valid text ∧ text <:+: table := by
  rw [extractStr] at found
  split at found
  · cases found
  · rw [fromUtf8, Option.ite_none_right_eq_some] at found
    obtain ⟨valid, same⟩ := found
    cases same
    refine ⟨valid, ?_⟩
    exact (List.takeWhile_prefix _).isInfix.trans (List.drop_suffix offset table).isInfix

namespace LdCache

variable {cache : LdCache} {arch : Arch} (checks : Bool)

section Reads

variable {idx : Nat}

theorem raw_entryOffset (sized : cache.data.length < 2 ^ 63) (valid : idx < cache.nlibs) :
    cache.raw.entryOffset checks idx = .ok (cache.entryOffset idx) := by
  have inside := entry_in_bounds valid
  unfold entryOffset entrySize at inside
  change (usizeAdd checks cache.headerOffset headerSize >>= fun entries =>
    usizeMul checks idx entrySize >>= fun skipped => usizeAdd checks entries skipped) = _
  unfold entrySize
  rw [usizeAdd_of_lt checks (by omega), ok_bind, usizeMul_of_lt checks (by omega), ok_bind,
    usizeAdd_of_lt checks (by omega)]
  rfl

theorem raw_getName (sized : cache.data.length < 2 ^ 63) (valid : idx < cache.nlibs) :
    cache.raw.getName checks idx = .ok (cache.getName idx) := by
  have entry := entry_in_bounds valid
  have table := cache.bounded
  have header := cache.headerOffset_le
  unfold entrySize at entry
  have inside : ¬cache.entryOffset idx + 8 > cache.data.length := by omega
  simp (disch := omega) only [RawCache.getName, getName, raw_entryOffset checks sized valid,
    raw_data, raw_headerOffset, raw_stringTableOffset, ok_bind, usizeAdd_of_lt, inside, ↓reduceIte,
    u32_of_sliceBetween, sliceFrom_of_le, extractStrChecked_eq]
  generalize extractStr (cache.data.drop cache.headerOffset) _ = own
  cases own with
  | none => rfl
  | some text =>
      rw [Option.filter_some]
      dsimp only
      by_cases kept : (!text.isEmpty && !startsWithSlash text) = true
      · rw [if_pos kept, if_pos kept]
        rfl
      · rw [if_neg kept, if_neg kept]

theorem raw_getPath (sized : cache.data.length < 2 ^ 63) (valid : idx < cache.nlibs) :
    cache.raw.getPath checks idx = .ok (cache.getPath idx) := by
  have entry := entry_in_bounds valid
  have table := cache.bounded
  have header := cache.headerOffset_le
  unfold entrySize at entry
  have inside : ¬cache.entryOffset idx + 12 > cache.data.length := by omega
  simp (disch := omega) only [RawCache.getPath, getPath, raw_entryOffset checks sized valid,
    raw_data, raw_headerOffset, raw_stringTableOffset, ok_bind, usizeAdd_of_lt, inside, ↓reduceIte,
    u32_of_sliceBetween, sliceFrom_of_le, extractStrChecked_eq]
  generalize extractStr (cache.data.drop cache.headerOffset) _ = own
  cases own with
  | none => rfl
  | some text =>
      rw [Option.filter_some]
      dsimp only
      by_cases kept : startsWithSlash text = true
      · rw [if_pos kept, if_pos kept]
        rfl
      · rw [if_neg kept, if_neg kept]

theorem raw_checkFlags (sized : cache.data.length < 2 ^ 63) (valid : idx < cache.nlibs) :
    cache.raw.checkFlags checks arch idx = .ok (cache.checkFlags arch idx) := by
  have entry := entry_in_bounds valid
  unfold entrySize at entry
  have inside : ¬cache.entryOffset idx + 4 > cache.data.length := by omega
  simp (disch := omega) only [RawCache.checkFlags, checkFlags, raw_entryOffset checks sized valid,
    raw_data, ok_bind, usizeAdd_of_lt, inside, ↓reduceIte, u32_of_sliceBetween]
  split
  · rfl
  · split
    · rfl
    · rfl

/-- What the forward loop takes from an entry of the run. -/
theorem raw_candidate (sized : cache.data.length < 2 ^ 63) (valid : idx < cache.nlibs) :
    (cache.raw.checkFlags checks arch idx >>= fun matching =>
      if matching then cache.raw.getPath checks idx else .ok none) =
        .ok (cache.candidate arch idx) := by
  rw [raw_checkFlags checks sized valid, ok_bind, raw_getPath checks sized valid, candidate]
  split
  · rfl
  · rfl

end Reads

/-! ## The loops -/

theorem backLoop_eq (sized : cache.data.length < 2 ^ 63) (name : Bytes) {mid : Nat}
    (valid : mid ≤ cache.nlibs) :
    cache.raw.backLoop checks name mid = .ok (cache.runStart name mid) := by
  induction mid with
  | zero => rfl
  | succ start ih =>
      rw [RawCache.backLoop, raw_getName checks sized valid, ok_bind, runStart]
      by_cases same : cache.getName start = some name
      · rw [if_pos same, if_pos same, ih (Nat.le_of_succ_le valid)]
      · rw [if_neg same, if_neg same]
        rfl

/-- The forward loop enters each entry once. -/
theorem forwardLoop_eq (sized : cache.data.length < 2 ^ 63) (name : Bytes) {rounds i : Nat}
    (valid : i ≤ cache.nlibs) (enough : cache.nlibs - i < rounds) :
    cache.raw.forwardLoop checks arch name rounds i =
      .ok (cache.scanRun arch name (cache.nlibs - i) i) := by
  induction rounds generalizing i with
  | zero => omega
  | succ rounds ih =>
      rw [RawCache.forwardLoop, raw_nlibs]
      by_cases inside : i < cache.nlibs
      · have table := cache.bounded
        have layout := cache.layout
        unfold entrySize at layout
        obtain ⟨remaining, left⟩ : ∃ remaining, cache.nlibs - i = remaining + 1 :=
          ⟨cache.nlibs - i - 1, by omega⟩
        have rest : remaining = cache.nlibs - (i + 1) := by omega
        rw [if_pos inside, raw_getName checks sized inside, ok_bind, left, scanRun]
        by_cases same : cache.getName i = some name
        · rw [if_pos same, if_pos same]
          have taken := @raw_candidate cache arch checks i sized inside
          rw [← bind_assoc, taken, ok_bind]
          cases cache.candidate arch i with
          | some path => rfl
          | none =>
              dsimp only
              rw [usizeAdd_of_lt checks (by omega), ok_bind, rest]
              exact ih inside (by omega)
        · rw [if_neg same, if_neg same]
          rfl
      · rw [if_neg inside, Nat.sub_eq_zero_of_le (Nat.le_of_not_lt inside)]
        rfl

/-- What the two scans give from a hit. -/
def runFrom (cache : LdCache) (arch : Arch) (name : Bytes) (mid : Nat) : Option Bytes :=
  cache.scanRun arch name (cache.nlibs - cache.runStart name mid) (cache.runStart name mid)

theorem scanFrom_eq (sized : cache.data.length < 2 ^ 63) (name : Bytes) {rounds mid : Nat}
    (valid : mid ≤ cache.nlibs) (enough : cache.nlibs < rounds) :
    cache.raw.scanFrom checks arch name rounds mid = .ok (cache.runFrom arch name mid) := by
  have started : cache.runStart name mid ≤ mid := runStart_le mid
  rw [RawCache.scanFrom, backLoop_eq checks sized name valid, ok_bind,
    forwardLoop_eq checks sized name (by omega) (by omega), runFrom]

/-- The search loop is entered once more than it halves. -/
theorem searchLoop_eq (sized : cache.data.length < 2 ^ 63) (descending : Bool) (libName : Bytes)
    {scanRounds fuel rounds left right : Nat} (scans : cache.nlibs < scanRounds)
    (enough : right - left ≤ fuel) (more : fuel < rounds) (valid : right ≤ cache.nlibs) :
    cache.raw.searchLoop checks arch descending libName scanRounds rounds left right =
      .ok ((bisect (cache.probe descending libName) fuel left right).bind fun mid =>
        (cache.getName mid).bind fun name => cache.runFrom arch name mid) := by
  have table := cache.bounded
  have layout := cache.layout
  unfold entrySize at layout
  induction fuel generalizing rounds left right with
  | zero =>
      obtain ⟨rounds, rfl⟩ := Nat.exists_eq_succ_of_ne_zero (Nat.ne_zero_of_lt more)
      rw [RawCache.searchLoop, if_neg (by omega)]
      rfl
  | succ fuel ih =>
      obtain ⟨rounds, rfl⟩ := Nat.exists_eq_succ_of_ne_zero (Nat.ne_zero_of_lt more)
      rw [RawCache.searchLoop, bisect]
      by_cases nonempty : left < right
      · have lower := le_midpoint left right
        have upper := midpoint_lt nonempty
        have halved : left + (right - left) / 2 = midpoint left right := rfl
        rw [if_pos nonempty, if_pos nonempty, usizeSub_of_le checks (by omega) (by omega), ok_bind,
          usizeAdd_of_lt checks (by omega), ok_bind, halved, raw_getName checks sized (by omega),
          ok_bind, probe]
        cases named : cache.getName (midpoint left right) with
        | none => rfl
        | some name =>
            rw [Option.map_some]
            dsimp only
            cases (if descending then byteCompare name libName else byteCompare libName name) with
            | eq =>
                rw [Option.bind_some, named]
                exact scanFrom_eq checks sized name (by omega) scans
            | lt => exact ih (by omega) (by omega) (by omega)
            | gt =>
                dsimp only
                rw [usizeAdd_of_lt checks (by omega), ok_bind]
                exact ih (by omega) (by omega) valid
      · rw [if_neg nonempty, if_neg nonempty]
        rfl

/-- The lookup with every check is the lookup. -/
theorem raw_lookup (sized : cache.data.length < 2 ^ 63) (libName : Bytes) {rounds : Nat}
    (enough : cache.nlibs < rounds) :
    cache.raw.lookup checks arch libName rounds = .ok (cache.lookup arch libName) := by
  have table := cache.bounded
  have layout := cache.layout
  unfold entrySize at layout
  rw [RawCache.lookup, raw_nlibs, lookup]
  by_cases empty : cache.nlibs = 0
  · rw [if_pos empty, if_pos empty]
  rw [if_neg empty, if_neg empty, raw_getName checks sized (by omega), ok_bind]
  cases cache.getName 0 with
  | none => rfl
  | some firstName =>
      dsimp only
      rw [usizeSub_of_le checks (by omega) (by omega), ok_bind, raw_getName checks sized (by omega),
        ok_bind]
      cases cache.getName (cache.nlibs - 1) with
      | none => rfl
      | some lastName =>
          exact searchLoop_eq checks sized _ libName enough (Nat.sub_le _ _) enough
            (Nat.le_refl _)

end LdCache

theorem magicPosition_le {buffer : Bytes} {start : Nat} (found : magicPosition buffer = some start) :
    start ≤ buffer.length := by
  induction buffer generalizing start with
  | nil => cases found
  | cons byte rest ih =>
      rw [magicPosition] at found
      split at found
      · cases found
        exact Nat.zero_le _
      · obtain ⟨position, later, rfl⟩ := Option.map_eq_some_iff.mp found
        exact Nat.succ_le_succ (ih later)

/-- The names that the constructor logs can be read. -/
theorem LdCache.raw_logs (checks : Bool) {cache : LdCache} (sized : cache.data.length < 2 ^ 63)
    (nonempty : 0 < cache.nlibs) {Result : Type} (rest : Except Halt Result) :
    (cache.raw.getName checks 0 >>= fun _ => usizeSub checks cache.nlibs 1 >>= fun last =>
      cache.raw.getName checks last >>= fun _ => rest) = rest := by
  have table := cache.bounded
  have layout := cache.layout
  unfold entrySize at layout
  rw [raw_getName checks sized nonempty, ok_bind, usizeSub_of_le checks nonempty (by omega),
    ok_bind, raw_getName checks sized (Nat.sub_lt nonempty Nat.one_pos), ok_bind]

/-- The constructor with every check is the constructor. -/
theorem RawCache.new_eq (checks : Bool) {file : Bytes} (sized : file.length < 2 ^ 63) :
    RawCache.new checks (.ok file) = .ok ((LdCache.new (.ok file)).map LdCache.raw) := by
  rw [LdCache.new, ok_bind, RawCache.new]
  dsimp only
  cases located : magicPosition file with
  | none => rfl
  | some start =>
      have before := magicPosition_le located
      dsimp only
      rw [sliceFrom_of_le before, ok_bind]
      by_cases short : (file.drop start).length < headerSize
      · rw [if_pos short, if_pos short]
        rfl
      rw [if_neg short, if_neg short]
      rw [List.length_drop] at short
      unfold headerSize at short
      have header : 24 ≤ (file.drop start).length := by
        rw [List.length_drop]
        omega
      have few := readU32_lt (file.drop start) 20
      rw [u32_of_sliceBetween rfl header, ok_bind]
      have product : readU32 (file.drop start) 20 * entrySize < 2 ^ 38 := by
        unfold entrySize
        omega
      have sum : start + headerSize < 2 ^ 63 + 48 := by
        unfold headerSize
        omega
      rw [usizeAdd_of_lt checks (by omega), ok_bind, usizeMul_of_lt checks (by omega), ok_bind,
        usizeAdd_of_lt checks (by omega), ok_bind]
      by_cases exceeds :
          start + headerSize + readU32 (file.drop start) 20 * entrySize > file.length
      · rw [if_pos exceeds, dif_pos exceeds]
        rfl
      rw [if_neg exceeds, dif_neg exceeds]
      let cache : LdCache := ⟨file, start, _, _, rfl, Nat.le_of_not_lt exceeds⟩
      by_cases nonempty : readU32 (file.drop start) 20 > 0
      · rw [if_pos nonempty]
        exact @LdCache.raw_logs checks cache sized nonempty (Except Error RawCache) (.ok (.ok cache.raw))
      · rw [if_neg nonempty]
        rfl

namespace LdCache

theorem data_of_new {file : Bytes} {cache : LdCache} (accepted : LdCache.new (.ok file) = .ok cache) :
    cache.data = file := by
  rw [LdCache.new, ok_bind] at accepted
  split at accepted
  · cases accepted
  · split at accepted
    · cases accepted
    · dsimp only at accepted
      split at accepted
      · cases accepted
      · cases accepted
        rfl

variable {cache : LdCache} {arch : Arch}

theorem string_from {start offset : Nat} {text : Bytes}
    (found : extractStr (cache.data.drop start) offset = some text) :
    utf8Valid text ∧ text <:+: cache.data := by
  obtain ⟨valid, inside⟩ := extractStr_from found
  exact ⟨valid, inside.trans (List.drop_suffix start cache.data).isInfix⟩

/-- A name is read from the header or from the string table. -/
theorem getName_from {idx : Nat} {name : Bytes} (named : cache.getName idx = some name) :
    utf8Valid name ∧ name <:+: cache.data := by
  rw [getName] at named
  split at named
  · cases named
  · dsimp only at named
    split at named
    · next text found =>
        split at named
        · cases named
          exact string_from found
        · exact string_from named
    · exact string_from named

theorem getPath_from {idx : Nat} {path : Bytes} (present : cache.getPath idx = some path) :
    utf8Valid path ∧ path <:+: cache.data := by
  rw [getPath] at present
  split at present
  · cases present
  · dsimp only at present
    split at present
    · next text found =>
        split at present
        · cases present
          exact string_from found
        · exact string_from present
    · exact string_from present

theorem lookup_from {libName path : Bytes} (found : cache.lookup arch libName = some path) :
    utf8Valid path ∧ path <:+: cache.data := by
  rw [lookup] at found
  split at found
  · cases found
  · simp only [Option.bind_eq_bind, Option.bind_eq_some_iff] at found
    obtain ⟨_, _, _, _, mid, _, name, _, scanned⟩ := found
    obtain ⟨idx, _, _, _, selected, _⟩ := scanRun_eq_some_iff.mp scanned
    rw [candidate, Option.ite_none_right_eq_some] at selected
    exact getPath_from selected.2

end LdCache

/-- A corrupt cache cannot crash the loader. The length of the file is that of a slice. -/
theorem corrupt_cache_safe (checks : Bool) (arch : Arch) (file libName : Bytes)
    (sized : file.length < 2 ^ 63) :
    ∃ result, RawCache.new checks (.ok file) = .ok result ∧ ∀ cache : RawCache, result = .ok cache →
      (∀ idx < cache.nlibs, ∃ name, cache.getName checks idx = .ok name ∧
        ∀ text ∈ name, utf8Valid text ∧ text <:+: file) ∧
      ∀ rounds > cache.nlibs, ∃ found, cache.lookup checks arch libName rounds = .ok found ∧
        ∀ path ∈ found, utf8Valid path ∧ path <:+: file := by
  refine ⟨_, RawCache.new_eq checks sized, ?_⟩
  intro raw accepted
  cases parsed : LdCache.new (.ok file) with
  | error error =>
      rw [parsed] at accepted
      cases accepted
  | ok cache =>
      rw [parsed] at accepted
      cases accepted
      have data := LdCache.data_of_new parsed
      rw [← data] at sized ⊢
      refine ⟨?_, ?_⟩
      · intro idx valid
        exact ⟨_, LdCache.raw_getName checks sized valid, fun _ => LdCache.getName_from⟩
      · intro rounds enough
        exact ⟨_, LdCache.raw_lookup checks sized libName enough, fun _ => LdCache.lookup_from⟩

/-- Two entries of nothing but ones: no string starts there. -/
def garbage : Bytes := magicNew ++ littleEndian 4 2 ++ List.replicate 72 0xff

theorem corrupt_cache_safe_garbage :
    ∃ cache, RawCache.new true (.ok garbage) = .ok (.ok cache) ∧
      ∃ found, cache.lookup true .x86_64 (ascii "libc.so.6") 3 = .ok found ∧
        ∀ path ∈ found, utf8Valid path ∧ path <:+: garbage := by
  obtain ⟨result, parsed, safe⟩ :=
    corrupt_cache_safe true .x86_64 garbage (ascii "libc.so.6") (by decide +kernel)
  have evaluated : RawCache.new true (.ok garbage) = .ok (.ok ⟨garbage, 0, 2, 96⟩) := by
    decide +kernel
  cases parsed.symm.trans evaluated
  exact ⟨_, evaluated, (safe _ rfl).2 3 (by decide)⟩

end DynLinker.Cache
