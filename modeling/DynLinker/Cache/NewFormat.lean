import DynLinker.Cache.LdCacheProperties
import Mathlib.Data.List.Forall2
import Mathlib.Data.Nat.Bitwise

/-! New-format cache files, however their strings are laid out: strings may be shared and
may lie in any order, and an old-format cache may come first. Reading such a file gives
back the entries that were written. -/

set_option autoImplicit false

namespace DynLinker.Cache

open Lib

/-- An entry that the format can hold and that the reader can tell from a path. -/
structure CacheEntry.WellFormed (entry : CacheEntry) : Prop where
  flags : entry.flags < 2 ^ 32
  nameValid : utf8Valid entry.name
  nameNoNul : 0 ∉ entry.name
  nameNonempty : entry.name ≠ []
  nameRelative : startsWithSlash entry.name = false
  pathValid : utf8Valid entry.path
  pathNoNul : 0 ∉ entry.path
  pathAbsolute : startsWithSlash entry.path

/-- One entry in the file. The offsets are relative to the header; `extra` is the OS
version and the hardware capabilities. -/
structure CacheRecord where
  flags : Nat
  key : Nat
  value : Nat
  extra : Bytes

def CacheRecord.encode (record : CacheRecord) : Bytes :=
  littleEndian 4 record.flags ++ (littleEndian 4 record.key ++
    (littleEndian 4 record.value ++ record.extra))

/-- The parts of a file: what the header holds after the count, the records, and the
strings. -/
structure CacheLayout where
  reserved : Bytes
  records : List CacheRecord
  strings : Bytes

def CacheLayout.bytes (layout : CacheLayout) : Bytes :=
  magicNew ++ (littleEndian 4 layout.records.length ++
    (layout.reserved ++ (layout.records.flatMap CacheRecord.encode ++ layout.strings)))

/-- A C string stands at an offset. -/
def StringAt (bytes : Bytes) (offset : Nat) (text : Bytes) : Prop :=
  text ++ [0] <+: bytes.drop offset

/-- A record stands for an entry: its offsets fit and lead to the two strings. -/
structure CacheRecord.StandsFor (bytes : Bytes) (entry : CacheEntry) (record : CacheRecord) :
    Prop where
  flags : record.flags = entry.flags
  key : record.key < 2 ^ 32
  value : record.value < 2 ^ 32
  extra : record.extra.length = 12
  name : StringAt bytes record.key entry.name
  path : StringAt bytes record.value entry.path

/-- The layout is a new-format file of the entries. -/
structure CacheLayout.Holds (layout : CacheLayout) (entries : List CacheEntry) : Prop where
  count : layout.records.length < 2 ^ 32
  reserved : layout.reserved.length = 24
  wellFormed : ∀ entry ∈ entries, entry.WellFormed
  records : List.Forall₂ (CacheRecord.StandsFor layout.bytes) entries layout.records

/-- The flags that the reader accepts. -/
def acceptsFlags (arch : Arch) (flags : Nat) : Bool :=
  decide (flags &&& flagTypeMask = flagLibc6 ∧
    (flagArchCurrent arch = 0 ∨ flags &&& flagArchCurrent arch ≠ 0))

/-! ## Finding the header -/

/-- The magic has its first byte nowhere else, so no other occurrence overlaps one. -/
theorem magicNew_unbordered {before rest : Bytes} (nonempty : before ≠ [])
    (split : magicNew = before ++ rest) (again : rest <+: magicNew) : rest = [] := by
  cases rest with
  | nil => rfl
  | cons first rest =>
      have start : first = 0x67 := by
        obtain ⟨_, joined⟩ := again
        have heads := congrArg List.head? joined
        exact Option.some.inj heads
      cases before with
      | nil => exact absurd rfl nonempty
      | cons head tail =>
          have inside : (0x67 : UInt8) ∈ magicNew.tail := by
            rw [split, start]
            simp
          exact absurd inside (by decide)

theorem magicPosition_append {earlier file : Bytes} (clean : ¬ magicNew <:+: earlier)
    (starts : magicNew <+: file) : magicPosition (earlier ++ file) = some earlier.length := by
  induction earlier with
  | nil =>
      cases file with
      | nil => exact absurd (List.prefix_nil.mp starts) (by decide)
      | cons first rest =>
          have found : magicNew.isPrefixOf (first :: rest) = true :=
            List.isPrefixOf_iff_prefix.mpr starts
          simp [magicPosition, found]
  | cons first rest ih =>
      have absent : ¬ magicNew <+: first :: (rest ++ file) := by
        intro occurs
        rcases List.prefix_or_prefix_of_prefix occurs (List.prefix_append (first :: rest) file) with
          inside | across
        · exact clean inside.isInfix
        · -- the occurrence runs into the file's own magic
          obtain ⟨covered, split⟩ := across
          have tail : covered <+: file := by
            obtain ⟨more, joined⟩ := occurs
            refine ⟨more, ?_⟩
            rw [← split] at joined
            simpa using joined
          have shorter : covered.length ≤ magicNew.length := by
            rw [← split, List.length_append]
            omega
          have again : covered <+: magicNew := List.prefix_of_prefix_length_le tail starts shorter
          have nothing := magicNew_unbordered (by simp) split.symm again
          have whole : magicNew = first :: rest := by rw [← split, nothing, List.append_nil]
          exact clean (whole ▸ List.infix_rfl)
      have missed : magicNew.isPrefixOf (first :: (rest ++ file)) = false := by
        rw [Bool.eq_false_iff]
        intro found
        exact absent (List.isPrefixOf_iff_prefix.mp found)
      have later := ih fun inside => clean (List.infix_cons inside)
      simp [magicPosition, missed, later]

/-! ## Words and strings -/

theorem readU32_eq {bytes before after : Bytes} {offset value : Nat}
    (split : bytes = before ++ (littleEndian 4 value ++ after)) (length : before.length = offset)
    (fits : value < 2 ^ 32) : readU32 bytes offset = value := by
  have word : (littleEndian 4 value ++ after).take 4 = littleEndian 4 value := by
    rw [List.take_append_of_le_length (by rw [littleEndian_length])]
    exact List.take_of_length_le (by rw [littleEndian_length])
  rw [readU32, split, ← length, List.drop_left, word, littleEndian_value]
  exact Nat.mod_eq_of_lt fits

theorem extractStr_of_stringAt {bytes text : Bytes} {offset : Nat}
    (placed : StringAt bytes offset text) (valid : utf8Valid text) (noNul : 0 ∉ text) :
    extractStr bytes offset = some text := by
  obtain ⟨rest, split⟩ := placed
  have inside : offset < bytes.length := by
    by_contra outside
    rw [List.drop_of_length_le (by omega)] at split
    simp at split
  have read : untilNul (bytes.drop offset) = text := by
    rw [← split, List.append_assoc, untilNul, List.takeWhile_append_of_pos]
    · simp
    · intro byte member
      simp only [decide_not, Bool.not_eq_eq_eq_not, Bool.not_true, decide_eq_false_iff_not]
      intro zero
      exact noNul (zero ▸ member)
  rw [extractStr, if_neg (by omega), read, fromUtf8, if_pos valid]

/-! ## Records -/

theorem CacheRecord.encode_length {record : CacheRecord} (extra : record.extra.length = 12) :
    record.encode.length = entrySize := by
  simp [encode, littleEndian_length, extra, entrySize]

/-- A record and what lies before it. -/
theorem records_split {bytes : Bytes} {entries : List CacheEntry} {records : List CacheRecord}
    (stand : List.Forall₂ (CacheRecord.StandsFor bytes) entries records) {idx : Nat}
    {entry : CacheEntry} (present : entries[idx]? = some entry) :
    ∃ (record : CacheRecord) (before after : Bytes), CacheRecord.StandsFor bytes entry record ∧
      records.flatMap CacheRecord.encode = before ++ (record.encode ++ after) ∧
      before.length = idx * entrySize := by
  induction stand generalizing idx with
  | nil => cases present
  | @cons head record entries records stands rest ih =>
      cases idx with
      | zero =>
          cases present
          exact ⟨record, [], records.flatMap CacheRecord.encode, stands, rfl, by simp⟩
      | succ idx =>
          obtain ⟨found, before, after, standing, split, length⟩ := ih present
          refine ⟨found, record.encode ++ before, after, standing, ?_, ?_⟩
          · rw [List.flatMap_cons, split, List.append_assoc]
          · rw [List.length_append, length, CacheRecord.encode_length stands.extra]
            unfold entrySize
            omega

theorem records_length {bytes : Bytes} {entries : List CacheEntry} {records : List CacheRecord}
    (stand : List.Forall₂ (CacheRecord.StandsFor bytes) entries records) :
    (records.flatMap CacheRecord.encode).length = records.length * entrySize := by
  induction stand with
  | nil => rfl
  | cons stands rest ih =>
      rw [List.flatMap_cons, List.length_append, ih, CacheRecord.encode_length stands.extra,
        List.length_cons]
      unfold entrySize
      omega

/-- The file behind `earlier`, cut in front of one record. -/
theorem CacheLayout.Holds.split {layout : CacheLayout} {entries : List CacheEntry}
    (holds : layout.Holds entries) (earlier : Bytes) {idx : Nat} {entry : CacheEntry}
    (present : entries[idx]? = some entry) :
    ∃ (record : CacheRecord) (before after : Bytes),
      CacheRecord.StandsFor layout.bytes entry record ∧
      earlier ++ layout.bytes = before ++ (record.encode ++ after) ∧
      before.length = earlier.length + headerSize + idx * entrySize := by
  obtain ⟨record, before, after, stands, split, length⟩ := records_split holds.records present
  refine ⟨record, earlier ++ (magicNew ++ (littleEndian 4 layout.records.length ++
    (layout.reserved ++ before))), after ++ layout.strings, stands, ?_, ?_⟩
  · simp only [bytes, split, List.append_assoc]
  · have magic : magicNew.length = 20 := rfl
    simp only [List.length_append, littleEndian_length, holds.reserved, length, magic, headerSize]
    omega

namespace LdCache

/-- The reader of a layout, wherever in the file it starts. -/
theorem new_layout {layout : CacheLayout} {entries : List CacheEntry}
    (holds : layout.Holds entries) {earlier : Bytes} (clean : ¬ magicNew <:+: earlier) :
    ∃ cache, LdCache.new (.ok (earlier ++ layout.bytes)) = .ok cache ∧
      cache.data = earlier ++ layout.bytes ∧ cache.headerOffset = earlier.length ∧
      cache.nlibs = entries.length := by
  have magic : magicNew.length = 20 := rfl
  have found : magicPosition (earlier ++ layout.bytes) = some earlier.length :=
    magicPosition_append clean (List.prefix_append _ _)
  have count : readU32 layout.bytes 20 = layout.records.length := by
    exact readU32_eq rfl magic holds.count
  have size : layout.bytes.length =
      headerSize + layout.records.length * entrySize + layout.strings.length := by
    simp only [CacheLayout.bytes, List.length_append, littleEndian_length, holds.reserved,
      records_length holds.records, magic, headerSize]
    omega
  have fits : ¬ earlier.length + headerSize + layout.records.length * entrySize >
      (earlier ++ layout.bytes).length := by
    rw [List.length_append, size]
    omega
  refine ⟨⟨earlier ++ layout.bytes, earlier.length, layout.records.length,
    earlier.length + headerSize + layout.records.length * entrySize, rfl, Nat.le_of_not_lt fits⟩,
    ?_, rfl, rfl, (List.Forall₂.length_eq holds.records).symm⟩
  simp only [LdCache.new, bind, Except.bind, found, List.drop_left, count]
  rw [if_neg (by rw [size]; omega), dif_neg fits]
  rfl

variable {cache : LdCache}

theorem checkFlags_eq {arch : Arch} {idx flags : Nat}
    (inside : cache.entryOffset idx + 4 ≤ cache.data.length)
    (read : readU32 cache.data (cache.entryOffset idx) = flags) :
    cache.checkFlags arch idx = acceptsFlags arch flags := by
  simp only [checkFlags, read, acceptsFlags]
  rw [if_neg (by omega)]
  by_cases type : flags &&& flagTypeMask = flagLibc6
  · rw [if_neg (not_not.mpr type)]
    by_cases foreign : flagArchCurrent arch ≠ 0 ∧ flags &&& flagArchCurrent arch = 0
    · rw [if_pos foreign, eq_comm, decide_eq_false_iff_not]
      intro accepted
      exact accepted.2.elim foreign.1 fun own => own foreign.2
    · rw [if_neg foreign, eq_comm, decide_eq_true_eq]
      exact ⟨type, by tauto⟩
  · rw [if_pos type, eq_comm, decide_eq_false_iff_not]
    exact fun accepted => type accepted.1

theorem getName_eq {idx key : Nat} {name : Bytes}
    (inside : cache.entryOffset idx + 8 ≤ cache.data.length)
    (read : readU32 cache.data (cache.entryOffset idx + 4) = key)
    (extracted : extractStr (cache.data.drop cache.headerOffset) key = some name)
    (nonempty : name ≠ []) (relative : startsWithSlash name = false) :
    cache.getName idx = some name := by
  cases name with
  | nil => exact absurd rfl nonempty
  | cons first rest =>
      simp only [getName, read, extracted, relative]
      rw [if_neg (by omega)]
      rfl

theorem getPath_eq {idx value : Nat} {path : Bytes}
    (inside : cache.entryOffset idx + 12 ≤ cache.data.length)
    (read : readU32 cache.data (cache.entryOffset idx + 8) = value)
    (extracted : extractStr (cache.data.drop cache.headerOffset) value = some path)
    (absolute : startsWithSlash path) : cache.getPath idx = some path := by
  simp only [getPath, read, extracted, absolute, if_true]
  rw [if_neg (by omega)]

/-- Reading undoes writing: for every layout of the entries and everything that may stand
before the header, the reader accepts the file and gives every entry back. -/
theorem new_gives_back (entries : List CacheEntry) (layout : CacheLayout)
    (holds : layout.Holds entries) (earlier : Bytes) (clean : ¬ magicNew <:+: earlier) :
    ∃ cache, LdCache.new (.ok (earlier ++ layout.bytes)) = .ok cache ∧
      cache.nlibs = entries.length ∧
      ∀ idx entry, entries[idx]? = some entry →
        cache.getName idx = some entry.name ∧ cache.getPath idx = some entry.path ∧
        ∀ arch, cache.checkFlags arch idx = acceptsFlags arch entry.flags := by
  obtain ⟨cache, parsed, data, header, count⟩ := new_layout holds clean
  refine ⟨cache, parsed, count, ?_⟩
  intro idx entry present
  have wellFormed := holds.wellFormed entry (List.mem_of_getElem? present)
  obtain ⟨record, before, after, stands, split, length⟩ := holds.split earlier present
  have offset : cache.entryOffset idx = before.length := by
    rw [entryOffset, header, length]
  have encoded := CacheRecord.encode_length stands.extra
  have size : cache.data.length = before.length + (24 + after.length) := by
    rw [data, split, List.length_append, List.length_append, encoded]
    rfl
  have afterHeader : cache.data.drop cache.headerOffset = layout.bytes := by
    rw [data, header, List.drop_left]
  have file : cache.data = before ++ (littleEndian 4 record.flags ++ (littleEndian 4 record.key ++
      (littleEndian 4 record.value ++ (record.extra ++ after)))) := by
    rw [data, split, CacheRecord.encode]
    simp only [List.append_assoc]
  have flags : readU32 cache.data (cache.entryOffset idx) = entry.flags := by
    rw [← stands.flags]
    exact readU32_eq file offset.symm (stands.flags ▸ wellFormed.flags)
  have key : readU32 cache.data (cache.entryOffset idx + 4) = record.key := by
    have atKey : cache.data = (before ++ littleEndian 4 record.flags) ++
        (littleEndian 4 record.key ++
          (littleEndian 4 record.value ++ (record.extra ++ after))) := by
      rw [file, List.append_assoc]
    refine readU32_eq atKey ?_ stands.key
    rw [List.length_append, littleEndian_length, offset]
  have value : readU32 cache.data (cache.entryOffset idx + 8) = record.value := by
    have atValue : cache.data =
        (before ++ (littleEndian 4 record.flags ++ littleEndian 4 record.key)) ++
          (littleEndian 4 record.value ++ (record.extra ++ after)) := by
      rw [file, List.append_assoc, List.append_assoc]
    refine readU32_eq atValue ?_ stands.value
    rw [List.length_append, List.length_append, littleEndian_length, littleEndian_length, offset]
  refine ⟨getName_eq (by omega) key ?_ wellFormed.nameNonempty wellFormed.nameRelative,
    getPath_eq (by omega) value ?_ wellFormed.pathAbsolute,
    fun arch => checkFlags_eq (by omega) flags⟩
  · rw [afterHeader]
    exact extractStr_of_stringAt stands.name wellFormed.nameValid wellFormed.nameNoNul
  · rw [afterHeader]
    exact extractStr_of_stringAt stands.path wellFormed.pathValid wellFormed.pathNoNul

/-- One library whose name is the tail of its path. -/
def sharedEntries : List CacheEntry := [⟨0x0303, ascii "libc.so", ascii "/l/libc.so"⟩]

def sharedLayout : CacheLayout where
  reserved := List.replicate 24 0
  records := [⟨0x0303, 75, 72, List.replicate 12 0⟩]
  strings := ascii "/l/libc.so" ++ [0]

theorem sharedLayout_holds : sharedLayout.Holds sharedEntries where
  count := by decide
  reserved := by decide
  wellFormed entry member := by
    obtain rfl := List.mem_singleton.mp member
    exact ⟨by decide, by decide +kernel, by decide +kernel, by decide, by decide +kernel,
      by decide +kernel, by decide +kernel, by decide +kernel⟩
  records := by
    refine .cons ⟨rfl, by decide, by decide, rfl, ?_, ?_⟩ .nil
    · unfold StringAt
      decide +kernel
    · unfold StringAt
      decide +kernel

/-- The bytes before the header end with a part of the magic. -/
theorem new_gives_back_shared :
    ∃ cache, LdCache.new (.ok (ascii "ld.so-1.7.0glibc-ld." ++ sharedLayout.bytes)) = .ok cache ∧
      cache.getName 0 = some (ascii "libc.so") ∧ cache.getPath 0 = some (ascii "/l/libc.so") := by
  obtain ⟨cache, parsed, _, entries⟩ := new_gives_back sharedEntries sharedLayout
    sharedLayout_holds (ascii "ld.so-1.7.0glibc-ld.") (by decide +kernel)
  obtain ⟨name, path, _⟩ := entries 0 ⟨0x0303, ascii "libc.so", ascii "/l/libc.so"⟩ rfl
  exact ⟨cache, parsed, name, path⟩

end LdCache

end DynLinker.Cache
