import DynLinker.Cli.InspectProperties
import Mathlib.Data.List.Pairwise

/-! What `--list` prints of a well-formed file, and for which files nothing is left out. -/

set_option autoImplicit false

namespace DynLinker.Cli

open Lib

/-- The fields of the ELF header that say where the program headers lie. -/
def programHeaders (ehdr : Bytes) : ProgramHeaders :=
  ⟨readWord 8 ehdr 32, readWord 2 ehdr 54, readWord 2 ehdr 56⟩

/-- What two segments take from the file does not overlap in memory. -/
def SegmentsApart (left right : ElfPhdr) : Prop :=
  left.vaddr + left.filesz ≤ right.vaddr ∨ right.vaddr + right.filesz ≤ left.vaddr

instance (left right : ElfPhdr) : Decidable (SegmentsApart left right) :=
  inferInstanceAs (Decidable (_ ∨ _))

instance : Std.Symm SegmentsApart where
  symm _ _ apart := apart.symm

/-- A dynamically linked file that is well formed: its headers lie in it, its one dynamic
array ends with `DT_NULL`, its segments do not overlap, and its string table lies in one
of them and holds every needed name with its NUL. -/
structure DynamicObject extends OpenFile where
  dynamic : ElfPhdr
  table : DynamicTable
  segment : ElfPhdr
  strtab : Nat
  strsz : Nat
  ehdrInside : 64 ≤ content.length
  magic : (content.take 64).take 4 = [0x7f, 0x45, 0x4c, 0x46]
  elfClass : (content.take 64).getD 4 0 = elfclass64
  elfData : (content.take 64).getD 5 0 = elfdata2lsb
  elfType : readWord 2 (content.take 64) 16 = etExec ∨ readWord 2 (content.take 64) 16 = etDyn
  machine : readWord 2 (content.take 64) 18 = emX8664
  phentsize : 56 ≤ (programHeaders (content.take 64)).phentsize
  phnum : (programHeaders (content.take 64)).phnum ≤ 256
  phdrsInside : PhdrsInside content (programHeaders (content.take 64))
  oneDynamic : phdrsOf (phdrsIn content (programHeaders (content.take 64)))
    ElfProgramType.dynamic = [dynamic]
  array : ∀ i entry, table.all[i]? = some entry →
    dynamic.offset + i * ElfDyn.size + ElfDyn.size ≤ content.length ∧
      dynIn content dynamic.offset i = entry
  arraySize : table.all.length * ElfDyn.size ≤ dynamic.filesz
  oneStrtab : valuesOf table.entries ElfDynamicTag.strtab = [strtab]
  oneStrsz : valuesOf table.entries ElfDynamicTag.strsz = [strsz]
  load : segment ∈ phdrsOf (phdrsIn content (programHeaders (content.take 64))) ElfProgramType.load
  covers : Covers segment strtab
  strtabInside : strtab - segment.vaddr + strsz ≤ segment.filesz
  segmentInside : segment.offset + segment.filesz ≤ content.length
  separate : (phdrsOf (phdrsIn content (programHeaders (content.take 64)))
    ElfProgramType.load).Pairwise SegmentsApart
  named : ∀ needed ∈ valuesOf table.entries ElfDynamicTag.needed, ∃ length,
    needed + length < strsz ∧
      content[segment.offset + (strtab - segment.vaddr) + needed + length]? = some 0

/-- A string that ends within a limit is not cut by it. -/
theorem untilNul_take {bytes : Bytes} {length limit : Nat} (ended : bytes[length]? = some 0)
    (within : length < limit) : untilNul (bytes.take limit) = untilNul bytes := by
  induction bytes generalizing length limit with
  | nil => simp at ended
  | cons byte rest ih =>
      obtain ⟨limit, rfl⟩ := Nat.exists_eq_succ_of_ne_zero (Nat.ne_zero_of_lt within)
      rw [List.take_succ_cons, untilNul, untilNul, List.takeWhile_cons, List.takeWhile_cons]
      cases length with
      | zero =>
          cases ended
          rfl
      | succ length =>
          have later := ih ended (Nat.lt_of_succ_lt_succ within)
          rw [untilNul, untilNul] at later
          rw [later]

namespace DynamicObject

variable (object : DynamicObject)

def header : ProgramHeaders := programHeaders (object.content.take 64)

def loads : List ElfPhdr :=
  phdrsOf (phdrsIn object.content object.header) ElfProgramType.load

def needed : List Nat := valuesOf object.table.entries ElfDynamicTag.needed

/-- Where the string table starts in the file. -/
def stringTable : Nat := object.segment.offset + (object.strtab - object.segment.vaddr)

/-- The line for the string at an offset of the string table. -/
def line (needed : Nat) : Bytes :=
  ascii "\t" ++ untilNul (object.content.drop (object.stringTable + needed)) ++
    ascii " => not resolved by stage-0 rtld CLI\n"

/-- A line for every needed name, in their order. -/
def listing : Bytes :=
  object.needed.flatMap object.line ++ ascii "\tld-linux-x86-64.so.2 => self\n"

/-- The file is inspected, and everything is listed. -/
structure ListsAll (checks : Bool) (path : Bytes) : Prop where
  inspected : ∃ info, inspect checks (some object.toOpenFile) = .ok info
  succeeded : (list checks (some object.toOpenFile) path).result = .ok true
  listed : (list checks (some object.toOpenFile) path).stdout.flatMap Printed.bytes =
    object.listing

/-- The limits of the inspector. -/
structure WithinLimits : Prop where
  needed : object.needed.length ≤ maxNeeded
  entries : ∀ i entry, object.table.entries[i]? = some entry →
    entry.tag ∈ [ElfDynamicTag.needed, ElfDynamicTag.strtab, ElfDynamicTag.strsz] → i < maxDyn
  segment : object.segment ∈ object.loads.take maxLoads
  dynamic : object.dynamic.offset ≠ 0
  strtab : object.strtab ≠ 0
  strsz : object.strsz ≠ 0

theorem header_eq : object.header = programHeaders (object.content.take 64) := rfl

theorem dynamic_mem : object.dynamic ∈ phdrsIn object.content object.header := by
  have listed : object.dynamic ∈
      phdrsOf (phdrsIn object.content object.header) ElfProgramType.dynamic := by
    rw [header, object.oneDynamic]
    exact List.mem_singleton_self _
  exact List.mem_of_mem_filter listed

theorem checkHeader_eq : checkHeader (object.content.take 64) = .ok object.header := by
  obtain ⟨index, below, _⟩ := List.mem_map.mp object.dynamic_mem
  have some : object.header.phnum ≠ 0 := Nat.ne_zero_of_lt (List.mem_range.mp below)
  have identified : ¬((object.content.take 64).getD 4 0 ≠ elfclass64 ∨
      (object.content.take 64).getD 5 0 ≠ elfdata2lsb) := by
    rw [object.elfClass, object.elfData]
    simp
  have typed : ¬((readWord 2 (object.content.take 64) 16 ≠ etExec ∧
      readWord 2 (object.content.take 64) 16 ≠ etDyn) ∨
      readWord 2 (object.content.take 64) 18 ≠ emX8664) := by
    have kind := object.elfType
    have machine := object.machine
    tauto
  have counted : ¬(object.header.phentsize < 56 ∨ object.header.phnum = 0 ∨
      maxPhdrs < object.header.phnum) := by
    have size : 56 ≤ object.header.phentsize := object.phentsize
    have few : object.header.phnum ≤ maxPhdrs := object.phnum
    omega
  rw [checkHeader]
  rw [if_neg (not_not.mpr object.magic), if_neg identified, if_neg typed]
  exact if_neg counted

/-- The scan of an array of entries stops at its `DT_NULL`, or where its count ends. -/
theorem dynsIn_at {content : Bytes} {dynamicOffset : Nat} {last : ElfDyn}
    (ended : last.tag = ElfDynamicTag.null) {entries : List ElfDyn}
    (others : ∀ entry ∈ entries, entry.tag ≠ ElfDynamicTag.null) (count : Nat) {index : Nat}
    (held : ∀ i entry, (entries ++ [last])[i]? = some entry →
      dynamicOffset + (index + i) * ElfDyn.size + ElfDyn.size ≤ content.length ∧
        dynIn content dynamicOffset (index + i) = entry) :
    dynsIn content dynamicOffset count index = some (entries.take count) := by
  induction entries generalizing count index with
  | nil =>
      cases count with
      | zero => rfl
      | succ count =>
          obtain ⟨inside, first⟩ := held 0 last rfl
          rw [Nat.add_zero] at inside first
          simp [dynsIn, inside, first, ended]
  | cons entry rest ih =>
      cases count with
      | zero => rfl
      | succ count =>
          obtain ⟨inside, first⟩ := held 0 entry rfl
          rw [Nat.add_zero] at inside first
          have other := others entry List.mem_cons_self
          have later : dynsIn content dynamicOffset count (index + 1) = some (rest.take count) := by
            apply ih fun next member => others next (List.mem_cons_of_mem _ member)
            intro i next found
            have shift : index + 1 + i = index + (i + 1) := by omega
            rw [shift]
            exact held (i + 1) next found
          simp [dynsIn, inside, first, other, later]

/-- The entries that are scanned. -/
def scanned : List ElfDyn := object.table.entries.take maxDyn

theorem dynsIn_eq :
    dynsIn object.content object.dynamic.offset (dynCount object.dynamic) 0 =
      some object.scanned := by
  have held : ∀ i entry, (object.table.entries ++ [object.table.last])[i]? = some entry →
      object.dynamic.offset + (0 + i) * ElfDyn.size + ElfDyn.size ≤ object.content.length ∧
        dynIn object.content object.dynamic.offset (0 + i) = entry := by
    intro i entry found
    rw [Nat.zero_add]
    exact object.array i entry found
  rw [dynsIn_at object.table.ended object.table.others _ held, scanned]
  have length : object.table.all.length = object.table.entries.length + 1 := by
    rw [DynamicTable.all, List.length_append, List.length_singleton]
  have sized := object.arraySize
  have large : object.table.entries.length ≤ object.dynamic.filesz / ElfDyn.size := by
    rw [length, Nat.succ_mul] at sized
    rw [Nat.le_div_iff_mul_le (by decide)]
    omega
  rcases Nat.le_total (object.dynamic.filesz / ElfDyn.size) maxDyn with fewer | more
  · rw [dynCount, Nat.min_eq_left fewer, List.take_of_length_le large,
      List.take_of_length_le (large.trans fewer)]
  · rw [dynCount, Nat.min_eq_right more]

theorem valuesOf_append (left right : List ElfDyn) (tag : Nat) :
    valuesOf (left ++ right) tag = valuesOf left tag ++ valuesOf right tag := by
  rw [valuesOf, List.filter_append, List.map_append]
  rfl

/-- The values of a tag are those that are scanned and those after them. -/
theorem valuesOf_scanned (tag : Nat) :
    valuesOf object.table.entries tag =
      valuesOf object.scanned tag ++ valuesOf (object.table.entries.drop maxDyn) tag := by
  rw [scanned, ← valuesOf_append, List.take_append_drop]

/-- A tag is left out nowhere exactly if it stands early enough everywhere. -/
theorem valuesOf_drop_eq_nil_iff (tag : Nat) :
    valuesOf (object.table.entries.drop maxDyn) tag = [] ↔
      ∀ i entry, object.table.entries[i]? = some entry → entry.tag = tag → i < maxDyn := by
  rw [valuesOf, List.map_eq_nil_iff, List.filter_eq_nil_iff]
  constructor
  · intro none i entry found tagged
    by_contra late
    have member : entry ∈ object.table.entries.drop maxDyn := by
      apply List.mem_of_getElem?
      rw [List.getElem?_drop, Nat.add_sub_cancel' (Nat.le_of_not_lt late)]
      exact found
    exact none entry member (decide_eq_true tagged)
  · intro early entry member tagged
    obtain ⟨i, found⟩ := List.getElem?_of_mem member
    rw [List.getElem?_drop] at found
    have below := early (maxDyn + i) entry found (of_decide_eq_true tagged)
    omega

/-- Segments that do not overlap cover an address at most once. -/
theorem covers_unique {phdr : ElfPhdr} (listed : phdr ∈ object.loads)
    (covers : Covers phdr object.strtab) : phdr = object.segment := by
  by_contra other
  have apart := object.separate.forall listed object.load other
  rw [SegmentsApart] at apart
  obtain ⟨below, inside⟩ := covers
  obtain ⟨segmentBelow, segmentInside⟩ := object.covers
  omega

/-- Of a tag that occurs once, either its value is scanned or nothing is. -/
theorem scanned_once {tag value : Nat} (once : valuesOf object.table.entries tag = [value])
    (nonzero : (valuesOf object.scanned tag).getLast?.getD 0 ≠ 0) :
    (valuesOf object.scanned tag).getLast?.getD 0 = value ∧
      valuesOf (object.table.entries.drop maxDyn) tag = [] := by
  rw [object.valuesOf_scanned] at once
  rcases List.append_eq_singleton_iff.mp once with ⟨none, _⟩ | ⟨all, none⟩
  · rw [none] at nonzero
    exact absurd rfl nonzero
  · rw [all]
    exact ⟨rfl, none⟩

/-- What a description of the file can be. -/
structure Fits (described : Description) : Prop where
  header : described.header = object.header
  dynamic : described.dynamic = object.dynamic
  entries : described.entries = object.scanned
  segment : described.segment = object.segment
  strtab : described.strtab = object.strtab
  strsz : described.strsz = object.strsz

theorem fits_of_described {described : Description} (holds : Described object.content described) :
    object.Fits described := by
  have header : described.header = object.header :=
    Except.ok.inj (holds.header.symm.trans object.checkHeader_eq)
  have dynamic : described.dynamic = object.dynamic := by
    have last := holds.dynamic
    rw [header, object.header_eq, object.oneDynamic] at last
    exact (Option.some.inj last).symm
  have entries : described.entries = object.scanned := by
    have scan := holds.entries
    rw [dynamic, object.dynsIn_eq] at scan
    exact (Option.some.inj scan).symm
  obtain ⟨strtabNonzero, strszNonzero⟩ := not_or.mp holds.named
  rw [Description.strtab, entries] at strtabNonzero
  rw [Description.strsz, entries] at strszNonzero
  have strtab : described.strtab = object.strtab := by
    rw [Description.strtab, entries]
    exact (object.scanned_once object.oneStrtab strtabNonzero).1
  have strsz : described.strsz = object.strsz := by
    rw [Description.strsz, entries]
    exact (object.scanned_once object.oneStrsz strszNonzero).1
  have kept := List.mem_of_find?_eq_some holds.segment
  have covers := List.find?_some holds.segment
  rw [keptLoads, header] at kept
  rw [strtab] at covers
  exact ⟨header, dynamic, entries,
    object.covers_unique (List.mem_of_mem_take kept) (of_decide_eq_true covers), strtab, strsz⟩

/-- Every name that may be listed ends inside the string table. -/
theorem name_bounded {needed : Nat} (listed : needed ∈ object.needed) :
    object.stringTable + needed + object.strsz < 2 ^ 64 ∧
      nameAt object.content (object.stringTable + needed) object.strsz =
        untilNul (object.content.drop (object.stringTable + needed)) := by
  obtain ⟨length, inside, ended⟩ := object.named needed listed
  have sized := object.sized
  have table := object.strtabInside
  have segment := object.segmentInside
  constructor
  · rw [stringTable]
    omega
  · have nul : (object.content.drop (object.stringTable + needed))[length]? = some 0 := by
      rw [List.getElem?_drop]
      exact ended
    exact untilNul_take nul (by omega)

/-- The names that are kept are the first of all of them. -/
theorem kept_prefix {described : Description} (fits : object.Fits described) :
    described.needed <+: object.needed := by
  rw [Description.needed, fits.entries]
  refine (List.take_prefix _ _).trans ?_
  rw [needed, object.valuesOf_scanned]
  exact List.prefix_append _ _

theorem stringTable_bounded : object.stringTable < 2 ^ 64 := by
  have sized := object.sized
  have inside := object.segmentInside
  have covers := object.covers.2
  rw [stringTable]
  omega

theorem inspectFd_described (checks : Bool) {described : Description}
    (holds : Described object.content described) :
    inspectFd checks object.toOpenFile =
      .ok ⟨described.needed, object.stringTable, object.strsz⟩ := by
  have fits := object.fits_of_described holds
  have bounded :
      described.segment.offset + (described.strtab - described.segment.vaddr) < 2 ^ 64 := by
    rw [fits.segment, fits.strtab]
    exact object.stringTable_bounded
  rw [holds.inspectFd_eq checks, plainAdd_of_lt checks bounded, fits.segment, fits.strtab,
    fits.strsz]
  rfl

/-- The lines that are printed, as bytes. -/
theorem bytes_neededLines {names kept : List Nat}
    (listed : ∀ needed ∈ names, needed ∈ object.needed) :
    (names.flatMap (neededLine object.content ⟨kept, object.stringTable, object.strsz⟩) ++
        [selfLine]).flatMap Printed.bytes =
      names.flatMap object.line ++ ascii "\tld-linux-x86-64.so.2 => self\n" := by
  induction names with
  | nil => rfl
  | cons needed rest ih =>
      have name := (object.name_bounded (listed needed List.mem_cons_self)).2
      have later := ih fun other member => listed other (List.mem_cons_of_mem _ member)
      have first : (neededLine object.content ⟨kept, object.stringTable, object.strsz⟩
          needed).flatMap Printed.bytes = object.line needed := by
        rw [neededLine, List.cons_append, List.flatMap_cons, List.flatMap_append,
          flatMap_bytes_printedFrom, name, List.flatMap_singleton, line, List.append_assoc]
        rfl
      rw [List.flatMap_cons, List.append_assoc, List.flatMap_append, first, later,
        List.flatMap_cons, List.append_assoc]

theorem list_described (checks : Bool) (path : Bytes) {described : Description}
    (holds : Described object.content described) :
    (list checks (some object.toOpenFile) path).result = .ok true ∧
      (list checks (some object.toOpenFile) path).stdout.flatMap Printed.bytes =
        described.needed.flatMap object.line ++ ascii "\tld-linux-x86-64.so.2 => self\n" := by
  have kept := object.kept_prefix (object.fits_of_described holds)
  have bounded : ∀ needed ∈ described.needed,
      object.stringTable + needed + object.strsz < 2 ^ 64 :=
    fun needed member => (object.name_bounded (kept.subset member)).1
  have answer : list checks (some object.toOpenFile) path =
      ⟨.ok true, described.needed.flatMap (neededLine object.content
        ⟨described.needed, object.stringTable, object.strsz⟩) ++ [selfLine], []⟩ := by
    rw [list, inspect, object.inspectFd_described checks holds]
    exact listNeeded_eq checks object.toOpenFile
      ⟨described.needed, object.stringTable, object.strsz⟩ bounded
  rw [answer]
  exact ⟨rfl, object.bytes_neededLines fun needed member => kept.subset member⟩

/-- Lines are not empty, so no line is missing from a complete listing. -/
theorem flatMap_line_eq {names : List Nat} (kept : names <+: object.needed)
    (same : names.flatMap object.line ++ ascii "\tld-linux-x86-64.so.2 => self\n" =
      object.listing) : names = object.needed := by
  obtain ⟨rest, split⟩ := kept
  cases rest with
  | nil => rw [← split, List.append_nil]
  | cons next later =>
      have lengths := congrArg List.length same
      have line : 0 < (object.line next).length := by
        rw [DynamicObject.line, List.append_assoc, List.length_append]
        exact Nat.add_pos_left (by decide) _
      rw [listing, ← split, List.flatMap_append, List.flatMap_cons] at lengths
      simp only [List.length_append] at lengths
      omega

section Limits

variable {object : DynamicObject}

/-- All values of an early tag are scanned. -/
theorem WithinLimits.valuesOf_scanned_eq (limits : object.WithinLimits) {tag : Nat}
    (listed : tag ∈ [ElfDynamicTag.needed, ElfDynamicTag.strtab, ElfDynamicTag.strsz]) :
    valuesOf object.scanned tag = valuesOf object.table.entries tag := by
  have none : valuesOf (object.table.entries.drop maxDyn) tag = [] := by
    rw [object.valuesOf_drop_eq_nil_iff]
    intro i entry found tagged
    exact limits.entries i entry found (tagged ▸ listed)
  rw [object.valuesOf_scanned, none, List.append_nil]

theorem WithinLimits.described (limits : object.WithinLimits) :
    Described object.content ⟨object.header, object.dynamic, object.scanned, object.segment⟩ := by
  have strtab : Description.strtab
      ⟨object.header, object.dynamic, object.scanned, object.segment⟩ = object.strtab := by
    rw [Description.strtab, limits.valuesOf_scanned_eq (by simp), object.oneStrtab]
    rfl
  have strsz : Description.strsz
      ⟨object.header, object.dynamic, object.scanned, object.segment⟩ = object.strsz := by
    rw [Description.strsz, limits.valuesOf_scanned_eq (by simp), object.oneStrsz]
    rfl
  refine ⟨object.ehdrInside, object.checkHeader_eq, object.phdrsInside, ?_, ?_, object.dynsIn_eq,
    ?_, ?_⟩
  · rw [object.header_eq, object.oneDynamic]
    rfl
  · rintro (zero | empty)
    · exact limits.dynamic zero
    · have sized := object.arraySize
      rw [empty, DynamicTable.all, List.length_append, List.length_singleton, ElfDyn.size] at sized
      omega
  · rw [strtab, strsz]
    rintro (zero | zero)
    · exact limits.strtab zero
    · exact limits.strsz zero
  · rw [strtab]
    cases found : (keptLoads object.content object.header).find? (Covers · object.strtab) with
    | none =>
        have uncovered := List.find?_eq_none.mp found object.segment limits.segment
        exact absurd (decide_eq_true object.covers) uncovered
    | some phdr =>
        have kept := List.mem_of_mem_take (List.mem_of_find?_eq_some found)
        have covers := List.find?_some found
        rw [object.covers_unique kept (of_decide_eq_true covers)]

theorem WithinLimits.needed_eq (limits : object.WithinLimits) :
    Description.needed ⟨object.header, object.dynamic, object.scanned, object.segment⟩ =
      object.needed := by
  rw [Description.needed, limits.valuesOf_scanned_eq (by simp)]
  exact List.take_of_length_le limits.needed

theorem WithinLimits.listsAll (limits : object.WithinLimits) (checks : Bool) (path : Bytes) :
    object.ListsAll checks path := by
  obtain ⟨succeeded, listed⟩ := object.list_described checks path limits.described
  rw [limits.needed_eq] at listed
  exact ⟨⟨_, object.inspectFd_described checks limits.described⟩, succeeded, listed⟩

/-- A tag whose values are all scanned stands early. -/
theorem early_of_drop {tag i : Nat} {entry : ElfDyn}
    (none : valuesOf (object.table.entries.drop maxDyn) tag = [])
    (found : object.table.entries[i]? = some entry) (tagged : entry.tag = tag) : i < maxDyn :=
  (object.valuesOf_drop_eq_nil_iff tag).mp none i entry found tagged

theorem ListsAll.withinLimits {checks : Bool} {path : Bytes}
    (complete : object.ListsAll checks path) : object.WithinLimits := by
  obtain ⟨info, inspected⟩ := complete.inspected
  have accepted : ∀ error, inspectFd checks object.toOpenFile ≠ .error (.refused error) := by
    intro error refused
    rw [inspect, refused] at inspected
    cases inspected
  obtain ⟨described, holds⟩ := exists_described accepted
  have fits := object.fits_of_described holds
  obtain ⟨strtabNonzero, strszNonzero⟩ := not_or.mp holds.named
  have all : described.needed = object.needed :=
    object.flatMap_line_eq (object.kept_prefix fits)
      ((object.list_described checks path holds).2.symm.trans complete.listed)
  have strtabDrop : valuesOf (object.table.entries.drop maxDyn) ElfDynamicTag.strtab = [] := by
    rw [Description.strtab, fits.entries] at strtabNonzero
    exact (object.scanned_once object.oneStrtab strtabNonzero).2
  have strszDrop : valuesOf (object.table.entries.drop maxDyn) ElfDynamicTag.strsz = [] := by
    rw [Description.strsz, fits.entries] at strszNonzero
    exact (object.scanned_once object.oneStrsz strszNonzero).2
  rw [Description.needed, fits.entries, needed, object.valuesOf_scanned] at all
  have lengths := congrArg List.length all
  rw [List.length_take, List.length_append] at lengths
  have neededDrop : valuesOf (object.table.entries.drop maxDyn) ElfDynamicTag.needed = [] := by
    apply List.eq_nil_of_length_eq_zero
    omega
  constructor
  case needed =>
    rw [needed, object.valuesOf_scanned, List.length_append]
    omega
  case entries =>
    intro i entry found listed
    simp only [List.mem_cons, List.not_mem_nil, or_false] at listed
    rcases listed with tagged | tagged | tagged
    · exact early_of_drop neededDrop found tagged
    · exact early_of_drop strtabDrop found tagged
    · exact early_of_drop strszDrop found tagged
  case segment =>
    have kept := List.mem_of_find?_eq_some holds.segment
    rwa [fits.header, fits.segment] at kept
  case dynamic =>
    intro zero
    exact holds.present (.inl (fits.dynamic ▸ zero))
  case strtab => exact fits.strtab ▸ strtabNonzero
  case strsz => exact fits.strsz ▸ strszNonzero

end Limits

/-- A well-formed file is inspected and listed without omission exactly if it keeps
within the limits of the inspector. -/
theorem listsAll_iff (object : DynamicObject) (checks : Bool) (path : Bytes) :
    object.ListsAll checks path ↔ object.WithinLimits :=
  ⟨ListsAll.withinLimits, fun limits => limits.listsAll checks path⟩

end DynamicObject

/-- A table with one needed name more than there is room for. -/
def crowdedTable : DynamicTable :=
  .ofEntries (List.replicate 65 ⟨ElfDynamicTag.needed, 1⟩ ++
    [⟨ElfDynamicTag.strtab, 1264⟩, ⟨ElfDynamicTag.strsz, 3⟩]) (by decide)

def crowdedSegment : ElfPhdr := ⟨ElfProgramType.load, 0, 0, 1267⟩

def crowdedDynamic : ElfPhdr := ⟨ElfProgramType.dynamic, 176, 176, 1088⟩

def crowdedContent : Bytes :=
  encodeEhdr 2 ++ crowdedSegment.encode ++ crowdedDynamic.encode ++
    crowdedTable.all.flatMap ElfDyn.encode ++ [0, 0x61, 0]

/-- A file with sixty-five needed names. -/
def crowdedObject : DynamicObject where
  toOpenFile := .whole crowdedContent (by decide +kernel)
  dynamic := crowdedDynamic
  table := crowdedTable
  segment := crowdedSegment
  strtab := 1264
  strsz := 3
  ehdrInside := by decide +kernel
  magic := by decide +kernel
  elfClass := by decide +kernel
  elfData := by decide +kernel
  elfType := by decide +kernel
  machine := by decide +kernel
  phentsize := by decide +kernel
  phnum := by decide +kernel
  phdrsInside := by decide +kernel
  oneDynamic := by decide +kernel
  array := by
    have every : ∀ i : Fin crowdedTable.all.length,
        crowdedDynamic.offset + i * ElfDyn.size + ElfDyn.size ≤ crowdedContent.length ∧
          dynIn crowdedContent crowdedDynamic.offset i = crowdedTable.all.get i := by
      decide +kernel
    intro i entry found
    obtain ⟨bounded, rfl⟩ := List.getElem?_eq_some_iff.mp found
    exact every ⟨i, bounded⟩
  arraySize := by decide
  oneStrtab := by decide
  oneStrsz := by decide
  load := by decide +kernel
  covers := by decide
  strtabInside := by decide
  segmentInside := by decide +kernel
  separate := by decide +kernel
  named := by
    intro needed listed
    have names : valuesOf crowdedTable.entries ElfDynamicTag.needed = List.replicate 65 1 := by
      decide
    rw [names] at listed
    obtain rfl := List.eq_of_mem_replicate listed
    exact ⟨1, by decide, by decide +kernel⟩

/-- The sixty-fifth name is left out. -/
theorem crowdedObject_omits_name : ¬crowdedObject.ListsAll false (ascii "crowded") := by
  intro complete
  exact absurd complete.withinLimits.needed (by decide)

end DynLinker.Cli
