import DynLinker.Cli.Inspect
import DynLinker.Lib.Folds

/-! What the inspector reads, as facts about the content of the file: short reads do not
show, the scans see the headers and entries that lie in the file, and the arrays of fixed
size keep the first elements that they have room for. -/

set_option autoImplicit false

namespace DynLinker.Cli

open Lib

namespace OpenFile

variable (file : OpenFile)

theorem preadLoop_eq {rounds left : Nat} (enough : left ≤ rounds) (offset : Nat) :
    file.preadLoop rounds left offset =
      if left = 0 ∨ offset + left ≤ file.content.length then
        some ((file.content.drop offset).take left)
      else none := by
  have sized := file.sized
  induction rounds generalizing left offset with
  | zero =>
      obtain rfl := Nat.le_zero.mp enough
      simp [preadLoop]
  | succ rounds ih =>
      cases left with
      | zero => simp [preadLoop]
      | succ left =>
          obtain ⟨positive, bounded⟩ := file.chunked (left + 1) offset (Nat.succ_pos left)
          rw [preadLoop, pread]
          by_cases negative : 2 ^ 63 ≤ offset
          · have past : ¬(left + 1 = 0 ∨ offset + (left + 1) ≤ file.content.length) := by omega
            rw [if_pos negative, if_neg past]
          · rw [if_neg negative]
            simp only []
            generalize taken : min (file.chunk (left + 1) offset)
              (file.content.length - offset) = count
            have bytes : (file.content.drop offset).take (file.chunk (left + 1) offset) =
                (file.content.drop offset).take count := by
              rw [List.take_eq_take_min, List.length_drop, taken]
            have length : ((file.content.drop offset).take count).length = count := by
              rw [List.length_take, List.length_drop]
              omega
            rw [bytes, length]
            by_cases ended : count = 0
            · have past : ¬(left + 1 = 0 ∨ offset + (left + 1) ≤ file.content.length) := by omega
              rw [if_pos (.inl ended), if_neg past]
            · have small : offset + count < 2 ^ 64 := by omega
              have split : left + 1 = count + (left + 1 - count) := by omega
              have same : (left + 1 - count = 0 ∨
                  offset + count + (left + 1 - count) ≤ file.content.length) ↔
                  left + 1 = 0 ∨ offset + (left + 1) ≤ file.content.length := by omega
              rw [if_neg (by omega), Nat.mod_eq_of_lt small, ih (by omega)]
              simp only [same]
              split
              · rw [Option.map_some, ← List.drop_drop, ← List.take_add, ← split]
              · rfl

/-- A piece of the file is read as a whole or not at all. -/
theorem preadExact_eq {length : Nat} (nonempty : length ≠ 0) (offset : Nat) :
    file.preadExact length offset =
      if offset + length ≤ file.content.length then some ((file.content.drop offset).take length)
      else none := by
  rw [preadExact, preadLoop_eq file (Nat.le_refl length)]
  simp only [nonempty, false_or]

end OpenFile

theorem readAt_eq {file : OpenFile} {length : Nat} (nonempty : length ≠ 0) (offset : Nat) :
    readAt file length offset =
      if offset + length ≤ file.content.length then
        .ok ((file.content.drop offset).take length)
      else .error (.refused .cannotRead) := by
  rw [readAt, file.preadExact_eq nonempty]
  by_cases inside : offset + length ≤ file.content.length
  · rw [if_pos inside, if_pos inside]
  · rw [if_neg inside, if_neg inside]

/-- The program header with an index. -/
def phdrIn (content : Bytes) (header : ProgramHeaders) (index : Nat) : ElfPhdr :=
  .decode ((content.drop (header.phoff + index * header.phentsize)).take ElfPhdr.size)

/-- The program headers that the ELF header announces. -/
def phdrsIn (content : Bytes) (header : ProgramHeaders) : List ElfPhdr :=
  (List.range header.phnum).map (phdrIn content header)

/-- All of them lie in the file. -/
def PhdrsInside (content : Bytes) (header : ProgramHeaders) : Prop :=
  ∀ index < header.phnum,
    header.phoff + index * header.phentsize + ElfPhdr.size ≤ content.length

instance (content : Bytes) (header : ProgramHeaders) : Decidable (PhdrsInside content header) :=
  inferInstanceAs (Decidable (∀ index < header.phnum, _))

/-- Sizes that `checkHeader` accepts; the steps between the headers are small. -/
structure ProgramHeaders.Bounded (header : ProgramHeaders) : Prop where
  phoff : header.phoff < 2 ^ 64
  phentsize : header.phentsize < 2 ^ 16
  phnum : header.phnum ≤ 2 ^ 8

theorem readWord_lt (width : Nat) (bytes : Bytes) (offset : Nat) :
    readWord width bytes offset < 256 ^ width := by
  have short : 256 ^ ((bytes.drop offset).take width).length ≤ 256 ^ width :=
    Nat.pow_le_pow_right (by decide) (List.length_take_le _ _)
  exact Nat.lt_of_lt_of_le (foldr_bytes_lt _) short

theorem checkHeader_bounded {ehdr : Bytes} {header : ProgramHeaders}
    (accepted : checkHeader ehdr = .ok header) : header.Bounded := by
  have phoff := readWord_lt 8 ehdr 32
  have phentsize := readWord_lt 2 ehdr 54
  unfold checkHeader at accepted
  simp only [] at accepted
  split at accepted
  · cases accepted
  · split at accepted
    · cases accepted
    · split at accepted
      · cases accepted
      · split at accepted
        · cases accepted
        · next sized =>
            cases accepted
            have few : readWord 2 ehdr 56 ≤ 256 := by
              rw [maxPhdrs] at sized
              omega
            exact ⟨phoff, phentsize, few⟩

/-- One step between headers stays below the limit of a word if the header before it was
in the file. -/
theorem scanPhdrs_eq (checks : Bool) {file : OpenFile} {header : ProgramHeaders}
    (bounded : header.Bounded) {count index : Nat} (within : index + count = header.phnum)
    (start : header.phoff + index * header.phentsize < 2 ^ 64) (scan : PhdrScan) :
    scanPhdrs checks file header count index scan =
      if ∀ i < count, header.phoff + (index + i) * header.phentsize + ElfPhdr.size ≤
          file.content.length then
        .ok (((List.range count).map fun i => phdrIn file.content header (index + i)).foldl
          PhdrScan.record scan)
      else .error (.refused .cannotRead) := by
  induction count generalizing index scan with
  | zero => simp [scanPhdrs]
  | succ count ih =>
      have scaled : index * header.phentsize < 2 ^ 64 := by omega
      have nonempty : ElfPhdr.size ≠ 0 := by decide
      rw [scanPhdrs, plainMul_of_lt checks scaled]
      simp only [Except.mapError, ok_bind, plainAdd_of_lt checks start, readAt_eq nonempty]
      by_cases first : header.phoff + index * header.phentsize + ElfPhdr.size ≤ file.content.length
      · have sized := file.sized
        have step := bounded.phentsize
        have next : header.phoff + (index + 1) * header.phentsize < 2 ^ 64 := by
          rw [Nat.succ_mul]
          omega
        have shift (i : Nat) : index + (i + 1) = index + 1 + i := by omega
        have rest : (∀ i < count + 1, header.phoff + (index + i) * header.phentsize +
              ElfPhdr.size ≤ file.content.length) ↔
            ∀ i < count, header.phoff + (index + 1 + i) * header.phentsize + ElfPhdr.size ≤
              file.content.length := by
          rw [Nat.forall_lt_succ_left]
          exact ⟨fun all i below => shift i ▸ all.2 i below,
            fun later => ⟨first, fun i below => (shift i).symm ▸ later i below⟩⟩
        rw [if_pos first, ok_bind, ih (by omega) next]
        have shifted : (fun i => phdrIn file.content header (index + i)) ∘ Nat.succ =
            fun i => phdrIn file.content header (index + 1 + i) :=
          funext fun i => congrArg (phdrIn file.content header) (shift i)
        simp only [rest, List.range_succ_eq_map, List.map_cons, List.map_map, List.foldl_cons,
          Nat.add_zero, shifted]
        rfl
      · have past : ¬∀ i < count + 1, header.phoff + (index + i) * header.phentsize +
            ElfPhdr.size ≤ file.content.length := fun all => first (all 0 (Nat.succ_pos count))
        rw [if_neg first, if_neg past]
        rfl

/-- The dynamic entry with an index. -/
def dynIn (content : Bytes) (dynamicOffset index : Nat) : ElfDyn :=
  .decode ((content.drop (dynamicOffset + index * ElfDyn.size)).take ElfDyn.size)

/-- The entries before `DT_NULL` among the next ones, if all of them lie in the file. -/
def dynsIn (content : Bytes) (dynamicOffset : Nat) : Nat → Nat → Option (List ElfDyn)
  | 0, _ => some []
  | count + 1, index =>
      let entry := dynIn content dynamicOffset index
      if dynamicOffset + index * ElfDyn.size + ElfDyn.size ≤ content.length then
        if entry.tag = ElfDynamicTag.null then some []
        else (dynsIn content dynamicOffset count (index + 1)).map (entry :: ·)
      else none

theorem scanDynamic_eq (checks : Bool) {file : OpenFile} {dynamicOffset count index : Nat}
    (within : index + count ≤ maxDyn) (start : dynamicOffset + index * ElfDyn.size < 2 ^ 64)
    (scan : DynScan) :
    scanDynamic checks file dynamicOffset count index scan =
      match dynsIn file.content dynamicOffset count index with
      | some entries => .ok (entries.foldl DynScan.record scan)
      | none => .error (.refused .cannotRead) := by
  induction count generalizing index scan with
  | zero => rfl
  | succ count ih =>
      have nonempty : ElfDyn.size ≠ 0 := by decide
      have scaled : index * ElfDyn.size < 2 ^ 64 := by omega
      rw [scanDynamic, plainMul_of_lt checks scaled]
      simp only [Except.mapError, ok_bind, plainAdd_of_lt checks start, readAt_eq nonempty, dynsIn]
      by_cases inside : dynamicOffset + index * ElfDyn.size + ElfDyn.size ≤ file.content.length
      · have sized := file.sized
        have next : dynamicOffset + (index + 1) * ElfDyn.size < 2 ^ 64 := by
          rw [Nat.succ_mul]
          omega
        rw [if_pos inside, if_pos inside, ok_bind]
        change (if (dynIn file.content dynamicOffset index).tag = _ then _ else _) = _
        by_cases ended : (dynIn file.content dynamicOffset index).tag = ElfDynamicTag.null
        · rw [if_pos ended, if_pos ended]
          rfl
        · rw [if_neg ended, if_neg ended, ih (by omega) next]
          cases dynsIn file.content dynamicOffset count (index + 1) with
          | none => rfl
          | some entries => rfl
      · rw [if_neg inside, if_neg inside]
        rfl

/-- The address lies in the part of the segment that comes from the file. -/
def Covers (segment : ElfPhdr) (vaddr : Nat) : Prop :=
  segment.vaddr ≤ vaddr ∧ vaddr - segment.vaddr < segment.filesz

instance (segment : ElfPhdr) (vaddr : Nat) : Decidable (Covers segment vaddr) :=
  inferInstanceAs (Decidable (_ ∧ _))

def loadSegment (phdr : ElfPhdr) : LoadSegment := ⟨phdr.vaddr, phdr.offset, phdr.filesz⟩

theorem vaddrToOffset_eq (checks : Bool) (vaddr : Nat) (segments : List ElfPhdr) :
    vaddrToOffset checks vaddr (segments.map loadSegment) =
      match segments.find? (Covers · vaddr) with
      | some segment =>
          (plainAdd checks 64 segment.offset (vaddr - segment.vaddr)).map some
      | none => .ok none := by
  induction segments with
  | nil => rfl
  | cons segment rest ih =>
      rw [List.map_cons, vaddrToOffset, List.find?_cons]
      by_cases covered : Covers segment vaddr
      · rw [decide_eq_true covered]
        exact if_pos covered
      · rw [decide_eq_false covered]
        exact (if_neg covered).trans ih

/-- The headers of a type, and the entries with a tag, in their order. -/
def phdrsOf (headers : List ElfPhdr) (programType : Nat) : List ElfPhdr :=
  headers.filter (·.programType = programType)

def valuesOf (entries : List ElfDyn) (tag : Nat) : List Nat :=
  (entries.filter (·.tag = tag)).map ElfDyn.value

namespace PhdrScan

theorem record_loads (scan : PhdrScan) (phdr : ElfPhdr) :
    (scan.record phdr).loads =
      if phdr.programType = ElfProgramType.load ∧ scan.loads.length < maxLoads then
        scan.loads ++ [loadSegment phdr]
      else scan.loads := by
  unfold record
  split
  · rfl
  · split
    · rfl
    · rfl

theorem record_dynamic (scan : PhdrScan) (phdr : ElfPhdr) :
    ((scan.record phdr).dynamicOffset, (scan.record phdr).dynamicSize) =
      if phdr.programType = ElfProgramType.dynamic then (phdr.offset, phdr.filesz)
      else (scan.dynamicOffset, scan.dynamicSize) := by
  unfold record
  split
  · next load =>
      have other : ¬phdr.programType = ElfProgramType.dynamic := by
        rw [load.1]
        decide
      rw [if_neg other]
  · split
    · rfl
    · rfl

theorem foldl_record_loads (headers : List ElfPhdr) :
    (headers.foldl record empty).loads =
      ((phdrsOf headers ElfProgramType.load).take maxLoads).map loadSegment := by
  have collected := foldl_collect (fun phdr : ElfPhdr => phdr.programType = ElfProgramType.load)
    loadSegment maxLoads headers [] (Nat.zero_le _)
  rw [List.nil_append, ← List.map_take] at collected
  exact (foldl_field PhdrScan.loads _ record_loads headers empty).trans collected

theorem foldl_record_dynamic (headers : List ElfPhdr) :
    ((headers.foldl record empty).dynamicOffset, (headers.foldl record empty).dynamicSize) =
      ((phdrsOf headers ElfProgramType.dynamic).getLast?.map fun phdr =>
        (phdr.offset, phdr.filesz)).getD (0, 0) := by
  have replaced := foldl_replace
    (fun phdr : ElfPhdr => phdr.programType = ElfProgramType.dynamic)
    (fun phdr => (phdr.offset, phdr.filesz)) headers (0, 0)
  exact (foldl_field (fun scan : PhdrScan => (scan.dynamicOffset, scan.dynamicSize)) _
    record_dynamic headers empty).trans replaced

end PhdrScan

namespace DynScan

theorem record_needed (scan : DynScan) (entry : ElfDyn) :
    (scan.record entry).needed =
      if entry.tag = ElfDynamicTag.needed ∧ scan.needed.length < maxNeeded then
        scan.needed ++ [entry.value]
      else scan.needed := by
  unfold record
  split
  · rfl
  · split
    · rfl
    · split
      · rfl
      · rfl

theorem record_strtabVaddr (scan : DynScan) (entry : ElfDyn) :
    (scan.record entry).strtabVaddr =
      if entry.tag = ElfDynamicTag.strtab then entry.value else scan.strtabVaddr := by
  unfold record
  split
  · next needed =>
      have other : ¬entry.tag = ElfDynamicTag.strtab := by
        rw [needed.1]
        decide
      rw [if_neg other]
  · split
    · rfl
    · split
      · rfl
      · rfl

theorem record_strtabSize (scan : DynScan) (entry : ElfDyn) :
    (scan.record entry).strtabSize =
      if entry.tag = ElfDynamicTag.strsz then entry.value else scan.strtabSize := by
  unfold record
  split
  · next needed =>
      have other : ¬entry.tag = ElfDynamicTag.strsz := by
        rw [needed.1]
        decide
      rw [if_neg other]
  · split
    · next strtab =>
        have other : ¬entry.tag = ElfDynamicTag.strsz := by
          rw [strtab]
          decide
        rw [if_neg other]
    · split
      · rfl
      · rfl

theorem foldl_record (entries : List ElfDyn) :
    entries.foldl record empty = {
      needed := (valuesOf entries ElfDynamicTag.needed).take maxNeeded
      strtabVaddr := (valuesOf entries ElfDynamicTag.strtab).getLast?.getD 0
      strtabSize := (valuesOf entries ElfDynamicTag.strsz).getLast?.getD 0
    } := by
  apply DynScan.ext
  · have collected := foldl_collect (fun entry : ElfDyn => entry.tag = ElfDynamicTag.needed)
      ElfDyn.value maxNeeded entries [] (Nat.zero_le _)
    exact (foldl_field DynScan.needed _ record_needed entries empty).trans collected
  · have replaced := foldl_replace (fun entry : ElfDyn => entry.tag = ElfDynamicTag.strtab)
      ElfDyn.value entries 0
    rw [← List.getLast?_map] at replaced
    exact (foldl_field DynScan.strtabVaddr _ record_strtabVaddr entries empty).trans replaced
  · have replaced := foldl_replace (fun entry : ElfDyn => entry.tag = ElfDynamicTag.strsz)
      ElfDyn.value entries 0
    rw [← List.getLast?_map] at replaced
    exact (foldl_field DynScan.strtabSize _ record_strtabSize entries empty).trans replaced

end DynScan

/-- What an inspection of a file comes to: its header, the last dynamic header, the entries
that are scanned and the first segment that holds the string table. -/
structure Description where
  header : ProgramHeaders
  dynamic : ElfPhdr
  entries : List ElfDyn
  segment : ElfPhdr

namespace Description

variable (described : Description)

def needed : List Nat := (valuesOf described.entries ElfDynamicTag.needed).take maxNeeded

def strtab : Nat := (valuesOf described.entries ElfDynamicTag.strtab).getLast?.getD 0

def strsz : Nat := (valuesOf described.entries ElfDynamicTag.strsz).getLast?.getD 0

/-- Where the string table starts in the file, as a sum without a limit. -/
def strtabOffset : Nat :=
  described.segment.offset + (described.strtab - described.segment.vaddr)

end Description

/-- The segments that there is room for. -/
def keptLoads (content : Bytes) (header : ProgramHeaders) : List ElfPhdr :=
  (phdrsOf (phdrsIn content header) ElfProgramType.load).take maxLoads

/-- The number of entries that are read at most. -/
def dynCount (dynamic : ElfPhdr) : Nat := min (dynamic.filesz / ElfDyn.size) maxDyn

/-- The file is inspected up to the offset of its string table. -/
structure Described (content : Bytes) (described : Description) : Prop where
  sized : 64 ≤ content.length
  header : checkHeader (content.take 64) = .ok described.header
  inside : PhdrsInside content described.header
  dynamic : (phdrsOf (phdrsIn content described.header) ElfProgramType.dynamic).getLast? =
    some described.dynamic
  present : ¬(described.dynamic.offset = 0 ∨ described.dynamic.filesz = 0)
  entries : dynsIn content described.dynamic.offset (dynCount described.dynamic) 0 =
    some described.entries
  named : ¬(described.strtab = 0 ∨ described.strsz = 0)
  segment : (keptLoads content described.header).find? (Covers · described.strtab) =
    some described.segment

section Inspection

variable {file : OpenFile} {described : Description}

theorem phdrsIn_bounded {content : Bytes} {header : ProgramHeaders} {phdr : ElfPhdr}
    (member : phdr ∈ phdrsIn content header) : phdr.offset < 2 ^ 64 := by
  obtain ⟨index, _, rfl⟩ := List.mem_map.mp member
  exact readWord_lt 8 _ 8

theorem scanPhdrs_inside (checks : Bool) {header : ProgramHeaders} (bounded : header.Bounded) :
    scanPhdrs checks file header header.phnum 0 .empty =
      if PhdrsInside file.content header then
        .ok ((phdrsIn file.content header).foldl PhdrScan.record .empty)
      else .error (.refused .cannotRead) := by
  have start : header.phoff + 0 * header.phentsize < 2 ^ 64 := by
    have word := bounded.phoff
    omega
  rw [scanPhdrs_eq checks bounded (Nat.zero_add _) start]
  simp only [Nat.zero_add]
  rfl

theorem scanDynamic_inside (checks : Bool) {dynamic : ElfPhdr} (word : dynamic.offset < 2 ^ 64) :
    scanDynamic checks file dynamic.offset (dynCount dynamic) 0 .empty =
      match dynsIn file.content dynamic.offset (dynCount dynamic) 0 with
      | some entries => .ok (entries.foldl DynScan.record .empty)
      | none => .error (.refused .cannotRead) := by
  refine scanDynamic_eq checks ?_ ?_ .empty
  · rw [Nat.zero_add]
    exact Nat.min_le_right _ _
  · rw [Nat.zero_mul]
    exact word

/-- The scan of the program headers, as `inspectDynamic` gets it. -/
def scannedPhdrs (content : Bytes) (header : ProgramHeaders) : PhdrScan :=
  (phdrsIn content header).foldl PhdrScan.record .empty

theorem inspectFd_eq (checks : Bool) (file : OpenFile) :
    inspectFd checks file =
      if 64 ≤ file.content.length then
        match checkHeader (file.content.take 64) with
        | .error error => .error (.refused error)
        | .ok header =>
            if PhdrsInside file.content header then
              inspectDynamic checks file (scannedPhdrs file.content header)
            else .error (.refused .cannotRead)
      else .error (.refused .cannotRead) := by
  rw [inspectFd, readAt_eq (by decide), Nat.zero_add, List.drop_zero]
  by_cases sized : 64 ≤ file.content.length
  · rw [if_pos sized, if_pos sized, ok_bind]
    cases checked : checkHeader (file.content.take 64) with
    | error error => rfl
    | ok header =>
        simp only [Except.mapError, ok_bind, scanPhdrs_inside checks (checkHeader_bounded checked)]
        by_cases inside : PhdrsInside file.content header
        · rw [if_pos inside, if_pos inside]
          rfl
        · rw [if_neg inside, if_neg inside]
          rfl
  · rw [if_neg sized, if_neg sized]
    rfl

theorem scannedPhdrs_loads (content : Bytes) (header : ProgramHeaders) :
    (scannedPhdrs content header).loads = (keptLoads content header).map loadSegment :=
  PhdrScan.foldl_record_loads _

theorem scannedPhdrs_some {content : Bytes} {header : ProgramHeaders} {dynamic : ElfPhdr}
    (last : (phdrsOf (phdrsIn content header) ElfProgramType.dynamic).getLast? = some dynamic) :
    (scannedPhdrs content header).dynamicOffset = dynamic.offset ∧
      (scannedPhdrs content header).dynamicSize = dynamic.filesz := by
  have scanned := PhdrScan.foldl_record_dynamic (phdrsIn content header)
  rw [last] at scanned
  exact Prod.ext_iff.mp scanned

theorem scannedPhdrs_none {content : Bytes} {header : ProgramHeaders}
    (absent : (phdrsOf (phdrsIn content header) ElfProgramType.dynamic).getLast? = none) :
    (scannedPhdrs content header).dynamicOffset = 0 := by
  have scanned := PhdrScan.foldl_record_dynamic (phdrsIn content header)
  rw [absent] at scanned
  exact (Prod.ext_iff.mp scanned).1

theorem dynamic_word {content : Bytes} {header : ProgramHeaders} {dynamic : ElfPhdr}
    (last : (phdrsOf (phdrsIn content header) ElfProgramType.dynamic).getLast? = some dynamic) :
    dynamic.offset < 2 ^ 64 :=
  phdrsIn_bounded (List.mem_of_mem_filter (List.mem_of_getLast? last))

/-- The only sum of the inspection that may overflow is the offset of the string table. -/
theorem Described.inspectFd_eq (checks : Bool) (holds : Described file.content described) :
    inspectFd checks file =
      ((plainAdd checks 64 described.segment.offset
        (described.strtab - described.segment.vaddr)).mapError Stop.panicked).map fun offset =>
        ⟨described.needed, offset, described.strsz⟩ := by
  obtain ⟨offset, size⟩ := scannedPhdrs_some holds.dynamic
  have located : vaddrToOffset checks described.strtab
        ((keptLoads file.content described.header).map loadSegment) =
      (plainAdd checks 64 described.segment.offset
        (described.strtab - described.segment.vaddr)).map some := by
    rw [vaddrToOffset_eq, holds.segment]
  have found : scanDynamic checks file described.dynamic.offset (dynCount described.dynamic) 0
      .empty = .ok ⟨described.needed, described.strtab, described.strsz⟩ := by
    rw [scanDynamic_inside checks (dynamic_word holds.dynamic), holds.entries]
    exact congrArg Except.ok (DynScan.foldl_record described.entries)
  rw [Cli.inspectFd_eq, if_pos holds.sized, holds.header]
  simp only []
  rw [if_pos holds.inside, inspectDynamic, offset, size, if_neg holds.present]
  change scanDynamic checks file described.dynamic.offset (dynCount described.dynamic) 0 .empty >>=
    _ = _
  rw [found, ok_bind, locateStrtab, if_neg holds.named, scannedPhdrs_loads, located]
  cases plainAdd checks 64 described.segment.offset
    (described.strtab - described.segment.vaddr) with
  | error panic => rfl
  | ok offset => rfl

/-- What `locateStrtab` needs not to refuse the file. -/
theorem locateStrtab_accepts {checks : Bool} {loads : List ElfPhdr} {found : DynScan}
    (accepted : ∀ error,
      locateStrtab checks (loads.map loadSegment) found ≠ .error (.refused error)) :
    ¬(found.strtabVaddr = 0 ∨ found.strtabSize = 0) ∧
      ∃ segment, loads.find? (Covers · found.strtabVaddr) = some segment := by
  rw [locateStrtab, vaddrToOffset_eq] at accepted
  by_cases named : found.strtabVaddr = 0 ∨ found.strtabSize = 0
  · rw [if_pos named] at accepted
    exact absurd rfl (accepted .badDynamic)
  · rw [if_neg named] at accepted
    refine ⟨named, ?_⟩
    cases covering : loads.find? (Covers · found.strtabVaddr) with
    | none =>
        rw [covering] at accepted
        exact absurd rfl (accepted .badDynamic)
    | some segment => exact ⟨segment, rfl⟩

theorem inspectDynamic_accepts {checks : Bool} {header : ProgramHeaders}
    (accepted : ∀ error,
      inspectDynamic checks file (scannedPhdrs file.content header) ≠ .error (.refused error)) :
    ∃ dynamic entries,
      (phdrsOf (phdrsIn file.content header) ElfProgramType.dynamic).getLast? = some dynamic ∧
        ¬(dynamic.offset = 0 ∨ dynamic.filesz = 0) ∧
        dynsIn file.content dynamic.offset (dynCount dynamic) 0 = some entries ∧
        ∀ error, locateStrtab checks ((keptLoads file.content header).map loadSegment)
          (entries.foldl DynScan.record .empty) ≠ .error (.refused error) := by
  rw [inspectDynamic] at accepted
  cases last : (phdrsOf (phdrsIn file.content header) ElfProgramType.dynamic).getLast? with
  | none =>
      rw [if_pos (.inl (scannedPhdrs_none last))] at accepted
      exact absurd rfl (accepted .notDynamic)
  | some dynamic =>
      obtain ⟨offset, size⟩ := scannedPhdrs_some last
      rw [offset, size] at accepted
      by_cases present : dynamic.offset = 0 ∨ dynamic.filesz = 0
      · rw [if_pos present] at accepted
        exact absurd rfl (accepted .notDynamic)
      · rw [if_neg present] at accepted
        change ∀ error, scanDynamic checks file dynamic.offset (dynCount dynamic) 0 .empty >>=
          locateStrtab checks (scannedPhdrs file.content header).loads ≠ _ at accepted
        rw [scanDynamic_inside checks (dynamic_word last)] at accepted
        cases scanned : dynsIn file.content dynamic.offset (dynCount dynamic) 0 with
        | none =>
            rw [scanned] at accepted
            exact absurd rfl (accepted .cannotRead)
        | some entries =>
            rw [scanned, scannedPhdrs_loads] at accepted
            exact ⟨dynamic, entries, rfl, present, scanned, accepted⟩

/-- An inspection that does not refuse the file has a description. -/
theorem exists_described {checks : Bool}
    (accepted : ∀ error, inspectFd checks file ≠ .error (.refused error)) :
    ∃ described, Described file.content described := by
  rw [Cli.inspectFd_eq] at accepted
  by_cases sized : 64 ≤ file.content.length
  · rw [if_pos sized] at accepted
    cases checked : checkHeader (file.content.take 64) with
    | error error =>
        rw [checked] at accepted
        exact absurd rfl (accepted error)
    | ok header =>
        rw [checked] at accepted
        simp only [] at accepted
        by_cases inside : PhdrsInside file.content header
        · rw [if_pos inside] at accepted
          obtain ⟨dynamic, entries, last, present, scanned, located⟩ :=
            inspectDynamic_accepts accepted
          rw [DynScan.foldl_record] at located
          obtain ⟨named, segment, covering⟩ := locateStrtab_accepts located
          exact ⟨⟨header, dynamic, entries, segment⟩, sized, checked, inside, last, present,
            scanned, named, covering⟩
        · rw [if_neg inside] at accepted
          exact absurd rfl (accepted .cannotRead)
  · rw [if_neg sized] at accepted
    exact absurd rfl (accepted .cannotRead)

end Inspection

/-- The bytes of the file from an offset to the first NUL, to the limit or to its end. -/
def nameAt (content : Bytes) (offset limit : Nat) : Bytes :=
  untilNul ((content.drop offset).take limit)

/-- Bytes that stand one after the other in the file. -/
def printedFrom : Nat → Bytes → List Printed
  | _, [] => []
  | position, byte :: rest => .read position byte :: printedFrom (position + 1) rest

theorem mem_printedFrom {bytes : Bytes} {start position : Nat} {byte : UInt8} :
    .read position byte ∈ printedFrom start bytes ↔
      ∃ i, position = start + i ∧ bytes[i]? = some byte := by
  induction bytes generalizing start with
  | nil => simp [printedFrom]
  | cons first rest ih =>
      rw [printedFrom, List.mem_cons, ih]
      constructor
      · rintro (same | ⟨i, rfl, found⟩)
        · cases same
          exact ⟨0, rfl, rfl⟩
        · exact ⟨i + 1, by omega, found⟩
      · rintro ⟨i, rfl, found⟩
        cases i with
        | zero =>
            cases found
            exact .inl rfl
        | succ i => exact .inr ⟨i, by omega, found⟩

theorem flatMap_bytes_printedFrom (start : Nat) (bytes : Bytes) :
    (printedFrom start bytes).flatMap Printed.bytes = bytes := by
  induction bytes generalizing start with
  | nil => rfl
  | cons byte rest ih =>
      rw [printedFrom, List.flatMap_cons, ih, Printed.bytes, List.singleton_append]

/-- The loop ends, at the latest with the file, and has then printed the name. -/
theorem printLoop_eq (file : OpenFile) (stop : Nat) {rounds cursor : Nat}
    (enough : file.content.length - cursor < rounds) :
    printLoop file stop rounds cursor =
      some (printedFrom cursor (nameAt file.content cursor (stop - cursor))) := by
  have sized := file.sized
  induction rounds generalizing cursor with
  | zero => exact absurd enough (Nat.not_lt_zero _)
  | succ rounds ih =>
      rw [printLoop]
      by_cases before : cursor < stop
      · rw [if_pos before, file.preadExact_eq Nat.one_ne_zero]
        by_cases inside : cursor + 1 ≤ file.content.length
        · have split : file.content.drop cursor =
              file.content[cursor] :: file.content.drop (cursor + 1) :=
            List.drop_eq_getElem_cons inside
          obtain ⟨limit, left⟩ : ∃ limit, stop - cursor = limit + 1 := ⟨stop - cursor - 1, by omega⟩
          have rest : limit = stop - (cursor + 1) := by omega
          have small : cursor + 1 < 2 ^ 64 := by omega
          rw [if_pos inside, split, List.take_succ_cons, List.take_zero, nameAt, split, left,
            List.take_succ_cons, untilNul, List.takeWhile_cons]
          by_cases ended : file.content[cursor] = 0
          · simp [ended, printedFrom]
          · rw [Nat.mod_eq_of_lt small, ih (by omega), rest]
            simp [ended, printedFrom, nameAt, untilNul]
        · have past : file.content.drop cursor = [] := List.drop_eq_nil_of_le (by omega)
          rw [if_neg inside, nameAt, past, List.take_nil]
          rfl
      · have none : stop - cursor = 0 := by omega
        rw [if_neg before, none, nameAt, List.take_zero]
        rfl

theorem printStringFromFile_eq (checks : Bool) (file : OpenFile) {offset limit : Nat}
    (bounded : offset + limit < 2 ^ 64) :
    printStringFromFile checks file offset limit =
      .ok (printedFrom offset (nameAt file.content offset limit)) := by
  rw [printStringFromFile, plainAdd_of_lt checks bounded, Except.map,
    printLoop_eq file _ (by omega), Option.getD_some, Nat.add_sub_cancel_left]

/-- The line of a needed name. -/
def neededLine (content : Bytes) (info : ElfInfo) (needed : Nat) : List Printed :=
  neededPrefix :: printedFrom (info.strtabOffset + needed)
    (nameAt content (info.strtabOffset + needed) info.strtabSize) ++ [neededSuffix]

/-- The lines that are listed while no sum overflows. -/
theorem listNeeded_eq (checks : Bool) (file : OpenFile) (info : ElfInfo) {names : List Nat}
    (bounded : ∀ needed ∈ names, info.strtabOffset + needed + info.strtabSize < 2 ^ 64) :
    listNeeded checks file info names =
      ⟨.ok true, names.flatMap (neededLine file.content info) ++ [selfLine], []⟩ := by
  induction names with
  | nil => rfl
  | cons needed rest ih =>
      have small := bounded needed List.mem_cons_self
      have later := ih fun other member => bounded other (List.mem_cons_of_mem _ member)
      rw [listNeeded, plainAdd_of_lt checks (by omega)]
      simp only [ok_bind, printStringFromFile_eq checks file small, later]
      simp [neededLine]

/-- The ELF header of a file whose program headers follow it. -/
def encodeEhdr (phnum : Nat) : Bytes :=
  [0x7f, 0x45, 0x4c, 0x46, elfclass64, elfdata2lsb, 1] ++ List.replicate 9 0 ++
    littleEndian 2 etDyn ++ littleEndian 2 emX8664 ++ littleEndian 12 1 ++ littleEndian 8 64 ++
    littleEndian 12 0 ++ littleEndian 2 64 ++ littleEndian 2 56 ++ littleEndian 2 phnum ++
    littleEndian 6 0

end DynLinker.Cli
