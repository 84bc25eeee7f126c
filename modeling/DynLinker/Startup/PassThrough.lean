import DynLinker.Lib.MachineWord
import DynLinker.Startup.InitialStack
import DynLinker.Startup.SelfRelocProperties

/-! The start without a loader (`pass_through_entry` in `bootstrap/startup.rs`): a program
that needs nothing from the loader is entered at once. The program headers of the main
program are found through the auxiliary vector (`bootstrap/stack.rs`). -/

set_option autoImplicit false

namespace DynLinker.Startup

open Lib

namespace AuxValues

variable (aux : AuxValues) (memory : ByteMemory)

def phdrAt (index : Nat) : Option ElfPhdr :=
  if aux.phdr = 0 ∨ aux.phent < ElfPhdr.size then none
  else (checkedMul 64 index aux.phent).map fun offset =>
    ElfPhdr.read memory ((aux.phdr + offset) % 2 ^ 64)

def findPhdr (programType : Nat) : Option ElfPhdr :=
  ((List.range aux.phnum).filterMap (aux.phdrAt memory)).find? (·.programType = programType)

def loadBias : Nat :=
  ((aux.findPhdr memory ElfProgramType.phdr).map fun phdr =>
    wrappingSub 64 aux.phdr phdr.vaddr).getD 0

/-- `dynamic`; zero is the null pointer. -/
def dynamic (loadBias : Nat) : Nat :=
  ((aux.findPhdr memory ElfProgramType.dynamic).map fun phdr =>
    (loadBias + phdr.vaddr) % 2 ^ 64).getD 0

def hasTls : Bool := (aux.findPhdr memory ElfProgramType.tls).isSome

end AuxValues

namespace PassThrough

structure StartupInput where
  initial : InitialStack
  mainLoadBias : Nat
  mainDynamic : Nat
  rtldLoadBias : Nat
  direct : Bool
deriving DecidableEq

namespace StartupInput

/-- What `new` reads once the loader has relocated itself. -/
def read (memory : ByteMemory) (initial : InitialStack) (rtldEhdr rtldDynamic : Nat) :
    StartupInput :=
  let mainLoadBias := initial.aux.loadBias memory
  let mainDynamic := initial.aux.dynamic memory mainLoadBias
  {
    initial := initial
    mainLoadBias := mainLoadBias
    mainDynamic := mainDynamic
    rtldLoadBias := rtldEhdr
    direct := initial.aux.base = 0 || mainDynamic = rtldDynamic
  }

def passThroughEntry (input : StartupInput) (memory : ByteMemory) : Option Nat :=
  if !input.direct && input.initial.aux.entry ≠ 0 && !input.initial.aux.hasTls memory &&
    canPassThrough memory input.mainDynamic then some input.initial.aux.entry
  else none

end StartupInput

/-- The address that a program header stands for in a program loaded at a bias. -/
def loadedAt (bias : Nat) (phdr : ElfPhdr) : Nat := (bias + phdr.vaddr) % 2 ^ 64

/-- The main program as the kernel has mapped it: its headers lie where the auxiliary
vector says, at the bias that `PT_PHDR` shows or at none, and a dynamic table lies where
`PT_DYNAMIC` says. -/
structure MappedMain (memory : ByteMemory) (aux : AuxValues) (headers : List ElfPhdr)
    (bias : Nat) (table : Option DynamicTable) : Prop where
  phdr : aux.phdr ≠ 0
  phent : ElfPhdr.size ≤ aux.phent
  phnum : headers.length = aux.phnum
  fits : aux.phdr + aux.phnum * aux.phent ≤ 2 ^ 64
  mapped : ∀ i header, headers[i]? = some header →
    ElfPhdr.read memory (aux.phdr + i * aux.phent) = header
  word : bias < 2 ^ 64
  biased : match headers.find? (·.programType = ElfProgramType.phdr) with
    | some phdr => loadedAt bias phdr = aux.phdr
    | none => bias = 0
  dynamic : match headers.find? (·.programType = ElfProgramType.dynamic), table with
    | some phdr, some table => loadedAt bias phdr ≠ 0 ∧ table.At memory (loadedAt bias phdr)
    | none, none => True
    | _, _ => False

/-- A dynamic table that leaves a loader nothing to do. -/
structure NothingToDo (table : DynamicTable) : Prop where
  noNeeded : ∀ entry ∈ table.entries, entry.tag ≠ ElfDynamicTag.needed
  noRelasz : table.Vacant ElfDynamicTag.relasz
  noRelrsz : table.Vacant ElfDynamicTag.relrsz
  noJmprel : table.Vacant ElfDynamicTag.jmprel
  noPltrelsz : table.Vacant ElfDynamicTag.pltrelsz
  noLifecycle : ∀ tag ∈ lifecycleTags, table.Vacant tag

section Main

variable {memory : ByteMemory} {aux : AuxValues} {headers : List ElfPhdr} {bias : Nat}
  {table : Option DynamicTable}

theorem MappedMain.phdrAt_eq (main : MappedMain memory aux headers bias table) {i : Nat}
    {header : ElfPhdr} (found : headers[i]? = some header) :
    aux.phdrAt memory i = some header := by
  have counted : i < aux.phnum := main.phnum ▸ (List.getElem?_eq_some_iff.mp found).1
  have past : (i + 1) * aux.phent ≤ aux.phnum * aux.phent := Nat.mul_le_mul_right _ counted
  have nonzero : aux.phdr ≠ 0 := main.phdr
  have large : 56 ≤ aux.phent := main.phent
  have fits := main.fits
  rw [Nat.succ_mul] at past
  have small : i * aux.phent < 2 ^ 64 := by omega
  have inside : aux.phdr + i * aux.phent < 2 ^ 64 := by omega
  have accepted : ¬(aux.phdr = 0 ∨ aux.phent < ElfPhdr.size) := by
    rintro (zero | short)
    · exact nonzero zero
    · exact absurd short (Nat.not_lt.mpr main.phent)
  rw [AuxValues.phdrAt, if_neg accepted, checkedMul, if_pos small, Option.map_some,
    Nat.mod_eq_of_lt inside, main.mapped i header found]

/-- The code sees exactly the headers of the program. -/
theorem MappedMain.findPhdr_eq (main : MappedMain memory aux headers bias table)
    (programType : Nat) :
    aux.findPhdr memory programType = headers.find? (·.programType = programType) := by
  have seen : (List.range aux.phnum).map (aux.phdrAt memory) = headers.map some := by
    apply List.ext_getElem?
    intro i
    rw [List.getElem?_map, List.getElem?_map]
    cases found : headers[i]? with
    | some header =>
        have counted : i < aux.phnum := main.phnum ▸ (List.getElem?_eq_some_iff.mp found).1
        rw [List.getElem?_range counted, Option.map_some, main.phdrAt_eq found, Option.map_some]
    | none =>
        have past : (List.range aux.phnum).length ≤ i := by
          rw [List.length_range, ← main.phnum]
          exact List.getElem?_eq_none_iff.mp found
        rw [List.getElem?_eq_none past, Option.map_none, Option.map_none]
  have collected : (List.range aux.phnum).filterMap (aux.phdrAt memory) = headers := by
    have mapped := congrArg (List.filterMap id) seen
    rwa [List.filterMap_map, List.filterMap_map, Function.id_comp, Function.id_comp,
      List.filterMap_some] at mapped
  rw [AuxValues.findPhdr, collected]

theorem MappedMain.loadBias_eq (main : MappedMain memory aux headers bias table) :
    aux.loadBias memory = bias := by
  have biased := main.biased
  rw [AuxValues.loadBias, main.findPhdr_eq]
  cases found : headers.find? (·.programType = ElfProgramType.phdr) with
  | none =>
      rw [found] at biased
      exact biased.symm
  | some phdr =>
      rw [found] at biased
      exact wrappingSub_of_add main.word biased

theorem MappedMain.hasTls_eq_false_iff (main : MappedMain memory aux headers bias table) :
    aux.hasTls memory = false ↔ ∀ header ∈ headers, header.programType ≠ ElfProgramType.tls := by
  rw [AuxValues.hasTls, main.findPhdr_eq, Option.isSome_eq_false_iff, Option.isNone_iff_eq_none,
    List.find?_eq_none]
  simp

theorem NothingToDo.perm {left right : DynamicTable} (nothing : NothingToDo left)
    (same : left.entries.Perm right.entries) : NothingToDo right where
  noNeeded entry member := nothing.noNeeded entry (same.mem_iff.mpr member)
  noRelasz entry member := nothing.noRelasz entry (same.mem_iff.mpr member)
  noRelrsz entry member := nothing.noRelrsz entry (same.mem_iff.mpr member)
  noJmprel entry member := nothing.noJmprel entry (same.mem_iff.mpr member)
  noPltrelsz entry member := nothing.noPltrelsz entry (same.mem_iff.mpr member)
  noLifecycle tag listed entry member :=
    nothing.noLifecycle tag listed entry (same.mem_iff.mpr member)

theorem any_isLifecycle_eq_false_iff {table : DynamicTable} :
    table.entries.any RelocationTables.isLifecycle = false ↔
      ∀ tag ∈ lifecycleTags, table.Vacant tag := by
  rw [List.any_eq_false]
  unfold RelocationTables.isLifecycle DynamicTable.Vacant
  constructor
  · intro idle tag listed entry member tagged
    by_contra nonzero
    exact idle entry member (decide_eq_true ⟨tagged ▸ listed, nonzero⟩)
  · intro vacant entry member present
    obtain ⟨listed, nonzero⟩ := of_decide_eq_true present
    exact nonzero (vacant entry.tag listed entry member rfl)

/-- The scan accepts a table and finds it idle exactly if there is nothing to do. -/
theorem parse_canPassThrough_iff {table : DynamicTable} {dynamic : Nat}
    (held : table.At memory dynamic) (nonnull : dynamic ≠ 0)
    (within : table.entries.length < 4096) (noRepeats : table.NoRepeats) :
    (RelocationTables.parse memory dynamic).any RelocationTables.canPassThrough = true ↔
      NothingToDo table := by
  have parses (tables : RelocationTables) :
      RelocationTables.parse memory dynamic = some tables ↔
        SelfContained table ∧ tables = parsed table :=
    parse_eq_some_iff held nonnull within noRepeats
  have noRelasz := DynamicTable.value_eq_zero_iff noRepeats
    (show ElfDynamicTag.relasz ≠ ElfDynamicTag.needed by decide)
  have noRelrsz := DynamicTable.value_eq_zero_iff noRepeats
    (show ElfDynamicTag.relrsz ≠ ElfDynamicTag.needed by decide)
  have relaEmpty : (parsed table).rela.isEmpty = true ↔ table.value ElfDynamicTag.relasz = 0 :=
    decide_eq_true_iff
  have relrEmpty : (parsed table).relr.isEmpty = true ↔ table.value ElfDynamicTag.relrsz = 0 :=
    decide_eq_true_iff
  have idle : (parsed table).canPassThrough = true ↔
      table.value ElfDynamicTag.relasz = 0 ∧ table.value ElfDynamicTag.relrsz = 0 ∧
        table.entries.any RelocationTables.isLifecycle = false := by
    rw [RelocationTables.canPassThrough, Bool.and_eq_true, Bool.and_eq_true, relaEmpty, relrEmpty,
      Bool.not_eq_true', and_assoc, parsed]
  rw [noRelasz, noRelrsz, any_isLifecycle_eq_false_iff] at idle
  rw [Option.any_eq_true]
  constructor
  · rintro ⟨tables, found, passes⟩
    obtain ⟨accepted, rfl⟩ := (parses tables).mp found
    obtain ⟨rela, relr, lifecycle⟩ := idle.mp passes
    exact ⟨accepted.noNeeded, rela, relr, accepted.noJmprel, accepted.noPltrelsz, lifecycle⟩
  · intro nothing
    have accepted : SelfContained table :=
      ⟨nothing.noNeeded, nothing.noJmprel, nothing.noPltrelsz,
        fun nonzero => absurd (noRelasz.mpr nothing.noRelasz) nonzero,
        fun nonzero => absurd (noRelrsz.mpr nothing.noRelrsz) nonzero⟩
    exact ⟨parsed table, (parses _).mpr ⟨accepted, rfl⟩,
      idle.mpr ⟨nothing.noRelasz, nothing.noRelrsz, nothing.noLifecycle⟩⟩

theorem MappedMain.dynamic_eq (main : MappedMain memory aux headers bias table) :
    aux.dynamic memory bias =
      ((headers.find? (·.programType = ElfProgramType.dynamic)).map (loadedAt bias)).getD 0 := by
  rw [AuxValues.dynamic, main.findPhdr_eq]
  rfl

theorem MappedMain.canPassThrough_iff (main : MappedMain memory aux headers bias table)
    (within : ∀ found ∈ table, found.entries.length < 4096)
    (noRepeats : ∀ found ∈ table, found.NoRepeats) :
    canPassThrough memory (aux.dynamic memory bias) = true ↔
      ∀ found ∈ table, NothingToDo found := by
  have lies := main.dynamic
  rw [main.dynamic_eq]
  cases located : headers.find? (·.programType = ElfProgramType.dynamic) with
  | none =>
      rw [located] at lies
      cases table with
      | none => simp [canPassThrough]
      | some found => cases lies
  | some phdr =>
      rw [located] at lies
      cases table with
      | none => cases lies
      | some found =>
          obtain ⟨nonnull, held⟩ := lies
          have scanned := parse_canPassThrough_iff held nonnull (within found rfl)
            (noRepeats found rfl)
          simpa [canPassThrough, nonnull] using scanned

theorem MappedMain.direct_eq {initial : InitialStack}
    (main : MappedMain memory initial.aux headers bias table) (rtldEhdr rtldDynamic : Nat) :
    (StartupInput.read memory initial rtldEhdr rtldDynamic).direct =
      (initial.aux.base = 0 ||
        ((headers.find? (·.programType = ElfProgramType.dynamic)).map (loadedAt bias)).getD 0 =
          rtldDynamic) := by
  rw [← main.dynamic_eq, ← main.loadBias_eq]
  rfl

theorem MappedMain.passThroughEntry_eq {initial : InitialStack}
    (main : MappedMain memory initial.aux headers bias table) (rtldEhdr rtldDynamic : Nat)
    (within : ∀ found ∈ table, found.entries.length < 4096)
    (noRepeats : ∀ found ∈ table, found.NoRepeats) (entry : Nat) :
    (StartupInput.read memory initial rtldEhdr rtldDynamic).passThroughEntry memory = some entry ↔
      entry = initial.aux.entry ∧
      (StartupInput.read memory initial rtldEhdr rtldDynamic).direct = false ∧
      initial.aux.entry ≠ 0 ∧
      (∀ header ∈ headers, header.programType ≠ ElfProgramType.tls) ∧
      ∀ found ∈ table, NothingToDo found := by
  have passes := main.canPassThrough_iff within noRepeats
  rw [← main.loadBias_eq] at passes
  rw [← main.hasTls_eq_false_iff, ← passes, StartupInput.passThroughEntry]
  simp only [Option.ite_none_right_eq_some, Option.some.injEq, Bool.and_eq_true, Bool.not_eq_true',
    decide_eq_true_eq]
  constructor
  · rintro ⟨⟨⟨⟨indirect, nonzero⟩, noTls⟩, idle⟩, rfl⟩
    exact ⟨rfl, indirect, nonzero, noTls, idle⟩
  · rintro ⟨rfl, indirect, nonzero, noTls, idle⟩
    exact ⟨⟨⟨⟨indirect, nonzero⟩, noTls⟩, idle⟩, rfl⟩

/-- The program is entered at once exactly if it is not started directly, has an entry and
no thread-local storage, and its dynamic table leaves nothing to do; the order of that
table's entries does not matter. -/
theorem passThroughEntry_iff (memory : ByteMemory) (initial : InitialStack)
    (rtldEhdr rtldDynamic : Nat) (headers : List ElfPhdr) (bias : Nat)
    (table : Option DynamicTable) (main : MappedMain memory initial.aux headers bias table)
    (within : ∀ found ∈ table, found.entries.length < 4096)
    (noRepeats : ∀ found ∈ table, found.NoRepeats) :
    (∀ entry : Nat,
      (StartupInput.read memory initial rtldEhdr rtldDynamic).passThroughEntry memory = some entry ↔
        entry = initial.aux.entry ∧
        (StartupInput.read memory initial rtldEhdr rtldDynamic).direct = false ∧
        initial.aux.entry ≠ 0 ∧
        (∀ header ∈ headers, header.programType ≠ ElfProgramType.tls) ∧
        ∀ found ∈ table, NothingToDo found) ∧
    ∀ (found other : DynamicTable) (reordered : ByteMemory), table = some found →
      found.entries.Perm other.entries →
      MappedMain reordered initial.aux headers bias (some other) →
      (StartupInput.read reordered initial rtldEhdr rtldDynamic).passThroughEntry reordered =
        (StartupInput.read memory initial rtldEhdr rtldDynamic).passThroughEntry memory := by
  refine ⟨main.passThroughEntry_eq rtldEhdr rtldDynamic within noRepeats, ?_⟩
  rintro found other reordered rfl same otherMain
  have bounded : ∀ listed ∈ some other, listed.entries.length < 4096 := by
    intro listed member
    obtain rfl := Option.mem_some_iff.mp member
    exact same.length_eq ▸ within found rfl
  have distinct : ∀ listed ∈ some other, listed.NoRepeats := by
    intro listed member
    obtain rfl := Option.mem_some_iff.mp member
    exact (noRepeats found rfl).perm same
  have nothing : (∀ listed ∈ some other, NothingToDo listed) ↔
      ∀ listed ∈ some found, NothingToDo listed := by
    simp only [Option.mem_some_iff, forall_eq']
    exact ⟨fun idle => idle.perm same.symm, fun idle => idle.perm same⟩
  ext entry
  rw [otherMain.passThroughEntry_eq rtldEhdr rtldDynamic bounded distinct,
    main.passThroughEntry_eq rtldEhdr rtldDynamic within noRepeats, otherMain.direct_eq,
    main.direct_eq, nothing]

end Main

/-- The table of a program that was linked without libraries. -/
def idleTable : DynamicTable :=
  .ofEntries [⟨ElfDynamicTag.hash, 0x180⟩, ⟨ElfDynamicTag.strtab, 0x1c0⟩,
    ⟨ElfDynamicTag.relasz, 0⟩] (by decide)

def idleHeaders : List ElfPhdr :=
  [⟨ElfProgramType.phdr, 0x40, 0x40, 112⟩, ⟨ElfProgramType.dynamic, 0x200, 0x200, 64⟩]

def idleMemory : ByteMemory :=
  (ByteMemory.write (fun _ => 0) 0x10040 (idleHeaders.flatMap ElfPhdr.encode)).write 0x10200
    (idleTable.all.flatMap ElfDyn.encode)

def idleStart : InitialStack :=
  .parse [1, 0x7ff0, 0, 0, atPhdr, 0x10040, atPhent, 56, atPhnum, 2, atBase, 0x7000,
    atEntry, 0x10100, atNull, 0]

theorem passThroughEntry_iff_idle :
    (StartupInput.read idleMemory idleStart 0x7000 0x7100).passThroughEntry idleMemory =
      some 0x10100 := by
  have main : MappedMain idleMemory idleStart.aux idleHeaders 0x10000 (some idleTable) := {
    phdr := by decide
    phent := by decide
    phnum := by decide
    fits := by decide
    mapped := by
      intro i header found
      rcases i with _ | _ | i
      · cases found
        decide +kernel
      · cases found
        decide +kernel
      · cases found
    word := by decide
    biased := rfl
    dynamic := ⟨by decide, by decide +kernel⟩
  }
  have settled := (passThroughEntry_iff idleMemory idleStart 0x7000 0x7100 idleHeaders 0x10000
    (some idleTable) main (by decide) (by decide)).1 0x10100
  refine settled.mpr ⟨by decide, by decide +kernel, by decide, by decide, ?_⟩
  intro found member
  obtain rfl := Option.mem_some_iff.mp member
  exact ⟨by decide, by decide, by decide, by decide, by decide, by decide⟩

end PassThrough

end DynLinker.Startup
