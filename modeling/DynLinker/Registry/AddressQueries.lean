import DynLinker.Registry.PhdrWalkProperties
import DynLinker.Registry.Process

/-! The two ways in which an unwinder finds the tables of an address: `_dl_find_object`
(`api/dl_find_object.rs`), and a walk over what `dl_iterate_phdr` reports. -/

set_option autoImplicit false

namespace DynLinker.Registry

open Lib Loader ElfLoader

variable {Ctx : Type} [ElfLoader Ctx]

def ptLoad : Nat := 1

/-- `PT_GNU_EH_FRAME`. -/
def gnuEhFrame : Nat := 0x6474e550

/-- The table of an image, zero if it has none. -/
def ehFrameOf (base : Nat) (phdrs : List Phdr) : Nat :=
  ((phdrs.find? fun phdr => phdr.programType = gnuEhFrame).map fun phdr => base + phdr.vaddr).getD 0

/-- A LOAD segment covers the address. -/
def LoadsAt (base : Nat) (phdrs : List Phdr) (addr : Nat) : Prop :=
  ∃ phdr ∈ phdrs, phdr.programType = ptLoad ∧ base + phdr.vaddr ≤ addr ∧
    addr < base + phdr.vaddr + phdr.memsz

instance (base : Nat) (phdrs : List Phdr) (addr : Nat) : Decidable (LoadsAt base phdrs addr) :=
  inferInstanceAs (Decidable (∃ phdr ∈ phdrs, _))

structure DlFindObject where
  dlfoFlags : Nat
  dlfoMapStart : Nat
  dlfoMapEnd : Nat
  dlfoLinkMap : LinkMapAddress
  dlfoEhFrame : Nat
  dlfoReserved : List Nat
deriving DecidableEq

/-- `segments().range_at(address)`. -/
def rangeAt (handle : ModuleHandle) (addr : Nat) : Option (Nat × Nat) :=
  handle.ranges.find? fun range => range.1 ≤ addr ∧ addr < range.2

namespace Manager

/-- `dl_find_object`: `none` where it returns -1. -/
def dlFindObject (manager : Manager Ctx) (addr : Nat) : Except Panic (Option DlFindObject) :=
  match manager.moduleByAddr addr with
  | none => .ok none
  | some module => do
      let dso ← expectSome "loaded_by_addr must return an ELF module" module.elf
      let userData ← expectSome "loaded module must have extra data" dso.userData
      let mappedRange ← expectSome
        "loaded_by_addr must return an image containing the address" (rangeAt module addr)
      return some {
        dlfoFlags := 0
        dlfoMapStart := dso.base
        dlfoMapEnd := mappedRange.2
        dlfoLinkMap := userData.linkMap
        dlfoEhFrame := ehFrameOf dso.base (dso.phdrs.getD [])
        dlfoReserved := List.replicate 7 0
      }

def dlFindDsoForObject (manager : Manager Ctx) (addr : Nat) :
    Except Panic (Option LinkMapAddress) :=
  match manager.moduleByAddr addr with
  | none => .ok none
  | some module => do
      let dso ← expectSome "loaded_by_addr must return an ELF module" module.elf
      let userData ← expectSome "loaded module must have extra data" dso.userData
      return some userData.linkMap

/-- `dli_fbase` of `dladdr`. -/
def dladdrBase (manager : Manager Ctx) (addr : Nat) : Except Panic (Option Nat) :=
  match manager.libraryByAddr addr with
  | none => .ok none
  | some (dylib, _) => do
      let module ← dylib.module
      return some module.base

/-- What a callback that keeps everything is given. -/
def reports (manager : Manager Ctx) (tlsDataPtr : Nat → Nat) :
    Except Panic (Except Empty (List DlPhdrInfo)) :=
  manager.forEachPhdr tlsDataPtr (fun seen info => .ok (seen ++ [info])) []

end Manager

/-- The base and the table that an unwinder takes from the walk: those of the first object
with a LOAD segment over the address. -/
def unwindByWalk (reports : List DlPhdrInfo) (addr : Nat) : Option (Nat × Nat) :=
  (reports.find? fun report => LoadsAt report.libBase report.phdrs addr).map fun report =>
    (report.libBase, ehFrameOf report.libBase report.phdrs)

/-- The same from `_dl_find_object`. -/
def unwindByFind (found : Option DlFindObject) : Option (Nat × Nat) :=
  found.map fun info => (info.dlfoMapStart, info.dlfoEhFrame)

/-- The committed modules are mapped apart from one another, and the crate finds the one
that covers an address. -/
structure MappedApart (ctx : Ctx) : Prop where
  apart : (view ctx).modules.Pairwise fun left right =>
    ∀ leftRange ∈ left.handle.ranges, ∀ rightRange ∈ right.handle.ranges,
      leftRange.2 ≤ rightRange.1 ∨ rightRange.2 ≤ leftRange.1
  located : ∀ record ∈ (view ctx).modules, ∀ addr, record.handle.Contains addr →
    moduleIdAt ctx addr ≠ none

/-- The crate has mapped the whole of every LOAD segment. -/
def SegmentsMapped (view : ContextView) : Prop :=
  ∀ record ∈ view.modules, ∀ elf, record.handle.elf = some elf →
    ∀ addr, LoadsAt elf.base (elf.phdrs.getD []) addr → record.handle.Contains addr

/-- An ELF object without the user data that the linker attaches. -/
def Bare (handle : ModuleHandle) : Prop :=
  ∃ elf, handle.elf = some elf ∧ elf.userData = none

/-- What the queries answer: when each of them panics, and otherwise that all of them name
the one ELF module that covers the address, and so does a walk over the headers if a LOAD
segment covers it. -/
structure QueriesAgree (manager : Manager Ctx) (tlsDataPtr : Nat → Nat) (addr : Nat) : Prop where
  findPanics : (∃ panic, manager.dlFindObject addr = .error panic) ↔
    ∃ record ∈ manager.view.modules, record.handle.Contains addr ∧ Bare record.handle
  dsoPanics : (∃ panic, manager.dlFindDsoForObject addr = .error panic) ↔
    ∃ record ∈ manager.view.modules, record.handle.Contains addr ∧ Bare record.handle
  dladdrPanics : (∃ panic, manager.dladdrBase addr = .error panic) ↔
    ∃ record ∈ manager.view.modules, record.handle.Contains addr ∧ record.handle.elf = none
  dladdrMissed : manager.dladdrBase addr = .ok none ↔
    ∀ record ∈ manager.view.modules, ¬ record.handle.Contains addr
  dladdrFound : ∀ base, manager.dladdrBase addr = .ok (some base) ↔
    ∃ record ∈ manager.view.modules,
      record.handle.Contains addr ∧ record.handle.elf.map (·.base) = some base
  walkPanics : (∃ panic, manager.reports tlsDataPtr = .error panic) ↔
    ∃ record ∈ manager.view.modules, Bare record.handle
  missed : manager.dlFindObject addr = .ok none ↔
    ∀ record ∈ manager.view.modules, record.handle.Contains addr → record.handle.elf = none
  found : ∀ found, manager.dlFindObject addr = .ok found →
    manager.dlFindDsoForObject addr = .ok (found.map (·.dlfoLinkMap)) ∧
    ∀ info, found = some info → manager.dladdrBase addr = .ok (some info.dlfoMapStart) ∧
      addr < info.dlfoMapEnd ∧ ∃ record ∈ manager.view.modules,
        record.handle.Contains addr ∧ record.handle.linkMap = some info.dlfoLinkMap
  walked : ∀ reports, manager.reports tlsDataPtr = .ok (.ok reports) →
    ∃ found, manager.dlFindObject addr = .ok found ∧
      (∀ answer, unwindByWalk reports addr = some answer → unwindByFind found = some answer) ∧
      (unwindByWalk reports addr = none ↔ ∀ record ∈ manager.view.modules, ∀ elf,
        record.handle.elf = some elf → ¬ LoadsAt elf.base (elf.phdrs.getD []) addr)

theorem rangeAt_isSome {handle : ModuleHandle} {addr : Nat} :
    (rangeAt handle addr).isSome ↔ handle.Contains addr := by
  simp [rangeAt, ModuleHandle.Contains]

theorem MappedApart.unique {ctx : Ctx} (mapped : MappedApart ctx) {left right : ModuleRecord}
    (leftListed : left ∈ (view ctx).modules) (rightListed : right ∈ (view ctx).modules) {addr : Nat}
    (inLeft : left.handle.Contains addr) (inRight : right.handle.Contains addr) : left = right := by
  let Agree (left right : ModuleRecord) : Prop :=
    left.handle.Contains addr → right.handle.Contains addr → left = right
  have forwards : (view ctx).modules.Pairwise Agree := by
    apply mapped.apart.imp
    intro left right apart ⟨leftRange, fromLeft, above⟩ ⟨rightRange, fromRight, below⟩
    have disjoint := apart leftRange fromLeft rightRange fromRight
    omega
  have backwards : (view ctx).modules.Pairwise (flip Agree) :=
    forwards.imp fun agree inRight inLeft => (agree inLeft inRight).symm
  exact List.Pairwise.forall_of_forall_of_flip (fun _ _ _ _ => rfl) forwards backwards
    leftListed rightListed inLeft inRight

/-- What holds of a module that covers the address is said of the only one. -/
theorem MappedApart.exists_iff {manager : Manager Ctx}
    (mapped : MappedApart manager.linkCtx) {record : ModuleRecord}
    (listed : record ∈ manager.view.modules) {addr : Nat} (covers : record.handle.Contains addr)
    (holds : ModuleHandle → Prop) :
    (∃ other ∈ manager.view.modules, other.handle.Contains addr ∧ holds other.handle) ↔
      holds record.handle := by
  constructor
  · rintro ⟨other, known, contains, same⟩
    rwa [mapped.unique listed known covers contains]
  · exact fun same => ⟨record, listed, covers, same⟩

theorem MappedApart.forall_iff {manager : Manager Ctx}
    (mapped : MappedApart manager.linkCtx) {record : ModuleRecord}
    (listed : record ∈ manager.view.modules) {addr : Nat} (covers : record.handle.Contains addr)
    (holds : ModuleHandle → Prop) :
    (∀ other ∈ manager.view.modules, other.handle.Contains addr → holds other.handle) ↔
      holds record.handle := by
  constructor
  · exact fun all => all record listed covers
  · intro same other known contains
    rwa [mapped.unique known listed contains covers]

theorem linked_elf {handle : ModuleHandle} (linked : handle.linkMap ≠ none) :
    ∃ elf data, handle.elf = some elf ∧ elf.userData = some data ∧
      handle.linkMap = some data.linkMap := by
  obtain ⟨address, linked⟩ := Option.ne_none_iff_exists'.mp linked
  obtain ⟨elf, isElf, chosen⟩ := Option.bind_eq_some_iff.mp linked
  obtain ⟨data, supplied, same⟩ := Option.bind_eq_some_iff.mp chosen
  cases same
  exact ⟨elf, data, isElf, supplied, linked⟩

section Walk

variable {tlsDataPtr : Nat → Nat} {adds subs : Nat}

theorem phdrInfo_fields {snapshot : LibrarySnapshot} {info : DlPhdrInfo} {elf : ElfModule}
    (isElf : snapshot.inner.elf = some elf)
    (reported : phdrInfo tlsDataPtr adds subs snapshot = .ok (some info)) :
    info.library = snapshot ∧ info.libBase = elf.base ∧ info.phdrs = elf.phdrs.getD [] := by
  obtain ⟨found, downcast, reported⟩ := bind_eq_ok.mp reported
  obtain ⟨data, _, reported⟩ := bind_eq_ok.mp reported
  cases isElf.symm.trans (expectSome_eq_ok.mp downcast)
  simp only at reported
  split at reported
  · cases reported
  · cases reported
    exact ⟨rfl, rfl, rfl⟩

theorem visitPhdrs_collect {snapshots : List LibrarySnapshot}
    (owned : ∀ snapshot ∈ snapshots, snapshot.inner.linkMap ≠ none) (seen : List DlPhdrInfo) :
    ∃ reports, (visitPhdrs tlsDataPtr adds subs (fun seen info => .ok (seen ++ [info])) seen
        snapshots : Except Panic (Except Empty (List DlPhdrInfo))) = .ok (.ok (seen ++ reports)) ∧
      ∀ info, info ∈ reports ↔
        ∃ snapshot ∈ snapshots, phdrInfo tlsDataPtr adds subs snapshot = .ok (some info) := by
  induction snapshots generalizing seen with
  | nil => exact ⟨[], by simp [visitPhdrs], by simp⟩
  | cons snapshot rest ih =>
      obtain ⟨found, reported⟩ := phdrInfo_total (owned snapshot List.mem_cons_self) tlsDataPtr adds
        subs
      have later := fun seen => ih (fun other listed => owned other (List.mem_cons_of_mem _ listed))
        seen
      cases found with
      | none =>
          obtain ⟨reports, visited, listed⟩ := later seen
          refine ⟨reports, ?_, ?_⟩
          · rw [visitPhdrs, reported]
            exact visited
          · intro info
            simp [listed, reported]
      | some first =>
          obtain ⟨reports, visited, listed⟩ := later (seen ++ [first])
          refine ⟨first :: reports, ?_, ?_⟩
          · rw [visitPhdrs, reported, ok_bind]
            rw [List.append_assoc] at visited
            exact visited
          · intro info
            simp [listed, reported, eq_comm]

theorem phdrInfo_bare {snapshot : LibrarySnapshot} (bare : Bare snapshot.inner) :
    ∃ panic, phdrInfo tlsDataPtr adds subs snapshot = .error panic := by
  obtain ⟨elf, isElf, unattached⟩ := bare
  simp [phdrInfo, LibrarySnapshot.module, isElf, unattached, expectSome, bind, Except.bind]

/-- The walk reaches the object that it cannot report, or panics before. -/
theorem visitPhdrs_bare {snapshots : List LibrarySnapshot}
    (bare : ∃ snapshot ∈ snapshots, Bare snapshot.inner) (seen : List DlPhdrInfo) :
    ∃ panic, (visitPhdrs tlsDataPtr adds subs (fun seen info => .ok (seen ++ [info])) seen
        snapshots : Except Panic (Except Empty (List DlPhdrInfo))) = .error panic := by
  induction snapshots generalizing seen with
  | nil => simp at bare
  | cons snapshot rest ih =>
      rw [visitPhdrs]
      cases reported : phdrInfo tlsDataPtr adds subs snapshot with
      | error panic => exact ⟨panic, rfl⟩
      | ok found =>
          have later : ∃ snapshot ∈ rest, Bare snapshot.inner := by
            obtain ⟨other, listed, unattached⟩ := bare
            rcases List.mem_cons.mp listed with rfl | member
            · obtain ⟨panic, refused⟩ :=
                @phdrInfo_bare tlsDataPtr adds subs other unattached
              cases reported.symm.trans refused
            · exact ⟨other, member, unattached⟩
          cases found with
          | none => exact ih later seen
          | some info => exact ih later (seen ++ [info])

end Walk

section Agreement

variable [LawfulElfLoader Ctx] {manager : Manager Ctx} {addr : Nat}

theorem moduleIdAt_eq (unique : (manager.view.order.map Prod.fst).Nodup) {id : ModuleId}
    (located : moduleIdAt manager.linkCtx addr = some id) :
    ∃ record ∈ manager.view.modules, record.handle.Contains addr ∧
      manager.view.Committed id ∧
      (∃ scope, loadGroup manager.linkCtx id = .ok scope ∧ scope.head? = some record.handle) := by
  obtain ⟨record, listed, rfl, covers⟩ := LawfulElfLoader.moduleIdAt_contains _ _ _ located
  have committed : manager.view.Committed record.id := ⟨record, listed, rfl⟩
  obtain ⟨scope, grouped⟩ := LawfulElfLoader.loadGroup_total manager.linkCtx record.id committed
  obtain ⟨root, first, head, _, _⟩ := LawfulElfLoader.loadGroup_spec _ _ _ grouped
  have entry : (record.id, record.handle) ∈ manager.view.order := List.mem_map_of_mem listed
  have same : root.handle = record.handle := by
    have handle : manager.view.handleOf record.id = some record.handle :=
      handleOf_of_order unique entry
    exact Option.some.inj ((ContextView.handleOf_of_find first).symm.trans handle)
  exact ⟨record, listed, covers, committed, scope, grouped, by rw [head, same]⟩

/-- What the lookups by address find of the module that covers it. -/
theorem lookups_covered (unique : (manager.view.order.map Prod.fst).Nodup)
    (mapped : MappedApart manager.linkCtx) {record : ModuleRecord}
    (listed : record ∈ manager.view.modules) (covers : record.handle.Contains addr) :
    manager.moduleByAddr addr = record.handle.elf.map (fun _ => record.handle) ∧
      ∃ opened next, manager.libraryByAddr addr = some (opened, next) ∧
        opened.scope.head? = some record.handle := by
  obtain ⟨id, located⟩ := Option.ne_none_iff_exists'.mp (mapped.located record listed addr covers)
  obtain ⟨found, member, contains, committed, scope, grouped, head⟩ :=
    moduleIdAt_eq unique located
  cases mapped.unique member listed contains covers
  obtain ⟨opened, next, opening⟩ := Manager.openModule_total committed
  cases grouped.symm.trans (Manager.openModule_spec opening).1
  refine ⟨?_, opened, next, by simp [Manager.libraryByAddr, located, opening], head⟩
  cases isElf : record.handle.elf with
  | none => simp [Manager.moduleByAddr, located, grouped, Except.toOption, head, isElf]
  | some elf => simp [Manager.moduleByAddr, located, grouped, Except.toOption, head, isElf]

theorem queries_covered (unique : (manager.view.order.map Prod.fst).Nodup)
    (mapped : MappedApart manager.linkCtx) {record : ModuleRecord}
    (listed : record ∈ manager.view.modules) (covers : record.handle.Contains addr)
    {elf : ElfModule} (isElf : record.handle.elf = some elf) {data : ExtraData}
    (supplied : elf.userData = some data) :
    ∃ range, rangeAt record.handle addr = some range ∧
      manager.dlFindObject addr = .ok (some ⟨0, elf.base, range.2, data.linkMap,
        ehFrameOf elf.base (elf.phdrs.getD []), List.replicate 7 0⟩) ∧
      manager.dlFindDsoForObject addr = .ok (some data.linkMap) ∧
      manager.dladdrBase addr = .ok (some elf.base) := by
  obtain ⟨byAddr, opened, next, library, head⟩ := lookups_covered unique mapped listed covers
  obtain ⟨range, covered⟩ := Option.isSome_iff_exists.mp (rangeAt_isSome.mpr covers)
  rw [isElf, Option.map_some] at byAddr
  refine ⟨range, covered, ?_, ?_, ?_⟩
  · simp [Manager.dlFindObject, byAddr, isElf, supplied, covered, expectSome, bind, Except.bind,
      pure, Except.pure]
  · simp [Manager.dlFindDsoForObject, byAddr, isElf, supplied, expectSome, bind, Except.bind, pure,
      Except.pure]
  · simp [Manager.dladdrBase, library, OpenedLibrary.module, head, isElf, expectSome, bind,
      Except.bind, pure, Except.pure]

/-- Without user data the two lookups of the object panic. -/
theorem queries_bare (unique : (manager.view.order.map Prod.fst).Nodup)
    (mapped : MappedApart manager.linkCtx) {record : ModuleRecord}
    (listed : record ∈ manager.view.modules) (covers : record.handle.Contains addr)
    {elf : ElfModule} (isElf : record.handle.elf = some elf) (unattached : elf.userData = none) :
    (∃ panic, manager.dlFindObject addr = .error panic) ∧
      (∃ panic, manager.dlFindDsoForObject addr = .error panic) ∧
      manager.dladdrBase addr = .ok (some elf.base) := by
  obtain ⟨byAddr, opened, next, library, head⟩ := lookups_covered unique mapped listed covers
  rw [isElf, Option.map_some] at byAddr
  refine ⟨?_, ?_, ?_⟩
  · simp [Manager.dlFindObject, byAddr, isElf, unattached, expectSome, bind, Except.bind]
  · simp [Manager.dlFindDsoForObject, byAddr, isElf, unattached, expectSome, bind, Except.bind]
  · simp [Manager.dladdrBase, library, OpenedLibrary.module, head, isElf, expectSome, bind,
      Except.bind, pure, Except.pure]

/-- A module that is no ELF object is unknown to the lookups of the object. -/
theorem queries_foreign (unique : (manager.view.order.map Prod.fst).Nodup)
    (mapped : MappedApart manager.linkCtx) {record : ModuleRecord}
    (listed : record ∈ manager.view.modules) (covers : record.handle.Contains addr)
    (foreign_ : record.handle.elf = none) :
    manager.dlFindObject addr = .ok none ∧ manager.dlFindDsoForObject addr = .ok none ∧
      ∃ panic, manager.dladdrBase addr = .error panic := by
  obtain ⟨byAddr, opened, next, library, head⟩ := lookups_covered unique mapped listed covers
  rw [foreign_, Option.map_none] at byAddr
  refine ⟨?_, ?_, ?_⟩
  · simp [Manager.dlFindObject, byAddr]
  · simp [Manager.dlFindDsoForObject, byAddr]
  · simp [Manager.dladdrBase, library, OpenedLibrary.module, head, foreign_, expectSome, bind,
      Except.bind]

theorem queries_uncovered
    (uncovered : ∀ record ∈ manager.view.modules, ¬ record.handle.Contains addr) :
    manager.dlFindObject addr = .ok none ∧ manager.dlFindDsoForObject addr = .ok none ∧
      manager.dladdrBase addr = .ok none := by
  have unknown : moduleIdAt manager.linkCtx addr = none := by
    by_contra present
    obtain ⟨id, located⟩ := Option.ne_none_iff_exists'.mp present
    obtain ⟨record, listed, _, covers⟩ := LawfulElfLoader.moduleIdAt_contains _ _ _ located
    exact uncovered record listed covers
  simp [Manager.dlFindObject, Manager.dlFindDsoForObject, Manager.dladdrBase, Manager.moduleByAddr,
    Manager.libraryByAddr, unknown]

theorem mem_librarySnapshot (unique : (manager.view.order.map Prod.fst).Nodup)
    {handle : ModuleHandle} :
    (∃ snapshot ∈ manager.librarySnapshot.1, snapshot.inner = handle) ↔
      (∃ record ∈ manager.view.modules, record.handle = handle) ∧ handle.elf.isSome = true := by
  have inners : manager.librarySnapshot.1.map (·.inner) =
      (manager.view.order.filter fun entry => entry.2.elf.isSome).map Prod.snd := by
    have entries := congrArg (List.map Prod.snd) (librarySnapshot_entries unique)
    rw [List.map_map, List.map_map] at entries
    exact entries
  calc (∃ snapshot ∈ manager.librarySnapshot.1, snapshot.inner = handle)
      ↔ handle ∈ manager.librarySnapshot.1.map (·.inner) := List.mem_map.symm
    _ ↔ _ := by
      rw [inners]
      simp [ContextView.order]

theorem linked_of_attached {handle : ModuleHandle} (isElf : handle.elf.isSome = true)
    (attached : ¬ Bare handle) : handle.linkMap ≠ none := by
  obtain ⟨elf, isElf⟩ := Option.isSome_iff_exists.mp isElf
  cases supplied : elf.userData with
  | none => exact absurd ⟨elf, isElf, supplied⟩ attached
  | some data => simp [ModuleHandle.linkMap, isElf, supplied]

/-- Unless it meets a bare object, the walk reports exactly the modules with headers. -/
theorem reports_spec (unique : (manager.view.order.map Prod.fst).Nodup)
    (attached : ¬ ∃ record ∈ manager.view.modules, Bare record.handle) (tlsDataPtr : Nat → Nat) :
    ∃ reports, manager.reports tlsDataPtr = .ok (.ok reports) ∧
      (∀ report ∈ reports, ∃ record ∈ manager.view.modules, ∃ elf,
        record.handle.elf = some elf ∧ report.libBase = elf.base ∧
        report.phdrs = elf.phdrs.getD []) ∧
      ∀ record ∈ manager.view.modules, ∀ elf, record.handle.elf = some elf →
        elf.phdrs.getD [] ≠ [] → ∃ report ∈ reports, report.libBase = elf.base ∧
          report.phdrs = elf.phdrs.getD [] := by
  have snapshots : ∀ snapshot ∈ manager.librarySnapshot.1,
      (∃ record ∈ manager.view.modules, record.handle = snapshot.inner) ∧
        snapshot.inner.elf.isSome = true :=
    fun snapshot member => (mem_librarySnapshot unique).mp ⟨snapshot, member, rfl⟩
  have linked : ∀ snapshot ∈ manager.librarySnapshot.1, snapshot.inner.linkMap ≠ none := by
    intro snapshot member
    obtain ⟨⟨record, listed, same⟩, isElf⟩ := snapshots snapshot member
    exact linked_of_attached isElf fun bare => attached ⟨record, listed, same ▸ bare⟩
  obtain ⟨reports, visited, listed⟩ := visitPhdrs_collect linked []
  refine ⟨reports, visited, ?_, ?_⟩
  · intro report reported
    obtain ⟨snapshot, member, made⟩ := (listed report).mp reported
    obtain ⟨⟨record, recorded, same⟩, _⟩ := snapshots snapshot member
    obtain ⟨elf, data, isElf, _, _⟩ := linked_elf (linked snapshot member)
    obtain ⟨_, base, phdrs⟩ := phdrInfo_fields isElf made
    exact ⟨record, recorded, elf, same ▸ isElf, base, phdrs⟩
  · intro record recorded elf isElf headers
    obtain ⟨snapshot, member, same⟩ := (mem_librarySnapshot unique).mpr
      ⟨⟨record, recorded, rfl⟩, by simp [isElf]⟩
    obtain ⟨found, made⟩ := phdrInfo_total (linked snapshot member) tlsDataPtr manager.adds
      manager.subs
    rw [← same] at isElf
    rcases phdrInfo_spec made with ⟨_, bare⟩ | ⟨report, rfl, _, _⟩
    · simp [hasPhdrs, isElf, headers] at bare
    · obtain ⟨_, base, phdrs⟩ := phdrInfo_fields isElf made
      exact ⟨report, (listed report).mpr ⟨snapshot, member, made⟩, base, phdrs⟩

theorem reports_panics_iff (unique : (manager.view.order.map Prod.fst).Nodup)
    (tlsDataPtr : Nat → Nat) :
    (∃ panic, manager.reports tlsDataPtr = .error panic) ↔
      ∃ record ∈ manager.view.modules, Bare record.handle := by
  constructor
  · rintro ⟨panic, refused⟩
    by_contra attached
    obtain ⟨reports, walked, _⟩ := reports_spec unique attached tlsDataPtr
    cases refused.symm.trans walked
  · rintro ⟨record, listed, elf, isElf, unattached⟩
    obtain ⟨snapshot, member, same⟩ := (mem_librarySnapshot unique).mpr
      ⟨⟨record, listed, rfl⟩, by simp [isElf]⟩
    exact visitPhdrs_bare ⟨snapshot, member, elf, same ▸ isElf, unattached⟩ []

/-- An unwinder that walks is led to the module that the direct query finds, by a LOAD
segment of it. -/
theorem walk_agrees (unique : (manager.view.order.map Prod.fst).Nodup)
    (mapped : MappedApart manager.linkCtx) (segments : SegmentsMapped manager.view)
    {tlsDataPtr : Nat → Nat} {reports : List DlPhdrInfo}
    (walked : manager.reports tlsDataPtr = .ok (.ok reports)) :
    (∀ answer, unwindByWalk reports addr = some answer →
      ∃ found, manager.dlFindObject addr = .ok found ∧ unwindByFind found = some answer) ∧
    (unwindByWalk reports addr = none ↔ ∀ record ∈ manager.view.modules, ∀ elf,
      record.handle.elf = some elf → ¬ LoadsAt elf.base (elf.phdrs.getD []) addr) := by
  have attached : ¬ ∃ record ∈ manager.view.modules, Bare record.handle := by
    intro bare
    obtain ⟨panic, refused⟩ := (reports_panics_iff unique tlsDataPtr).mpr bare
    cases refused.symm.trans walked
  obtain ⟨others, again, sound, complete⟩ := reports_spec unique attached tlsDataPtr
  cases again.symm.trans walked
  refine ⟨?_, ?_⟩
  · intro answer chosen
    obtain ⟨report, first, same⟩ := Option.map_eq_some_iff.mp chosen
    obtain ⟨record, listed, elf, isElf, base, phdrs⟩ := sound report (List.mem_of_find?_eq_some first)
    have loads : LoadsAt report.libBase report.phdrs addr := by simpa using List.find?_some first
    rw [base, phdrs] at loads same
    cases supplied : elf.userData with
    | none => exact absurd ⟨record, listed, elf, isElf, supplied⟩ attached
    | some data =>
        have covers := segments record listed elf isElf addr loads
        obtain ⟨range, _, found, _⟩ := queries_covered unique mapped listed covers isElf supplied
        exact ⟨_, found, congrArg some same⟩
  · rw [unwindByWalk, Option.map_eq_none_iff, List.find?_eq_none]
    constructor
    · intro missed record listed elf isElf loads
      have headers : elf.phdrs.getD [] ≠ [] := by
        intro empty
        rw [empty] at loads
        simp [LoadsAt] at loads
      obtain ⟨report, reported, base, phdrs⟩ := complete record listed elf isElf headers
      refine missed report reported (decide_eq_true ?_)
      rw [base, phdrs]
      exact loads
    · intro unloaded report reported loads
      obtain ⟨record, listed, elf, isElf, base, phdrs⟩ := sound report reported
      rw [base, phdrs] at loads
      exact unloaded record listed elf isElf (of_decide_eq_true loads)

section Cases

variable (unique : (manager.view.order.map Prod.fst).Nodup)
  (mapped : MappedApart manager.linkCtx) (segments : SegmentsMapped manager.view)
  {tlsDataPtr : Nat → Nat}

include unique mapped segments

theorem walk_finds {found : Option DlFindObject} (finding : manager.dlFindObject addr = .ok found)
    {reports : List DlPhdrInfo} (walking : manager.reports tlsDataPtr = .ok (.ok reports)) :
    ∃ found, manager.dlFindObject addr = .ok found ∧
      (∀ answer, unwindByWalk reports addr = some answer → unwindByFind found = some answer) ∧
      (unwindByWalk reports addr = none ↔ ∀ record ∈ manager.view.modules, ∀ elf,
        record.handle.elf = some elf → ¬ LoadsAt elf.base (elf.phdrs.getD []) addr) := by
  obtain ⟨agree, unloaded⟩ := walk_agrees unique mapped segments walking
  refine ⟨found, finding, fun answer chosen => ?_, unloaded⟩
  obtain ⟨other, again, same⟩ := agree answer chosen
  cases finding.symm.trans again
  exact same

variable {record : ModuleRecord} (listed : record ∈ manager.view.modules)
  (covers : record.handle.Contains addr)

include listed covers

theorem queriesAgree_foreign (isForeign : record.handle.elf = none) :
    QueriesAgree manager tlsDataPtr addr := by
  obtain ⟨find, dso, panic, dladdr⟩ := queries_foreign unique mapped listed covers isForeign
  have only := mapped.exists_iff listed covers
  have all := mapped.forall_iff listed covers
  have based (base : Nat) := only fun handle => handle.elf.map (·.base) = some base
  have somewhere : ¬ ∀ record ∈ manager.view.modules, ¬ record.handle.Contains addr :=
    fun nowhere => nowhere record listed covers
  have attached : ¬ Bare record.handle := by simp [Bare, isForeign]
  exact {
    findPanics := by rw [find]; simpa using (only Bare).not.mpr attached
    dsoPanics := by rw [dso]; simpa using (only Bare).not.mpr attached
    dladdrPanics := ⟨fun _ => (only (·.elf = none)).mpr isForeign, fun _ => ⟨panic, dladdr⟩⟩
    dladdrMissed := by simp [dladdr, somewhere]
    dladdrFound base := by rw [dladdr, based, isForeign]; simp
    walkPanics := reports_panics_iff unique tlsDataPtr
    missed := ⟨fun _ => (all (·.elf = none)).mpr isForeign, fun _ => find⟩
    found := by
      intro found finding
      cases find.symm.trans finding
      exact ⟨dso, by simp⟩
    walked _ := walk_finds unique mapped segments find }

variable {elf : ElfModule} (isElf : record.handle.elf = some elf)

include isElf

omit segments in
theorem queriesAgree_bare (supplied : elf.userData = none) :
    QueriesAgree manager tlsDataPtr addr := by
  obtain ⟨⟨panic, find⟩, dso, dladdr⟩ := queries_bare unique mapped listed covers isElf supplied
  have only := mapped.exists_iff listed covers
  have all := mapped.forall_iff listed covers
  have based (base : Nat) := only fun handle => handle.elf.map (·.base) = some base
  have somewhere : ¬ ∀ record ∈ manager.view.modules, ¬ record.handle.Contains addr :=
    fun nowhere => nowhere record listed covers
  have object : record.handle.elf ≠ none := by simp [isElf]
  have bare : Bare record.handle := ⟨elf, isElf, supplied⟩
  exact {
    findPanics := ⟨fun _ => (only Bare).mpr bare, fun _ => ⟨panic, find⟩⟩
    dsoPanics := ⟨fun _ => (only Bare).mpr bare, fun _ => dso⟩
    dladdrPanics := by rw [dladdr]; simpa using (only (·.elf = none)).not.mpr object
    dladdrMissed := by simp [dladdr, somewhere]
    dladdrFound base := by rw [dladdr, based, isElf]; simp
    walkPanics := reports_panics_iff unique tlsDataPtr
    missed := by rw [find]; simpa using (all (·.elf = none)).not.mpr object
    found := by
      intro found finding
      cases find.symm.trans finding
    walked := by
      intro reports walking
      obtain ⟨other, refused⟩ :=
        (reports_panics_iff unique tlsDataPtr).mpr ⟨record, listed, bare⟩
      cases refused.symm.trans walking }

theorem queriesAgree_covered {data : ExtraData} (supplied : elf.userData = some data) :
    QueriesAgree manager tlsDataPtr addr := by
  obtain ⟨range, within, find, dso, dladdr⟩ :=
    queries_covered unique mapped listed covers isElf supplied
  have only := mapped.exists_iff listed covers
  have all := mapped.forall_iff listed covers
  have based (base : Nat) := only fun handle => handle.elf.map (·.base) = some base
  have somewhere : ¬ ∀ record ∈ manager.view.modules, ¬ record.handle.Contains addr :=
    fun nowhere => nowhere record listed covers
  have object : record.handle.elf ≠ none := by simp [isElf]
  have attached : ¬ Bare record.handle := by simp [Bare, isElf, supplied]
  have inside := List.find?_some within
  simp only [decide_eq_true_eq] at inside
  have linkMap : record.handle.linkMap = some data.linkMap := by
    simp [ModuleHandle.linkMap, isElf, supplied]
  exact {
    findPanics := by rw [find]; simpa using (only Bare).not.mpr attached
    dsoPanics := by rw [dso]; simpa using (only Bare).not.mpr attached
    dladdrPanics := by rw [dladdr]; simpa using (only (·.elf = none)).not.mpr object
    dladdrMissed := by simp [dladdr, somewhere]
    dladdrFound base := by rw [dladdr, based, isElf]; simp
    walkPanics := reports_panics_iff unique tlsDataPtr
    missed := by rw [find]; simpa using (all (·.elf = none)).not.mpr object
    found := by
      intro found finding
      cases find.symm.trans finding
      refine ⟨dso, ?_⟩
      intro info same
      cases same
      exact ⟨dladdr, inside.2, record, listed, covers, linkMap⟩
    walked _ := walk_finds unique mapped segments find }

omit listed covers isElf in
theorem queriesAgree_uncovered
    (uncovered : ∀ record ∈ manager.view.modules, ¬ record.handle.Contains addr) :
    QueriesAgree manager tlsDataPtr addr := by
  obtain ⟨find, dso, dladdr⟩ := queries_uncovered uncovered
  have nothing (holds : ModuleHandle → Prop) : ¬ ∃ record ∈ manager.view.modules,
      record.handle.Contains addr ∧ holds record.handle := by
    rintro ⟨record, listed, covers, -⟩
    exact uncovered record listed covers
  exact {
    findPanics := by rw [find]; simpa using nothing Bare
    dsoPanics := by rw [dso]; simpa using nothing Bare
    dladdrPanics := by rw [dladdr]; simpa using nothing (·.elf = none)
    dladdrMissed := ⟨fun _ => uncovered, fun _ => dladdr⟩
    dladdrFound base := by
      rw [dladdr]
      simpa using nothing fun handle => handle.elf.map (·.base) = some base
    walkPanics := reports_panics_iff unique tlsDataPtr
    missed := ⟨fun _ record listed covers => absurd covers (uncovered record listed),
      fun _ => find⟩
    found := by
      intro found finding
      cases find.symm.trans finding
      exact ⟨dso, by simp⟩
    walked _ := walk_finds unique mapped segments find }

end Cases

end Agreement

/-- A library with a table. -/
def unwoundLibrary : GraphModule where
  key := "/lib/libunwound.so"
  handle := ⟨⟨3⟩, "/lib/libunwound.so", [(0x40000, 0x41000), (0x42000, 0x44000)], [],
    some ⟨some "libunwound.so", "libunwound.so", [], 0x40000,
      some [⟨ptLoad, 0, 0xf80⟩, ⟨ptLoad, 0x2000, 0x1f00⟩, ⟨gnuEhFrame, 0x2100, 0x40⟩], none,
      some ⟨"/lib/libunwound.so", ⟨0xa00, Nat.succ_ne_zero _⟩⟩⟩⟩
  flags := OpenFlags.empty
  dependencies := []

abbrev UnwindContext : Type := ReferenceContext
  [("/lib/libplugin.so", pluginLibrary), ("/lib/libunwound.so", unwoundLibrary)]

def openBoth : List (Action UnwindContext) := [
  .openWith false "/lib/libplugin.so" .rtldNow (.file "/lib/libplugin.so") none,
  .publish 0, .initialised 0,
  .openWith false "/lib/libunwound.so" .rtldNow (.file "/lib/libunwound.so") none,
  .publish 0, .initialised 0]

theorem reference_located {files : List (String × GraphModule)} {ctx : ReferenceContext files}
    {record : ModuleRecord} (listed : record ∈ ctx.view.modules) {addr : Nat}
    (covers : record.handle.Contains addr) : moduleIdAt ctx addr ≠ none := by
  intro unknown
  have missed := List.find?_eq_none.mp (Option.map_eq_none_iff.mp unknown) record listed
  exact missed (decide_eq_true covers)

/-- The segments of every module of the list lie in its ranges. -/
def segmentsInside (records : List ModuleRecord) : Bool :=
  records.all fun record => record.handle.elf.all fun elf => (elf.phdrs.getD []).all fun phdr =>
    decide (phdr.programType = ptLoad → ∃ range ∈ record.handle.ranges,
      range.1 ≤ elf.base + phdr.vaddr ∧ elf.base + phdr.vaddr + phdr.memsz ≤ range.2)

theorem segmentsMapped_of_inside {view : ContextView}
    (checked : segmentsInside view.modules = true) : SegmentsMapped view := by
  intro record listed elf isElf addr loads
  obtain ⟨phdr, header, load, above, below⟩ := loads
  have inside := List.all_eq_true.mp checked record listed
  rw [isElf] at inside
  obtain ⟨range, known, lower, upper⟩ :=
    of_decide_eq_true (List.all_eq_true.mp inside phdr header) load
  exact ⟨range, known, by omega, by omega⟩

end DynLinker.Registry
