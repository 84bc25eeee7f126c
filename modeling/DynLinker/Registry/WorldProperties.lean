import DynLinker.Registry.WorldSteps
import Mathlib.Tactic.Abel

/-! Who holds which lease, and what one step of the world can do. `StepEffect` says
it once for every step; the invariants of whole runs are derived from it. -/

set_option autoImplicit false

namespace DynLinker.Registry

open Lib Loader ElfLoader

def HandleState.leases (state : HandleState) : Multiset ModuleLease :=
  {state.opened.lease} + (state.extraLeases : Multiset ModuleLease)

def ThreadDestructor.leases (destructor : ThreadDestructor) : Multiset ModuleLease :=
  (destructor.lease.toList : Multiset ModuleLease)

namespace World

variable {Ctx : Type} [ElfLoader Ctx]

def view (world : World Ctx) : ContextView := world.manager.view

def tableLeases (world : World Ctx) : Multiset ModuleLease :=
  mapHoldings HandleState.leases world.manager.handles

def libraryLeases (world : World Ctx) : Multiset ModuleLease :=
  holdings (fun opened => {opened.lease}) world.opened +
    holdings (fun library => {library.opened.lease}) world.libraries

def snapshotLeases (world : World Ctx) : Multiset ModuleLease :=
  holdings (fun snapshots => holdings (fun snapshot => {snapshot.lease}) snapshots)
    world.iterations

def destructorLeases (world : World Ctx) : Multiset ModuleLease :=
  holdings ThreadDestructor.leases world.destructors

def openingLeases (world : World Ctx) : Multiset ModuleLease :=
  holdings (fun opening => {ModuleLease.new opening.2.lease}) world.initialising

def leases (world : World Ctx) : Multiset ModuleLease :=
  world.tableLeases + world.libraryLeases + world.snapshotLeases + world.destructorLeases +
    world.openingLeases

/-- Every library value: on its way, owned by Rust code, or kept for a C handle. -/
def openedValues (world : World Ctx) : List OpenedLibrary :=
  world.opened ++ world.libraries.map (·.opened) ++
    world.manager.handles.entries.map fun entry => entry.2.opened

end World

/-- The library leases a committed module, and its scope starts with that module. -/
def Rooted (view : ContextView) (opened : OpenedLibrary) : Prop :=
  ∃ lease handle, opened.lease = .new lease ∧ view.handleOf lease.id = some handle ∧
    opened.scope.head? = some handle

/-- What a step does to the leases: some are taken and given to a holder, or one
leaves its holder and goes back. -/
inductive LeaseChange {Ctx : Type} [ElfLoader Ctx] (before after : World Ctx) : Prop where
  | gains (leases : List NativeModuleLease) (grown : before.view.Extends after.view)
      (outstanding : after.view.outstanding.Perm (leases ++ before.view.outstanding))
      (held : after.leases = (leases.map ModuleLease.new : Multiset ModuleLease) + before.leases)
  | gives (lease : NativeModuleLease) (middle : ContextView) (unloaded : List ModuleId)
      (grown : before.view.Extends middle)
      (outstanding : middle.outstanding = before.view.outstanding)
      (gone : middle.Releases after.view lease unloaded)
      (held : before.leases = {ModuleLease.new lease} + after.leases)

/-- What a step does to the handle table and its counters. -/
inductive TableChange {Ctx : Type} [ElfLoader Ctx] (before after : World Ctx) : Prop where
  | same (handles : after.manager.handles = before.manager.handles)
      (opens : after.opens = before.opens) (closes : after.closes = before.closes)
  | registered (opened : OpenedLibrary) (handle : Nat) (live : opened ∈ before.openedValues)
      (registering : before.manager.registerHandle opened = .ok (handle, after.manager))
      (opens : after.opens = Function.update before.opens handle (before.opens handle + 1))
      (closes : after.closes = before.closes)
  | closed (handle : Nat) (unloaded : List ModuleId)
      (releasing : before.manager.releaseHandle handle = .ok (some unloaded, after.manager))
      (opens : after.opens = before.opens)
      (closes : after.closes = Function.update before.closes handle (before.closes handle + 1))

structure StepEffect {Ctx : Type} [ElfLoader Ctx] (before after : World Ctx) : Prop where
  leases : LeaseChange before after
  table : TableChange before after
  truthful : Truthful before.view → Truthful after.view
  rooted : ∀ opened ∈ after.openedValues, opened ∈ before.openedValues ∨ Rooted after.view opened

/-- The leases that are out are exactly the leases that somebody holds. -/
structure Conserved {Ctx : Type} [ElfLoader Ctx] (world : World Ctx) : Prop where
  accounted : world.view.Accounted
  held : world.leases = (world.view.outstanding.map ModuleLease.new : Multiset ModuleLease)

variable {Ctx : Type} [ElfLoader Ctx] [LawfulElfLoader Ctx]

omit [LawfulElfLoader Ctx] in
theorem Conserved.lease_live {world : World Ctx} (conserved : Conserved world)
    {lease : ModuleLease} (member : lease ∈ world.leases) :
    ∃ inner, lease = .new inner ∧ inner ∈ world.view.outstanding := by
  rw [conserved.held, Multiset.mem_coe] at member
  obtain ⟨inner, outstanding, rfl⟩ := List.mem_map.mp member
  exact ⟨inner, rfl, outstanding⟩

/-! ## Kinds of steps -/

omit [LawfulElfLoader Ctx] in
theorem StepEffect.of_grows {before after : World Ctx}
    (grows : before.manager.Grows after.manager) (opened : after.opened = before.opened)
    (libraries : after.libraries = before.libraries)
    (iterations : after.iterations = before.iterations)
    (destructors : after.destructors = before.destructors)
    (initialising : after.initialising = before.initialising)
    (opens : after.opens = before.opens) (closes : after.closes = before.closes)
    (truthful : Truthful before.view → Truthful after.view) : StepEffect before after where
  leases := by
    refine .gains [] grows.grown ?_ ?_
    · rw [List.nil_append]
      exact .of_eq grows.outstanding
    · simp [World.leases, World.tableLeases, World.libraryLeases, World.snapshotLeases,
        World.destructorLeases, World.openingLeases, grows.handles, opened, libraries, iterations,
        destructors, initialising]
  table := .same grows.handles opens closes
  truthful := truthful
  rooted value member := by
    rw [World.openedValues, opened, libraries, grows.handles] at member
    exact .inl member

omit [LawfulElfLoader Ctx] in
/-- A library is opened: one lease more, held by the new library. -/
theorem StepEffect.of_opened {before : World Ctx} {manager : Manager Ctx}
    {opened : OpenedLibrary} {lease : NativeModuleLease}
    (grown : before.view.Extends manager.view)
    (outstanding : manager.view.outstanding = lease :: before.view.outstanding)
    (leased : opened.lease = .new lease) (rooted : Rooted manager.view opened)
    (handles : manager.handles = before.manager.handles)
    (truthful : Truthful before.view → Truthful manager.view) :
    StepEffect before (before.addOpened opened manager) where
  leases := by
    refine .gains [lease] grown (.of_eq outstanding) ?_
    simp only [World.leases, World.tableLeases, World.libraryLeases, World.snapshotLeases,
      World.destructorLeases, World.openingLeases, World.addOpened, handles, holdings_cons,
      leased, List.map_singleton, Multiset.coe_singleton]
    abel
  table := .same handles rfl rfl
  truthful := truthful
  rooted value member := by
    simp only [World.openedValues, World.addOpened, handles, List.cons_append,
      List.mem_cons] at member
    rcases member with rfl | old
    · exact .inr rooted
    · exact .inl old

/-- A holder goes: its lease is live, so the drop releases it and leaves the table. -/
theorem StepEffect.of_drop {before after : World Ctx} {lease : ModuleLease}
    (conserved : Conserved before) (member : lease ∈ before.leases)
    (dropping : before.manager.dropLease lease = .ok after.manager)
    (held : after.manager.handles = before.manager.handles →
      before.leases = {lease} + after.leases)
    (opens : after.opens = before.opens) (closes : after.closes = before.closes)
    (values : after.manager.handles = before.manager.handles →
      ∀ opened ∈ after.openedValues, opened ∈ before.openedValues) :
    StepEffect before after := by
  obtain ⟨inner, rfl, _⟩ := conserved.lease_live member
  obtain ⟨unloaded, releasing⟩ := Manager.dropLease_new_spec dropping
  obtain ⟨gone, handles, _, _⟩ := Manager.release_spec releasing
  exact {
    leases := .gives inner before.view unloaded (.refl _) rfl gone (held handles)
    table := .same handles opens closes
    truthful := fun truthful => truthful.releases gone
    rooted := fun opened present => .inl (values handles opened present) }

theorem openModule_effect {manager next : Manager Ctx} {id : ModuleId} {opened : OpenedLibrary}
    (opening : manager.openModule id = some (opened, next)) :
    ∃ lease, opened.lease = .new lease ∧ manager.view.Extends next.view ∧
      next.view.outstanding = lease :: manager.view.outstanding ∧
      Rooted next.view opened ∧ next.handles = manager.handles ∧
      next.view.modules = manager.view.modules ∧ next.view.pinned = manager.view.pinned := by
  obtain ⟨grouping, acquiring⟩ := Manager.openModule_spec opening
  obtain ⟨lease, leased, rfl, fresh, committed, issued, handles, _, _⟩ :=
    Manager.acquireModule_spec acquiring
  obtain ⟨root, found, first, _, _⟩ := LawfulElfLoader.loadGroup_spec _ _ _ grouping
  have grown : manager.view.Extends next.view := by
    rw [issued]
    exact .issue committed fresh
  refine ⟨lease, leased, grown, ?_, ⟨lease, root.handle, leased, ?_, first⟩, handles, ?_, ?_⟩
  · rw [issued]
    rfl
  · exact grown.handleOf (ContextView.handleOf_of_find found)
  · rw [issued]
    rfl
  · rw [issued]
    rfl

theorem StepEffect.of_openModule {before : World Ctx} {next : Manager Ctx} {id : ModuleId}
    {opened : OpenedLibrary} (opening : before.manager.openModule id = some (opened, next)) :
    StepEffect before (before.addOpened opened next) := by
  obtain ⟨lease, leased, grown, outstanding, rooted, handles, modules, pinned⟩ :=
    openModule_effect opening
  refine .of_opened grown outstanding leased rooted handles ?_
  intro truthful
  refine truthful.of_same ?_ modules
  rw [pinned]
  exact List.Subset.refl _

theorem openWith_effect {before : World Ctx} {bindNow : Bool} {request : String}
    {flags : OpenFlags} {root : LinkRoot Ctx} {caller : Option Nat}
    {outcome : OpenOutcome Ctx} {next : Manager Ctx}
    (accepted : before.manager.openWith bindNow request flags root caller = .ok (outcome, next)) :
    StepEffect before (before.afterOpenWith (outcome, next)) := by
  rcases Manager.openWith_cases accepted with
    ⟨id, promoted, opened, rfl, promoting, opening⟩ | ⟨rfl, ⟨error, rfl⟩ | ⟨pending, rfl⟩⟩
  · obtain ⟨_, _, grows, _⟩ := Manager.promote_spec promoting
    obtain ⟨lease, leased, grown, outstanding, rooted, handles, modules, pinned⟩ :=
      openModule_effect opening
    refine .of_opened (grows.grown.trans grown) ?_ leased rooted (handles.trans grows.handles) ?_
    · rw [outstanding, grows.outstanding]
      rfl
    · intro truthful
      refine (Manager.promote_truthful promoting truthful).of_same ?_ modules
      rw [pinned]
      exact List.Subset.refl _
  · exact .of_grows (.refl _) rfl rfl rfl rfl rfl rfl rfl id
  · exact .of_grows (.refl _) rfl rfl rfl rfl rfl rfl rfl id

theorem publish_effect {before : World Ctx} {next : Manager Ctx} {index : Nat}
    {flags : OpenFlags} {pending : Pending Ctx} {load : LoadResult}
    (publishing : before.manager.publishPending pending = .ok (load, next)) :
    StepEffect before { before with
      manager := next
      preparing := before.preparing.eraseIdx index
      initialising := (flags, load) :: before.initialising } := by
  obtain ⟨added, result, _, _, grown, handles, _, _⟩ := Manager.publishPending_spec publishing
  exact {
    leases := by
      refine .gains [load.lease] grown (.of_eq ?_) ?_
      · change next.view.outstanding = _
        rw [result]
        rfl
      · simp only [World.leases, World.tableLeases, World.libraryLeases, World.snapshotLeases,
          World.destructorLeases, World.openingLeases, handles, holdings_cons,
          List.map_singleton, Multiset.coe_singleton]
        abel
    table := .same handles rfl rfl
    truthful := Manager.publishPending_truthful publishing
    rooted := fun opened member => by
      simp only [World.openedValues, handles] at member
      exact .inl member }

theorem abandon_effect {before middle : World Ctx} {index : Nat} {flags : OpenFlags}
    {load : LoadResult} (conserved : Conserved before)
    (present : before.initialising[index]? = some (flags, load))
    (grows : before.manager.Grows middle.manager)
    (truthful : Truthful before.view → Truthful middle.view)
    (holders : middle = { before with manager := middle.manager }) :
    StepEffect before (middle.abandon index load) := by
  have opening := holdings_eraseIdx
    (fun opening : OpenFlags × LoadResult => ({ModuleLease.new opening.2.lease} :
      Multiset ModuleLease)) present
  have member : ModuleLease.new load.lease ∈ before.leases := by
    rw [World.leases, World.openingLeases, opening]
    simp
  obtain ⟨inner, same, outstanding⟩ := conserved.lease_live member
  cases same
  have middleOutstanding : load.lease ∈ middle.manager.view.outstanding := by
    rw [grows.outstanding]
    exact outstanding
  obtain ⟨unloaded, gone, handles, _⟩ := Manager.rollbackLoad_spec middleOutstanding
  have tables : (middle.manager.rollbackLoad load).handles = before.manager.handles :=
    handles.trans grows.handles
  exact {
    leases := by
      refine .gives load.lease middle.view unloaded grows.grown grows.outstanding gone ?_
      rw [holders]
      simp only [World.leases, World.tableLeases, World.libraryLeases, World.snapshotLeases,
        World.destructorLeases, World.openingLeases, World.abandon, tables, opening]
      abel
    table := by
      rw [holders]
      exact .same tables rfl rfl
    truthful := fun held => (truthful held).releases gone
    rooted := fun opened member => by
      rw [holders] at member
      simp only [World.openedValues, World.abandon, tables] at member
      exact .inl member }

theorem initialised_effect {before : World Ctx} {next : Manager Ctx} {index : Nat}
    {flags : OpenFlags} {load : LoadResult} {opened : OpenedLibrary}
    (present : before.initialising[index]? = some (flags, load))
    (accepted : before.manager.openLoad load flags = .ok (opened, next)) :
    StepEffect before { before.addOpened opened next with
      initialising := before.initialising.eraseIdx index } := by
  obtain ⟨grows, _, leased, grouping, _⟩ := Manager.openLoad_spec accepted
  have opening := holdings_eraseIdx
    (fun opening : OpenFlags × LoadResult => ({ModuleLease.new opening.2.lease} :
      Multiset ModuleLease)) present
  obtain ⟨root, found, first, _, _⟩ := LawfulElfLoader.loadGroup_spec _ _ _ grouping
  exact {
    leases := by
      refine .gains [] grows.grown ?_ ?_
      · rw [List.nil_append]
        exact .of_eq grows.outstanding
      · simp only [World.leases, World.tableLeases, World.libraryLeases, World.snapshotLeases,
          World.destructorLeases, World.openingLeases, World.addOpened, grows.handles,
          holdings_cons, opening, leased, List.map_nil, Multiset.coe_nil]
        abel
    table := .same grows.handles rfl rfl
    truthful := Manager.openLoad_truthful accepted
    rooted := fun value member => by
      simp only [World.openedValues, World.addOpened, grows.handles, List.cons_append,
        List.mem_cons] at member
      rcases member with rfl | old
      · exact .inr ⟨load.lease, root.handle, leased, ContextView.handleOf_of_find found, first⟩
      · exact .inl old }

/-! ## The handle table -/

namespace Manager

omit [ElfLoader Ctx] [LawfulElfLoader Ctx] in
theorem registerHandle_spec {manager next : Manager Ctx} {opened : OpenedLibrary} {handle : Nat}
    (accepted : manager.registerHandle opened = .ok (handle, next)) :
    ∃ address : LinkMapAddress, opened.linkMap = .ok address ∧ handle = address.value ∧
      next = { manager with
        handles := manager.handles.insert handle
          (HandleState.push (manager.handles.lookup handle) opened) } := by
  obtain ⟨address, mapped, accepted⟩ := bind_eq_ok.mp accepted
  cases accepted
  exact ⟨address, mapped, rfl, rfl⟩

theorem releaseHandle_spec {manager next : Manager Ctx} {handle : Nat}
    {unloaded : List ModuleId}
    (accepted : manager.releaseHandle handle = .ok (some unloaded, next)) :
    ∃ state inner, manager.handles.lookup handle = some state ∧ state.pop.1 = .new inner ∧
      manager.view.Releases next.view inner unloaded ∧
      next.handles = (manager.replaceHandle handle state.pop.2).handles := by
  obtain ⟨state, inner, found, popped, releasing⟩ := releaseHandle_some accepted
  obtain ⟨releases, handles, _, _⟩ := release_spec releasing
  rw [view, replaceHandle_linkCtx] at releases
  exact ⟨state, inner, found, popped, releases, handles⟩

end Manager

omit [LawfulElfLoader Ctx] in
theorem HandleState.leases_push (entry : Option HandleState) (opened : OpenedLibrary) :
    (HandleState.push entry opened).leases =
      {opened.lease} + entry.elim 0 HandleState.leases := by
  cases entry with
  | none => simp [push, leases]
  | some state =>
      simp only [push, leases, Option.elim_some, ← Multiset.coe_add, Multiset.coe_singleton]
      abel

theorem HandleState.pop_opened {state rest : HandleState} (left : state.pop.2 = some rest) :
    rest.opened = state.opened := by
  rw [pop] at left
  split at left
  · cases left
    rfl
  · cases left

theorem HandleState.leases_pop (state : HandleState) :
    state.leases = {state.pop.1} + state.pop.2.elim 0 HandleState.leases := by
  rw [pop]
  cases last : state.extraLeases.getLast? with
  | none =>
      have empty : state.extraLeases = [] := List.getLast?_eq_none_iff.mp last
      simp [leases, empty]
  | some lease =>
      have whole : state.extraLeases.dropLast ++ [lease] = state.extraLeases :=
        List.dropLast_append_getLast? lease last
      simp only [leases, Option.elim_some]
      rw [← whole]
      simp only [List.dropLast_concat, ← Multiset.coe_add, Multiset.coe_singleton]
      abel

omit [LawfulElfLoader Ctx] in
theorem tableLeases_push (handles : AList fun _ : Nat => HandleState) (handle : Nat)
    (opened : OpenedLibrary) :
    mapHoldings HandleState.leases
        (handles.insert handle (HandleState.push (handles.lookup handle) opened)) =
      {opened.lease} + mapHoldings HandleState.leases handles := by
  cases found : handles.lookup handle with
  | none =>
      rw [mapHoldings_insert_fresh _ found, HandleState.leases_push]
      simp
  | some state =>
      rw [mapHoldings_insert, HandleState.leases_push, mapHoldings_erase _ found]
      exact add_assoc _ _ _

omit [ElfLoader Ctx] [LawfulElfLoader Ctx] in
theorem tableLeases_pop {manager : Manager Ctx} {handle : Nat} {state : HandleState}
    (found : manager.handles.lookup handle = some state) :
    mapHoldings HandleState.leases manager.handles =
      {state.pop.1} + mapHoldings HandleState.leases
        (manager.replaceHandle handle state.pop.2).handles := by
  rw [mapHoldings_erase _ found, HandleState.leases_pop]
  cases state.pop.2 with
  | none => simp [Manager.replaceHandle]
  | some left =>
      simp only [Manager.replaceHandle, mapHoldings_insert, Option.elim_some]
      exact add_assoc _ _ _

omit [ElfLoader Ctx] [LawfulElfLoader Ctx] in
theorem mem_entries_insert {handles : AList fun _ : Nat => HandleState} {handle : Nat}
    {state : HandleState} {entry : Sigma fun _ : Nat => HandleState}
    (member : entry ∈ (handles.insert handle state).entries) :
    entry = ⟨handle, state⟩ ∨ entry ∈ handles.entries := by
  rw [AList.entries_insert] at member
  rcases List.mem_cons.mp member with same | old
  · exact .inl same
  · exact .inr ((List.kerase_sublist handle handles.entries).mem old)

omit [LawfulElfLoader Ctx] in
theorem registerHandle_effect {before : World Ctx} {next : Manager Ctx} {index handle : Nat}
    {opened : OpenedLibrary} (present : before.opened[index]? = some opened)
    (registering : before.manager.registerHandle opened = .ok (handle, next)) :
    StepEffect before { before with
      manager := next
      opened := before.opened.eraseIdx index
      opens := Function.update before.opens handle (before.opens handle + 1) } := by
  obtain ⟨address, mapped, rfl, rfl⟩ := Manager.registerHandle_spec registering
  have moved := holdings_eraseIdx
    (fun opened : OpenedLibrary => ({opened.lease} : Multiset ModuleLease)) present
  have pushed := tableLeases_push before.manager.handles address.value opened
  have listed : opened ∈ before.opened := List.mem_of_getElem? present
  have live : opened ∈ before.openedValues := by simp [World.openedValues, listed]
  exact {
    leases := by
      refine .gains [] (.refl _) (.refl _) ?_
      simp only [World.leases, World.tableLeases, World.libraryLeases, World.snapshotLeases,
        World.destructorLeases, World.openingLeases, pushed, moved, List.map_nil,
        Multiset.coe_nil]
      abel
    table := .registered opened address.value live registering rfl rfl
    truthful := id
    rooted := fun value member => by
      refine .inl ?_
      simp only [World.openedValues, List.mem_append, List.mem_map] at member ⊢
      rcases member with (waiting | owned) | ⟨entry, kept, rfl⟩
      · exact .inl (.inl (List.mem_of_mem_eraseIdx waiting))
      · exact .inl (.inr owned)
      · rcases mem_entries_insert kept with rfl | old
        · cases found : before.manager.handles.lookup address.value with
          | none => exact .inl (.inl listed)
          | some state =>
              exact .inr ⟨⟨address.value, state⟩, AList.mem_lookup_iff.mp found, rfl⟩
        · exact .inr ⟨entry, old, rfl⟩ }

theorem dlclose_effect {before : World Ctx} {next : Manager Ctx} {handle : Nat}
    {unloaded : List ModuleId}
    (releasing : before.manager.releaseHandle handle = .ok (some unloaded, next)) :
    StepEffect before { before with
      manager := next
      closes := Function.update before.closes handle (before.closes handle + 1) } := by
  obtain ⟨state, inner, found, popped, gone, handles⟩ := Manager.releaseHandle_spec releasing
  have table := tableLeases_pop found
  exact {
    leases := by
      refine .gives inner before.view unloaded (.refl _) rfl gone ?_
      simp only [World.leases, World.tableLeases, World.libraryLeases, World.snapshotLeases,
        World.destructorLeases, World.openingLeases, table, handles, popped]
      abel
    table := .closed handle unloaded releasing rfl rfl
    truthful := fun truthful => truthful.releases gone
    rooted := fun value member => by
      refine .inl ?_
      simp only [World.openedValues, List.mem_append, List.mem_map] at member ⊢
      rcases member with outside | ⟨entry, kept, rfl⟩
      · exact .inl outside
      · refine .inr ?_
        rw [handles] at kept
        cases left : state.pop.2 with
        | none =>
            rw [left] at kept
            exact ⟨entry, (List.kerase_sublist handle _).mem kept, rfl⟩
        | some rest =>
            rw [left] at kept
            rcases mem_entries_insert kept with rfl | old
            · exact ⟨⟨handle, state⟩, AList.mem_lookup_iff.mp found,
                (HandleState.pop_opened left).symm⟩
            · exact ⟨entry, old, rfl⟩ }

/-! ## Libraries, snapshots and destructors -/

omit [LawfulElfLoader Ctx] in
/-- A step that only moves or copies libraries between their Rust owners. -/
theorem StepEffect.of_moved {before after : World Ctx} (manager : after.manager = before.manager)
    (libraries : after.libraryLeases = before.libraryLeases)
    (iterations : after.iterations = before.iterations)
    (destructors : after.destructors = before.destructors)
    (initialising : after.initialising = before.initialising)
    (opens : after.opens = before.opens) (closes : after.closes = before.closes)
    (values : ∀ opened ∈ after.openedValues, opened ∈ before.openedValues) :
    StepEffect before after where
  leases := by
    have sameView : after.view = before.view := congrArg Manager.view manager
    refine .gains [] ?_ ?_ ?_
    · rw [sameView]
      exact .refl _
    · rw [sameView]
      exact .refl _
    · simp [World.leases, World.tableLeases, World.snapshotLeases, World.destructorLeases,
        World.openingLeases, manager, libraries, iterations, destructors, initialising]
  table := .same (congrArg Manager.handles manager) opens closes
  truthful truthful := by
    rw [World.view, manager]
    exact truthful
  rooted value member := .inl (values value member)

theorem dropLibrary_effect {before : World Ctx} {next : Manager Ctx} {index : Nat}
    {library : ElfLibrary} (conserved : Conserved before)
    (present : before.libraries[index]? = some library)
    (dropping : before.manager.dropLease library.opened.lease = .ok next) :
    StepEffect before { before with
      manager := next, libraries := before.libraries.eraseIdx index } := by
  have moved := holdings_eraseIdx
    (fun library : ElfLibrary => ({library.opened.lease} : Multiset ModuleLease)) present
  refine .of_drop conserved ?_ dropping ?_ rfl rfl ?_
  · rw [World.leases, World.libraryLeases, moved]
    simp
  · intro (handles : next.handles = before.manager.handles)
    simp only [World.leases, World.tableLeases, World.libraryLeases, World.snapshotLeases,
      World.destructorLeases, World.openingLeases, handles, moved]
    abel
  · intro (handles : next.handles = before.manager.handles) opened member
    simp only [World.openedValues, handles, List.mem_append, List.mem_map] at member ⊢
    rcases member with (waiting | ⟨owned, kept, rfl⟩) | handled
    · exact .inl (.inl waiting)
    · exact .inl (.inr ⟨owned, List.mem_of_mem_eraseIdx kept, rfl⟩)
    · exact .inr handled

theorem dropOpened_effect {before : World Ctx} {next : Manager Ctx} {index : Nat}
    {opened : OpenedLibrary} (conserved : Conserved before)
    (present : before.opened[index]? = some opened)
    (dropping : before.manager.dropLease opened.lease = .ok next) :
    StepEffect before { before with manager := next, opened := before.opened.eraseIdx index } := by
  have moved := holdings_eraseIdx
    (fun opened : OpenedLibrary => ({opened.lease} : Multiset ModuleLease)) present
  refine .of_drop conserved ?_ dropping ?_ rfl rfl ?_
  · rw [World.leases, World.libraryLeases, moved]
    simp
  · intro (handles : next.handles = before.manager.handles)
    simp only [World.leases, World.tableLeases, World.libraryLeases, World.snapshotLeases,
      World.destructorLeases, World.openingLeases, handles, moved]
    abel
  · intro (handles : next.handles = before.manager.handles) value member
    simp only [World.openedValues, handles, List.mem_append] at member ⊢
    exact member.imp_left (Or.imp_left List.mem_of_mem_eraseIdx)

omit [LawfulElfLoader Ctx] in
theorem intoElfLibrary_effect {before : World Ctx} {index : Nat} {opened : OpenedLibrary}
    (present : before.opened[index]? = some opened) :
    StepEffect before { before with
      opened := before.opened.eraseIdx index
      libraries := ⟨opened, 0⟩ :: before.libraries } := by
  have moved := holdings_eraseIdx
    (fun opened : OpenedLibrary => ({opened.lease} : Multiset ModuleLease)) present
  refine .of_moved rfl ?_ rfl rfl rfl rfl rfl ?_
  · simp only [World.libraryLeases, holdings_cons, moved]
    abel
  · intro value member
    simp only [World.openedValues, List.mem_append, List.map_cons, List.mem_cons] at member ⊢
    rcases member with (waiting | rfl | owned) | handled
    · exact .inl (.inl (List.mem_of_mem_eraseIdx waiting))
    · exact .inl (.inl (List.mem_of_getElem? present))
    · exact .inl (.inr owned)
    · exact .inr handled

omit [LawfulElfLoader Ctx] in
theorem cloneLibrary_effect {before : World Ctx} {index : Nat} {library : ElfLibrary}
    (present : before.libraries[index]? = some library) (clones : Nat) :
    StepEffect before { before with
      libraries := before.libraries.set index { library with clones := clones } } := by
  have moved := holdings_eraseIdx
    (fun library : ElfLibrary => ({library.opened.lease} : Multiset ModuleLease)) present
  refine .of_moved rfl ?_ rfl rfl rfl rfl rfl ?_
  · rw [World.libraryLeases, World.libraryLeases, holdings_set _ present, moved]
  · intro opened member
    simp only [World.openedValues, List.mem_append, List.mem_map] at member ⊢
    rcases member with (waiting | ⟨owned, kept, rfl⟩) | handled
    · exact .inl (.inl waiting)
    · rcases List.mem_or_eq_of_mem_set kept with old | rfl
      · exact .inl (.inr ⟨owned, old, rfl⟩)
      · exact .inl (.inr ⟨library, List.mem_of_getElem? present, rfl⟩)
    · exact .inr handled

theorem iteratePhdr_effect {before : World Ctx} {next : Manager Ctx}
    {snapshots : List LibrarySnapshot}
    (taken : before.manager.librarySnapshot = (snapshots, next)) :
    StepEffect before { before with
      manager := next, iterations := snapshots :: before.iterations } := by
  obtain ⟨leases, mapped, outstanding, modules, pinned, grown, handles, _, _⟩ :=
    Manager.snapshotModules_spec taken
  have held : holdings (fun snapshot : LibrarySnapshot => {snapshot.lease}) snapshots =
      (leases.map ModuleLease.new : Multiset ModuleLease) := by
    rw [← mapped]
    clear mapped taken
    induction snapshots with
    | nil => rfl
    | cons snapshot rest ih => simp [ih]
  exact {
    leases := by
      refine .gains leases grown outstanding ?_
      simp only [World.leases, World.tableLeases, World.libraryLeases, World.snapshotLeases,
        World.destructorLeases, World.openingLeases, handles, holdings_cons, held]
      abel
    table := .same handles rfl rfl
    truthful := fun truthful => by
      refine truthful.of_same ?_ modules
      change before.manager.view.pinned ⊆ next.view.pinned
      rw [pinned]
      exact List.Subset.refl _
    rooted := fun value member => by
      simp only [World.openedValues, handles] at member
      exact .inl member }

omit [LawfulElfLoader Ctx] in
theorem iterationEnded_effect {before : World Ctx} {index : Nat}
    (present : before.iterations[index]? = some []) :
    StepEffect before { before with iterations := before.iterations.eraseIdx index } := by
  have whole := holdings_eraseIdx (fun snapshots : List LibrarySnapshot =>
    holdings (fun snapshot => ({snapshot.lease} : Multiset ModuleLease)) snapshots) present
  refine ⟨.gains [] (.refl _) (.refl _) ?_, .same rfl rfl rfl, id, fun _ member => .inl member⟩
  simp [World.leases, World.tableLeases, World.libraryLeases, World.snapshotLeases,
    World.destructorLeases, World.openingLeases, whole]

theorem dropSnapshot_effect {before : World Ctx} {next : Manager Ctx} {index : Nat}
    {snapshot : LibrarySnapshot} {rest : List LibrarySnapshot} (conserved : Conserved before)
    (present : before.iterations[index]? = some (snapshot :: rest))
    (dropping : before.manager.dropLease snapshot.lease = .ok next) :
    StepEffect before { before with
      manager := next, iterations := before.iterations.set index rest } := by
  have whole := holdings_eraseIdx (fun snapshots : List LibrarySnapshot =>
    holdings (fun snapshot => ({snapshot.lease} : Multiset ModuleLease)) snapshots) present
  have left := holdings_set (fun snapshots : List LibrarySnapshot =>
    holdings (fun snapshot => ({snapshot.lease} : Multiset ModuleLease)) snapshots) present rest
  refine .of_drop conserved ?_ dropping ?_ rfl rfl ?_
  · rw [World.leases, World.snapshotLeases, whole]
    simp
  · intro (handles : next.handles = before.manager.handles)
    simp only [World.leases, World.tableLeases, World.libraryLeases, World.snapshotLeases,
      World.destructorLeases, World.openingLeases, handles, whole, left, holdings_cons]
    abel
  · intro (handles : next.handles = before.manager.handles) value member
    simpa only [World.openedValues, handles] using member

theorem registerDestructor_effect {before : World Ctx} {next : Manager Ctx} {id : ModuleId}
    {lease : ModuleLease} (acquiring : before.manager.acquireModule id = some (lease, next)) :
    StepEffect before { before with
      manager := next, destructors := ⟨some lease⟩ :: before.destructors } := by
  obtain ⟨inner, rfl, rfl, fresh, committed, issued, handles, _, _⟩ :=
    Manager.acquireModule_spec acquiring
  exact {
    leases := by
      refine .gains [inner] ?_ (.of_eq ?_) ?_
      · change before.manager.view.Extends next.view
        rw [issued]
        exact .issue committed fresh
      · change next.view.outstanding = _
        rw [issued]
        rfl
      · simp only [World.leases, World.tableLeases, World.libraryLeases, World.snapshotLeases,
          World.destructorLeases, World.openingLeases, handles, holdings_cons,
          ThreadDestructor.leases, Option.toList_some, List.map_singleton,
          Multiset.coe_singleton]
        abel
    table := .same handles rfl rfl
    truthful := fun truthful => by
      change Truthful next.view
      rw [issued]
      exact truthful
    rooted := fun value member => by
      simp only [World.openedValues, handles] at member
      exact .inl member }

omit [LawfulElfLoader Ctx] in
/-- A destructor that owns no module comes or goes. -/
theorem StepEffect.of_unowned {before : World Ctx} {destructors : List ThreadDestructor}
    (unowned : holdings ThreadDestructor.leases destructors =
      holdings ThreadDestructor.leases before.destructors) :
    StepEffect before { before with destructors := destructors } := by
  refine ⟨.gains [] (.refl _) (.refl _) ?_, .same rfl rfl rfl, id, fun _ member => .inl member⟩
  simp only [World.leases, World.tableLeases, World.libraryLeases, World.snapshotLeases,
    World.destructorLeases, World.openingLeases, unowned, List.map_nil, Multiset.coe_nil,
    zero_add]

theorem dropDestructor_effect {before : World Ctx} {next : Manager Ctx} {index : Nat}
    {lease : ModuleLease} (conserved : Conserved before)
    (present : before.destructors[index]? = some ⟨some lease⟩)
    (dropping : before.manager.dropLease lease = .ok next) :
    StepEffect before { before with
      manager := next, destructors := before.destructors.eraseIdx index } := by
  have whole := holdings_eraseIdx ThreadDestructor.leases present
  have single : ThreadDestructor.leases ⟨some lease⟩ = {lease} := rfl
  refine .of_drop conserved ?_ dropping ?_ rfl rfl ?_
  · rw [World.leases, World.destructorLeases, whole, single]
    simp
  · intro (handles : next.handles = before.manager.handles)
    simp only [World.leases, World.tableLeases, World.libraryLeases, World.snapshotLeases,
      World.destructorLeases, World.openingLeases, handles, whole, single]
    abel
  · intro (handles : next.handles = before.manager.handles) value member
    simpa only [World.openedValues, handles] using member

/-! ## Every step -/

theorem act_effect {before after : World Ctx} {action : Action Ctx} (conserved : Conserved before)
    (accepted : before.act action = some (.ok after)) : StepEffect before after := by
  cases World.transition_of_act accepted with
  | registerLoaded registering =>
      obtain ⟨_, _, _, _, _, _, _, grows, _⟩ := Manager.registerLoaded_spec registering
      exact .of_grows grows rfl rfl rfl rfl rfl rfl rfl
        (Manager.registerLoaded_truthful registering)
  | registerInitialAliases adding =>
      exact .of_grows (Manager.registerInitialAliases_grows adding) rfl rfl rfl rfl rfl rfl rfl
        (Manager.registerInitialAliases_truthful adding)
  | openWith opening => exact openWith_effect opening
  | publishFailed present failed => exact .of_grows (.refl _) rfl rfl rfl rfl rfl rfl rfl id
  | publish present publishing => exact publish_effect publishing
  | startupHook present running =>
      exact .of_grows (Manager.startupState_grows running) rfl rfl rfl rfl rfl rfl rfl
        (Manager.startupState_truthful running)
  | @startupFailed _ _ _ _ _ next present running =>
      have grows : before.manager.Grows { before with manager := next }.manager :=
        Manager.startupState_grows running
      exact abandon_effect conserved present grows (Manager.startupState_truthful running) rfl
  | initialised present loading => exact initialised_effect present loading
  | initialiseFailed present => exact abandon_effect conserved present (.refl _) id rfl
  | openMain first opening => exact .of_openModule opening
  | addrUnknown unknown => exact .of_grows (.refl _) rfl rfl rfl rfl rfl rfl rfl id
  | libraryByAddr named opening => exact .of_openModule opening
  | intoElfLibrary present => exact intoElfLibrary_effect present
  | dropOpened present dropping => exact dropOpened_effect conserved present dropping
  | cloneLibrary present => exact cloneLibrary_effect present _
  | dropClone present shared => exact cloneLibrary_effect present _
  | dropLibrary present last dropping => exact dropLibrary_effect conserved present dropping
  | registerHandle present registering => exact registerHandle_effect present registering
  | handleUnknown unknown => exact .of_grows (.refl _) rfl rfl rfl rfl rfl rfl rfl id
  | dlclose nonnull releasing => exact dlclose_effect releasing
  | dlsym => exact .of_grows (.refl _) rfl rfl rfl rfl rfl rfl rfl id
  | iteratePhdr taken => exact iteratePhdr_effect taken
  | iterationEnded present => exact iterationEnded_effect present
  | dropSnapshot present dropping => exact dropSnapshot_effect conserved present dropping
  | destructorUnowned unowned =>
      refine .of_unowned ?_
      simp [ThreadDestructor.leases]
  | registerDestructor named acquiring => exact registerDestructor_effect acquiring
  | dropUnowned present =>
      refine .of_unowned ?_
      rw [holdings_eraseIdx ThreadDestructor.leases present]
      exact (zero_add _).symm
  | dropDestructor present dropping => exact dropDestructor_effect conserved present dropping

end DynLinker.Registry
