import DynLinker.Registry.PromotionProperties
import DynLinker.Registry.World

/-! The steps of the world by name: what a step needs to be possible, and the world it
leaves behind. -/

set_option autoImplicit false

namespace DynLinker.Registry

open Lib Loader ElfLoader

variable {Ctx : Type} [ElfLoader Ctx]

namespace Manager

section Table

variable {manager : Manager Ctx} {handle : Nat}

omit [ElfLoader Ctx] in
theorem replaceHandle_lookup (entry : Option HandleState) :
    (manager.replaceHandle handle entry).handles.lookup handle = entry := by
  cases entry with
  | none => exact AList.lookup_erase _ _
  | some state => exact AList.lookup_insert _

omit [ElfLoader Ctx] in
theorem replaceHandle_lookup_ne (entry : Option HandleState) {other : Nat}
    (different : other ≠ handle) :
    (manager.replaceHandle handle entry).handles.lookup other = manager.handles.lookup other := by
  cases entry with
  | none => exact AList.lookup_erase_ne different
  | some state => exact AList.lookup_insert_ne different

omit [ElfLoader Ctx] in
/-- The table entry is no part of the loader's context. -/
theorem replaceHandle_linkCtx (entry : Option HandleState) :
    (manager.replaceHandle handle entry).linkCtx = manager.linkCtx := by
  cases entry with
  | none => rfl
  | some state => rfl

end Table

theorem releaseHandle_none {manager next : Manager Ctx} {handle : Nat}
    (accepted : manager.releaseHandle handle = .ok (none, next)) :
    manager.handles.lookup handle = none ∧ next = manager := by
  rw [releaseHandle] at accepted
  split at accepted
  · next unknown =>
      cases accepted
      exact ⟨unknown, rfl⟩
  · obtain ⟨_, _, accepted⟩ := bind_eq_ok.mp accepted
    obtain ⟨_, _, accepted⟩ := bind_eq_ok.mp accepted
    obtain ⟨_, _, accepted⟩ := bind_eq_ok.mp accepted
    cases accepted

/-- The table entry gives up its last lease before the lease is released. -/
theorem releaseHandle_some {manager next : Manager Ctx} {handle : Nat}
    {unloaded : List ModuleId}
    (accepted : manager.releaseHandle handle = .ok (some unloaded, next)) :
    ∃ state inner, manager.handles.lookup handle = some state ∧ state.pop.1 = .new inner ∧
      (manager.replaceHandle handle state.pop.2).release inner = .ok (unloaded, next) := by
  rw [releaseHandle] at accepted
  split at accepted
  · cases accepted
  · next state found =>
      obtain ⟨⟨inner, emptied⟩, taking, accepted⟩ := bind_eq_ok.mp accepted
      obtain ⟨native, live, taking⟩ := bind_eq_ok.mp taking
      cases taking
      obtain ⟨⟨gone, released⟩, releasing, accepted⟩ := bind_eq_ok.mp accepted
      obtain ⟨final, dropping, accepted⟩ := bind_eq_ok.mp accepted
      cases dropping
      cases accepted
      have retained := expectSome_eq_ok.mp live
      refine ⟨state, inner, found, ?_, releasing⟩
      cases same : state.pop.1 with
      | mk held =>
          rw [same] at retained
          cases retained
          rfl

end Manager

namespace World

/-- What each step needs and the world it leaves. -/
inductive Transition (before : World Ctx) : Action Ctx → World Ctx → Prop where
  | registerLoaded {lib : LoadedDylib} {flags : OpenFlags} {next : Manager Ctx} :
      before.manager.registerLoaded lib flags = .ok next →
      Transition before (.registerLoaded lib flags) { before with manager := next }
  | registerInitialAliases {next : Manager Ctx} :
      before.manager.registerInitialAliases = .ok next →
      Transition before .registerInitialAliases { before with manager := next }
  | openWith {bindNow : Bool} {request : String} {flags : OpenFlags} {root : LinkRoot Ctx}
      {caller : Option Nat} {outcome : OpenOutcome Ctx} {next : Manager Ctx} :
      before.manager.openWith bindNow request flags root caller = .ok (outcome, next) →
      Transition before (.openWith bindNow request flags root caller)
        (before.afterOpenWith (outcome, next))
  | publishFailed {index : Nat} {flags : OpenFlags} {pending : Pending Ctx} {failure : Error} :
      before.preparing[index]? = some (flags, pending) →
      before.manager.publishPending pending = .error failure →
      Transition before (.publish index)
        { before with preparing := before.preparing.eraseIdx index }
  | publish {index : Nat} {flags : OpenFlags} {pending : Pending Ctx} {load : LoadResult}
      {next : Manager Ctx} :
      before.preparing[index]? = some (flags, pending) →
      before.manager.publishPending pending = .ok (load, next) →
      Transition before (.publish index) { before with
        manager := next
        preparing := before.preparing.eraseIdx index
        initialising := (flags, load) :: before.initialising }
  | startupHook {index : Nat} {rtld : Option (LinkMapAddress × Nat)} {flags : OpenFlags}
      {load : LoadResult} {state : Manager.StartupState} {next : Manager Ctx} :
      before.initialising[index]? = some (flags, load) →
      before.manager.startupState load.lease.id rtld = .ok (.ok state, next) →
      Transition before (.startupHook index rtld) { before with manager := next }
  | startupFailed {index : Nat} {rtld : Option (LinkMapAddress × Nat)} {flags : OpenFlags}
      {load : LoadResult} {failure : Error} {next : Manager Ctx} :
      before.initialising[index]? = some (flags, load) →
      before.manager.startupState load.lease.id rtld = .ok (.error failure, next) →
      Transition before (.startupHook index rtld)
        (abandon { before with manager := next } index load)
  | initialised {index : Nat} {flags : OpenFlags} {load : LoadResult} {opened : OpenedLibrary}
      {next : Manager Ctx} :
      before.initialising[index]? = some (flags, load) →
      before.manager.openLoad load flags = .ok (opened, next) →
      Transition before (.initialised index) { before.addOpened opened next with
        initialising := before.initialising.eraseIdx index }
  | initialiseFailed {index : Nat} {flags : OpenFlags} {load : LoadResult} :
      before.initialising[index]? = some (flags, load) →
      Transition before (.initialiseFailed index) (before.abandon index load)
  | openMain {id : ModuleId} {opened : OpenedLibrary} {next : Manager Ctx} :
      (loadOrder before.manager.linkCtx).head? = some id →
      before.manager.openModule id = some (opened, next) →
      Transition before .openMain (before.addOpened opened next)
  | addrUnknown {addr : Nat} :
      before.manager.libraryByAddr addr = none →
      Transition before (.libraryByAddr addr) before
  | libraryByAddr {addr : Nat} {id : ModuleId} {opened : OpenedLibrary} {next : Manager Ctx} :
      moduleIdAt before.manager.linkCtx addr = some id →
      before.manager.openModule id = some (opened, next) →
      Transition before (.libraryByAddr addr) (before.addOpened opened next)
  | intoElfLibrary {index : Nat} {opened : OpenedLibrary} :
      before.opened[index]? = some opened →
      Transition before (.intoElfLibrary index) { before with
        opened := before.opened.eraseIdx index
        libraries := ⟨opened, 0⟩ :: before.libraries }
  | dropOpened {index : Nat} {opened : OpenedLibrary} {next : Manager Ctx} :
      before.opened[index]? = some opened →
      before.manager.dropLease opened.lease = .ok next →
      Transition before (.dropOpened index)
        { before with manager := next, opened := before.opened.eraseIdx index }
  | cloneLibrary {index : Nat} {library : ElfLibrary} :
      before.libraries[index]? = some library →
      Transition before (.cloneLibrary index) { before with
        libraries := before.libraries.set index { library with clones := library.clones + 1 } }
  | dropClone {index clones : Nat} {library : ElfLibrary} :
      before.libraries[index]? = some library → library.clones = clones + 1 →
      Transition before (.dropLibrary index) { before with
        libraries := before.libraries.set index { library with clones := clones } }
  | dropLibrary {index : Nat} {library : ElfLibrary} {next : Manager Ctx} :
      before.libraries[index]? = some library → library.clones = 0 →
      before.manager.dropLease library.opened.lease = .ok next →
      Transition before (.dropLibrary index)
        { before with manager := next, libraries := before.libraries.eraseIdx index }
  | registerHandle {index handle : Nat} {opened : OpenedLibrary} {next : Manager Ctx} :
      before.opened[index]? = some opened →
      before.manager.registerHandle opened = .ok (handle, next) →
      Transition before (.registerHandle index) { before with
        manager := next
        opened := before.opened.eraseIdx index
        opens := Function.update before.opens handle (before.opens handle + 1) }
  | handleUnknown {handle : Nat} :
      handle = 0 ∨ before.manager.handles.lookup handle = none →
      Transition before (.dlclose handle) before
  | dlclose {handle : Nat} {unloaded : List ModuleId} {next : Manager Ctx} :
      handle ≠ 0 → before.manager.releaseHandle handle = .ok (some unloaded, next) →
      Transition before (.dlclose handle) { before with
        manager := next
        closes := Function.update before.closes handle (before.closes handle + 1) }
  | dlsym {handle : Nat} {name : String} : Transition before (.dlsym handle name) before
  | iteratePhdr {snapshots : List LibrarySnapshot} {next : Manager Ctx} :
      before.manager.librarySnapshot = (snapshots, next) →
      Transition before .iteratePhdr
        { before with manager := next, iterations := snapshots :: before.iterations }
  | iterationEnded {index : Nat} :
      before.iterations[index]? = some [] →
      Transition before (.dropSnapshot index)
        { before with iterations := before.iterations.eraseIdx index }
  | dropSnapshot {index : Nat} {snapshot : LibrarySnapshot} {rest : List LibrarySnapshot}
      {next : Manager Ctx} :
      before.iterations[index]? = some (snapshot :: rest) →
      before.manager.dropLease snapshot.lease = .ok next →
      Transition before (.dropSnapshot index)
        { before with manager := next, iterations := before.iterations.set index rest }
  | destructorUnowned {dsoHandle : Nat} :
      before.manager.acquireModuleByAddr dsoHandle = none →
      Transition before (.registerDestructor dsoHandle)
        { before with destructors := ⟨none⟩ :: before.destructors }
  | registerDestructor {dsoHandle : Nat} {id : ModuleId} {lease : ModuleLease}
      {next : Manager Ctx} :
      moduleIdAt before.manager.linkCtx dsoHandle = some id →
      before.manager.acquireModule id = some (lease, next) →
      Transition before (.registerDestructor dsoHandle)
        { before with manager := next, destructors := ⟨some lease⟩ :: before.destructors }
  | dropUnowned {index : Nat} :
      before.destructors[index]? = some ⟨none⟩ →
      Transition before (.dropDestructor index)
        { before with destructors := before.destructors.eraseIdx index }
  | dropDestructor {index : Nat} {lease : ModuleLease} {next : Manager Ctx} :
      before.destructors[index]? = some ⟨some lease⟩ →
      before.manager.dropLease lease = .ok next →
      Transition before (.dropDestructor index)
        { before with manager := next, destructors := before.destructors.eraseIdx index }

variable {before after : World Ctx}

theorem transition_dlclose {handle : Nat} {closed : Bool}
    (accepted : before.dlcloseAt handle = .ok (closed, after)) :
    Transition before (.dlclose handle) after := by
  rw [dlcloseAt] at accepted
  split at accepted
  · next null =>
      cases accepted
      exact .handleUnknown (.inl null)
  · next nonnull =>
      obtain ⟨⟨result, next⟩, releasing, accepted⟩ := bind_eq_ok.mp accepted
      cases result with
      | none =>
          cases accepted
          obtain ⟨unknown, rfl⟩ := Manager.releaseHandle_none releasing
          exact .handleUnknown (.inr unknown)
      | some unloaded =>
          cases accepted
          exact .dlclose nonnull releasing

theorem transition_of_act {action : Action Ctx} (acted : before.act action = some (.ok after)) :
    Transition before action after := by
  cases action with
  | registerLoaded lib flags =>
      obtain ⟨next, registering, returned⟩ := bind_eq_ok.mp (Option.some.inj acted)
      cases returned
      exact .registerLoaded registering
  | registerInitialAliases =>
      obtain ⟨next, adding, returned⟩ := bind_eq_ok.mp (Option.some.inj acted)
      cases returned
      exact .registerInitialAliases adding
  | openWith bindNow request flags root caller =>
      obtain ⟨⟨outcome, next⟩, opening, returned⟩ := bind_eq_ok.mp (Option.some.inj acted)
      cases returned
      exact .openWith opening
  | publish index =>
      obtain ⟨⟨flags, pending⟩, present, returned⟩ := Option.bind_eq_some_iff.mp acted
      cases returned
      rw [publishAt]
      cases publishing : before.manager.publishPending pending with
      | error failure => exact .publishFailed present publishing
      | ok value => exact .publish present publishing
  | startupHook index rtld =>
      obtain ⟨⟨flags, load⟩, present, ran⟩ := Option.bind_eq_some_iff.mp acted
      obtain ⟨⟨result, next⟩, running, returned⟩ := bind_eq_ok.mp (Option.some.inj ran)
      cases result with
      | ok state =>
          cases returned
          exact .startupHook present running
      | error failure =>
          cases returned
          exact .startupFailed present running
  | initialised index =>
      obtain ⟨⟨flags, load⟩, present, ran⟩ := Option.bind_eq_some_iff.mp acted
      obtain ⟨⟨opened, next⟩, loading, returned⟩ := bind_eq_ok.mp (Option.some.inj ran)
      cases returned
      exact .initialised present loading
  | initialiseFailed index =>
      obtain ⟨⟨flags, load⟩, present, returned⟩ := Option.bind_eq_some_iff.mp acted
      cases returned
      exact .initialiseFailed present
  | openMain =>
      obtain ⟨⟨opened, next⟩, found, returned⟩ := bind_eq_ok.mp (Option.some.inj acted)
      cases returned
      obtain ⟨id, first, opening⟩ := Option.bind_eq_some_iff.mp (expectSome_eq_ok.mp found)
      exact .openMain first opening
  | libraryByAddr addr =>
      rw [act] at acted
      split at acted
      · next unknown =>
          cases acted
          exact .addrUnknown unknown
      · next opened next found =>
          cases acted
          obtain ⟨id, named, opening⟩ := Option.bind_eq_some_iff.mp found
          exact .libraryByAddr named opening
  | intoElfLibrary index =>
      obtain ⟨opened, present, returned⟩ := Option.bind_eq_some_iff.mp acted
      cases returned
      exact .intoElfLibrary present
  | dropOpened index =>
      obtain ⟨opened, present, ran⟩ := Option.bind_eq_some_iff.mp acted
      obtain ⟨next, dropping, returned⟩ := bind_eq_ok.mp (Option.some.inj ran)
      cases returned
      exact .dropOpened present dropping
  | cloneLibrary index =>
      obtain ⟨library, present, returned⟩ := Option.bind_eq_some_iff.mp acted
      cases returned
      exact .cloneLibrary present
  | dropLibrary index =>
      obtain ⟨library, present, ran⟩ := Option.bind_eq_some_iff.mp acted
      replace ran := Option.some.inj ran
      rw [dropLibraryAt] at ran
      split at ran
      · next clones shared =>
          cases ran
          exact .dropClone present shared
      · next last =>
          obtain ⟨next, dropping, returned⟩ := bind_eq_ok.mp ran
          cases returned
          exact .dropLibrary present last dropping
  | registerHandle index =>
      obtain ⟨opened, present, ran⟩ := Option.bind_eq_some_iff.mp acted
      obtain ⟨⟨handle, next⟩, registering, returned⟩ := bind_eq_ok.mp (Option.some.inj ran)
      cases returned
      exact .registerHandle present registering
  | dlclose handle =>
      obtain ⟨⟨closed, next⟩, closing, returned⟩ := bind_eq_ok.mp (Option.some.inj acted)
      cases returned
      exact transition_dlclose closing
  | dlsym handle name =>
      cases acted
      exact .dlsym
  | iteratePhdr =>
      cases acted
      exact .iteratePhdr rfl
  | dropSnapshot index =>
      rw [act] at acted
      split at acted
      · cases acted
      · next ended =>
          cases acted
          exact .iterationEnded ended
      · next snapshot rest present =>
          obtain ⟨next, dropping, returned⟩ := bind_eq_ok.mp (Option.some.inj acted)
          cases returned
          exact .dropSnapshot present dropping
  | registerDestructor dsoHandle =>
      rw [act] at acted
      split at acted
      · next unowned =>
          cases acted
          exact .destructorUnowned unowned
      · next lease next acquired =>
          cases acted
          obtain ⟨id, named, acquiring⟩ := Option.bind_eq_some_iff.mp acquired
          exact .registerDestructor named acquiring
  | dropDestructor index =>
      obtain ⟨⟨owner⟩, present, ran⟩ := Option.bind_eq_some_iff.mp acted
      obtain ⟨next, dropping, returned⟩ := bind_eq_ok.mp (Option.some.inj ran)
      cases returned
      cases owner with
      | none =>
          cases dropping
          exact .dropUnowned present
      | some lease => exact .dropDestructor present dropping

end World

end DynLinker.Registry
