import DynLinker.Registry.RecordChanges

/-! The global scope holds handles of committed modules only: promotion adds load groups,
and whatever is unloaded leaves the scope with it. -/

set_option autoImplicit false

namespace DynLinker.Registry

open Lib Loader ElfLoader

/-- Every handle of the global scope belongs to a committed module. -/
def ScopeCommitted (view : ContextView) : Prop :=
  ∀ handle ∈ view.globalScope, ∃ record ∈ view.modules, record.handle = handle

instance (view : ContextView) : Decidable (ScopeCommitted view) :=
  inferInstanceAs (Decidable (∀ handle ∈ view.globalScope, _))

/-- Committed handles stay, and only such handles enter the global scope. -/
structure ScopeGrows (before after : ContextView) : Prop where
  handles : ∀ record ∈ before.modules, ∃ kept ∈ after.modules, kept.handle = record.handle
  scope : ∀ handle ∈ after.globalScope, handle ∈ before.globalScope ∨
    ∃ record ∈ after.modules, record.handle = handle

namespace ScopeGrows

variable {before after : ContextView}

theorem refl (view : ContextView) : ScopeGrows view view where
  handles record listed := ⟨record, listed, rfl⟩
  scope _ member := .inl member

theorem trans {middle : ContextView} (early : ScopeGrows before middle)
    (late : ScopeGrows middle after) : ScopeGrows before after where
  handles record listed := by
    obtain ⟨kept, present, same⟩ := early.handles record listed
    obtain ⟨last, stays, alike⟩ := late.handles kept present
    exact ⟨last, stays, alike.trans same⟩
  scope handle member := by
    rcases late.scope handle member with old | new
    · rcases early.scope handle old with older | ⟨record, listed, same⟩
      · exact .inl older
      · obtain ⟨kept, present, alike⟩ := late.handles record listed
        exact .inr ⟨kept, present, alike.trans same⟩
    · exact .inr new

theorem committed (grows : ScopeGrows before after) (committed : ScopeCommitted before) :
    ScopeCommitted after := by
  intro handle member
  rcases grows.scope handle member with old | new
  · obtain ⟨record, listed, same⟩ := committed handle old
    obtain ⟨kept, present, alike⟩ := grows.handles record listed
    exact ⟨kept, present, alike.trans same⟩
  · exact new

theorem of_modules (modules : after.modules = before.modules)
    (scope : after.globalScope = before.globalScope) : ScopeGrows before after where
  handles record listed := ⟨record, modules ▸ listed, rfl⟩
  scope _ member := .inl (scope ▸ member)

theorem of_map {change : ModuleRecord → ModuleRecord}
    (same : ∀ record, (change record).handle = record.handle)
    (modules : after.modules = before.modules.map change)
    (scope : after.globalScope = before.globalScope) : ScopeGrows before after where
  handles record listed := ⟨change record, modules ▸ List.mem_map_of_mem listed, same record⟩
  scope _ member := .inl (scope ▸ member)

theorem of_append {added : List ModuleRecord} (modules : after.modules = before.modules ++ added)
    (scope : after.globalScope = before.globalScope) : ScopeGrows before after where
  handles record listed := ⟨record, modules ▸ List.mem_append_left _ listed, rfl⟩
  scope _ member := .inl (scope ▸ member)

end ScopeGrows

/-- A handle that is left in the scope belongs to no unloaded module. -/
theorem ScopeCommitted.unload {view : ContextView} (committed : ScopeCommitted view)
    (unloaded : List ModuleId) : ScopeCommitted (view.unload unloaded) := by
  intro handle member
  obtain ⟨old, free⟩ := List.mem_filter.mp member
  obtain ⟨record, listed, same⟩ := committed handle old
  refine ⟨record, List.mem_filter.mpr ⟨listed, decide_eq_true ?_⟩, same⟩
  intro gone
  exact of_decide_eq_true free ⟨record, listed, gone, same⟩

namespace Manager

variable {Ctx : Type} [ElfLoader Ctx] [LawfulElfLoader Ctx]

theorem setMeta_scope {ctx next : Ctx} {id : ModuleId} {flags : OpenFlags}
    (accepted : setMeta ctx id flags = .ok next) :
    ScopeGrows (ElfLoader.view ctx) (ElfLoader.view next) := by
  obtain ⟨_, recorded⟩ := LawfulElfLoader.setMeta_spec _ _ _ _ accepted
  rw [recorded]
  refine .of_map ?_ rfl rfl
  intro record
  split
  · rfl
  · rfl

/-- A promoted load group consists of committed modules. -/
theorem promoteGlobalIf_scope {wanted : Bool} {ctx next : Ctx} {id : ModuleId} {message : String}
    (accepted : promoteGlobalIf wanted ctx id message = .ok next) :
    ScopeGrows (ElfLoader.view ctx) (ElfLoader.view next) := by
  cases wanted with
  | false =>
      cases accepted
      exact .refl _
  | true =>
      obtain ⟨root, added, found, scope, members⟩ :=
        LawfulElfLoader.promoteGlobal_spec _ _ _ (expectOk_eq_ok.mp accepted)
      have modules : (ElfLoader.view next).modules = (ElfLoader.view ctx).modules := by
        rw [scope]
      refine ⟨fun record listed => ⟨record, modules ▸ listed, rfl⟩, ?_⟩
      intro handle member
      rcases (members handle).mp member with old | ⟨record, inGroup, same⟩
      · exact .inl old
      · refine .inr ⟨record, ?_, same⟩
        rw [modules]
        cases inGroup with
        | refl => exact (ContextView.find_some found).1
        | tail _ edge => exact edge.1

theorem pinModuleIf_scope {wanted : Bool} {ctx next : Ctx} {id : ModuleId}
    {acquiring pinning : String}
    (accepted : pinModuleIf wanted ctx id acquiring pinning = .ok next) :
    ScopeGrows (ElfLoader.view ctx) (ElfLoader.view next) := by
  obtain ⟨_, _, modules, scope, _⟩ := pinModuleIf_spec accepted
  exact .of_modules modules scope

theorem promote_scope {manager next : Manager Ctx} {id : ModuleId} {flags : OpenFlags}
    (accepted : manager.promote id flags = .ok next) : ScopeGrows manager.view next.view := by
  obtain ⟨recorded, _, accepted⟩ := bind_eq_ok.mp accepted
  obtain ⟨marked, setting, accepted⟩ := bind_eq_ok.mp accepted
  obtain ⟨global, promoting, accepted⟩ := bind_eq_ok.mp accepted
  obtain ⟨final, pinning, accepted⟩ := bind_eq_ok.mp accepted
  cases accepted
  exact (setMeta_scope (expectOk_eq_ok.mp setting)).trans
    ((promoteGlobalIf_scope promoting).trans (pinModuleIf_scope pinning))

theorem acquireModule_scope {manager next : Manager Ctx} {id : ModuleId} {lease : ModuleLease}
    (accepted : manager.acquireModule id = some (lease, next)) :
    ScopeGrows manager.view next.view := by
  obtain ⟨_, _, _, _, _, issued, _⟩ := acquireModule_spec accepted
  rw [issued]
  exact .of_modules rfl rfl

theorem openModule_scope {manager next : Manager Ctx} {id : ModuleId} {opened : OpenedLibrary}
    (accepted : manager.openModule id = some (opened, next)) : ScopeGrows manager.view next.view :=
  acquireModule_scope (openModule_spec accepted).2

theorem recordLoaded_scope {manager next : Manager Ctx} {id : ModuleId} {flags : OpenFlags}
    (accepted : recordLoaded flags manager id = .ok next) : ScopeGrows manager.view next.view := by
  obtain ⟨marked, setting, accepted⟩ := bind_eq_ok.mp accepted
  obtain ⟨final, pinning, accepted⟩ := bind_eq_ok.mp accepted
  cases accepted
  exact (setMeta_scope (expectOk_eq_ok.mp setting)).trans (pinModuleIf_scope pinning)

omit [LawfulElfLoader Ctx] in
/-- A step that grows the scope, repeated over a list. -/
theorem foldlM_scope {Item : Type} {step : Manager Ctx → Item → Except Panic (Manager Ctx)}
    (each : ∀ before item after, step before item = .ok after →
      ScopeGrows before.view after.view) {items : List Item} {manager next : Manager Ctx}
    (accepted : items.foldlM step manager = .ok next) : ScopeGrows manager.view next.view :=
  @foldlM_relates _ _ _ _ (fun early late => ScopeGrows early.view late.view)
    (fun _ => .refl _) (fun _ _ _ => .trans) each _ _ _ accepted

theorem openLoad_scope {manager next : Manager Ctx} {load : LoadResult} {flags : OpenFlags}
    {opened : OpenedLibrary} (accepted : manager.openLoad load flags = .ok (opened, next)) :
    ScopeGrows manager.view next.view := by
  obtain ⟨marked, recording, accepted⟩ := bind_eq_ok.mp accepted
  obtain ⟨global, promoting, accepted⟩ := bind_eq_ok.mp accepted
  obtain ⟨scope, _, accepted⟩ := bind_eq_ok.mp accepted
  cases accepted
  exact (foldlM_scope (fun _ _ _ => recordLoaded_scope) recording).trans
    (promoteGlobalIf_scope promoting)

theorem addAlias_scope {manager next : Manager Ctx} {id : ModuleId} {name : String}
    (accepted : manager.addAlias id name = .ok next) : ScopeGrows manager.view next.view := by
  obtain ⟨aliases, shape, _⟩ := (addAlias_spec accepted).1.shape
  rw [shape]
  refine .of_map ?_ rfl rfl
  intro record
  rfl

theorem addCompatAliases_scope {manager next : Manager Ctx} {name : String}
    (accepted : manager.addCompatAliases name = .ok next) : ScopeGrows manager.view next.view := by
  rw [addCompatAliases] at accepted
  split at accepted
  · cases accepted
    exact .refl _
  · exact foldlM_scope (fun _ _ _ => addAlias_scope) accepted

theorem registerInitialAliases_scope {manager next : Manager Ctx}
    (accepted : manager.registerInitialAliases = .ok next) : ScopeGrows manager.view next.view :=
  foldlM_scope (fun _ _ _ => addCompatAliases_scope) accepted

theorem registerLoaded_scope {manager next : Manager Ctx} {lib : LoadedDylib} {flags : OpenFlags}
    (accepted : manager.registerLoaded lib flags = .ok next) :
    ScopeGrows manager.view next.view := by
  rw [registerLoaded] at accepted
  split at accepted
  · cases accepted
  · obtain ⟨elf, _, accepted⟩ := bind_eq_ok.mp accepted
    obtain ⟨⟨lease, inserted⟩, inserting, accepted⟩ := bind_eq_ok.mp accepted
    obtain ⟨aliased, adding, accepted⟩ := bind_eq_ok.mp accepted
    obtain ⟨global, promoting, accepted⟩ := bind_eq_ok.mp accepted
    obtain ⟨final, pinning, accepted⟩ := bind_eq_ok.mp accepted
    cases accepted
    obtain ⟨_, _, insertedView⟩ :=
      LawfulElfLoader.insert_spec _ _ _ _ (expectOk_eq_ok.mp inserting)
    obtain ⟨_, consumed⟩ := LawfulElfLoader.pin_spec _ _ _ (expectOk_eq_ok.mp pinning)
    have grown : ScopeGrows manager.view (ElfLoader.view inserted) := by
      rw [insertedView]
      exact .of_append rfl rfl
    have pinned : ScopeGrows (ElfLoader.view global) (ElfLoader.view final) := by
      rw [consumed]
      exact .of_modules rfl rfl
    exact grown.trans ((addAlias_scope adding).trans
      ((promoteGlobalIf_scope promoting).trans pinned))

theorem snapshotModules_scope {ids : List ModuleId} {manager next : Manager Ctx}
    {snapshots : List LibrarySnapshot}
    (accepted : manager.snapshotModules ids = (snapshots, next)) :
    ScopeGrows manager.view next.view := by
  induction ids generalizing manager snapshots with
  | nil =>
      cases accepted
      exact .refl _
  | cons id rest ih =>
      rw [snapshotModules] at accepted
      cases taken : manager.snapshotModule id with
      | none =>
          rw [taken] at accepted
          exact ih accepted
      | some pair =>
          obtain ⟨snapshot, middle⟩ := pair
          rw [taken] at accepted
          obtain ⟨_, _, _, _, acquiring⟩ := snapshotModule_spec taken
          cases accepted
          exact (acquireModule_scope acquiring).trans (ih rfl)

theorem startupState_scope {manager next : Manager Ctx} {root : ModuleId}
    {rtld : Option (LinkMapAddress × Nat)} {result : Except Error StartupState}
    (accepted : manager.startupState root rtld = .ok (result, next)) :
    ScopeGrows manager.view next.view := by
  rcases startupState_cases accepted with rfl | ⟨ctx, promoting, adding⟩
  · exact .refl _
  · exact (promoteGlobalIf_scope promoting).trans (registerInitialAliases_scope adding)

theorem publishPending_scope {manager next : Manager Ctx} {pending : Pending Ctx}
    {load : LoadResult} (accepted : manager.publishPending pending = .ok (load, next)) :
    ScopeGrows manager.view next.view := by
  obtain ⟨added, result, _⟩ := publishPending_spec accepted
  rw [result]
  exact .of_append rfl rfl

theorem release_scope {manager next : Manager Ctx} {lease : NativeModuleLease}
    {unloaded : List ModuleId} (accepted : manager.release lease = .ok (unloaded, next))
    (committed : ScopeCommitted manager.view) : ScopeCommitted next.view := by
  obtain ⟨⟨gone, ctx⟩, releasing, accepted⟩ := bind_eq_ok.mp accepted
  cases accepted
  obtain ⟨_, result, _⟩ := LawfulElfLoader.release_spec _ _ _ _ (expectOk_eq_ok.mp releasing)
  change ScopeCommitted (ElfLoader.view ctx)
  rw [result]
  exact ScopeCommitted.unload committed unloaded

theorem dropLease_scope {manager next : Manager Ctx} {lease : ModuleLease}
    (accepted : manager.dropLease lease = .ok next) (committed : ScopeCommitted manager.view) :
    ScopeCommitted next.view := by
  rw [dropLease] at accepted
  split at accepted
  · cases accepted
    exact committed
  · obtain ⟨⟨unloaded, released⟩, releasing, dropped⟩ := bind_eq_ok.mp accepted
    cases dropped
    exact release_scope releasing committed

theorem releaseHandle_scope {manager next : Manager Ctx} {handle : Nat}
    {unloaded : List ModuleId}
    (accepted : manager.releaseHandle handle = .ok (some unloaded, next))
    (committed : ScopeCommitted manager.view) : ScopeCommitted next.view := by
  obtain ⟨state, inner, _, _, releasing⟩ := releaseHandle_some accepted
  refine release_scope releasing ?_
  rw [view, replaceHandle_linkCtx]
  exact committed

theorem rollbackLoad_scope {manager : Manager Ctx} (load : LoadResult)
    (committed : ScopeCommitted manager.view) :
    ScopeCommitted (manager.rollbackLoad load).view := by
  rw [rollbackLoad]
  cases rolling : rollback manager.linkCtx load with
  | error failure => exact committed
  | ok ctx =>
      obtain ⟨_, unloaded, result, _⟩ := LawfulElfLoader.rollback_spec _ _ _ rolling
      change ScopeCommitted (ElfLoader.view ctx)
      rw [result]
      exact ScopeCommitted.unload committed unloaded

end Manager

/-! ## Steps -/

namespace World

variable {Ctx : Type} [ElfLoader Ctx] [LawfulElfLoader Ctx] {before after : World Ctx}

theorem act_scope {action : Action Ctx} (accepted : before.act action = some (.ok after))
    (committed : ScopeCommitted before.view) : ScopeCommitted after.view := by
  cases transition_of_act accepted with
  | registerLoaded registering =>
      exact (Manager.registerLoaded_scope registering).committed committed
  | registerInitialAliases adding =>
      exact (Manager.registerInitialAliases_scope adding).committed committed
  | openWith opening =>
      rcases Manager.openWith_cases opening with
        ⟨id, promoted, opened, rfl, promoting, opening⟩ | ⟨rfl, ⟨error, rfl⟩ | ⟨pending, rfl⟩⟩
      · exact ((Manager.promote_scope promoting).trans
          (Manager.openModule_scope opening)).committed committed
      · exact committed
      · exact committed
  | publishFailed present failed => exact committed
  | publish present publishing =>
      exact (Manager.publishPending_scope publishing).committed committed
  | startupHook present running => exact (Manager.startupState_scope running).committed committed
  | startupFailed present running =>
      exact Manager.rollbackLoad_scope _ ((Manager.startupState_scope running).committed committed)
  | initialised present loading => exact (Manager.openLoad_scope loading).committed committed
  | initialiseFailed present => exact Manager.rollbackLoad_scope _ committed
  | openMain first opening => exact (Manager.openModule_scope opening).committed committed
  | addrUnknown unknown => exact committed
  | libraryByAddr named opening => exact (Manager.openModule_scope opening).committed committed
  | intoElfLibrary present => exact committed
  | dropOpened present dropping => exact Manager.dropLease_scope dropping committed
  | cloneLibrary present => exact committed
  | dropClone present shared => exact committed
  | dropLibrary present last dropping => exact Manager.dropLease_scope dropping committed
  | registerHandle present registering =>
      obtain ⟨_, _, _, rfl⟩ := Manager.registerHandle_spec registering
      exact committed
  | handleUnknown unknown => exact committed
  | dlclose nonnull releasing => exact Manager.releaseHandle_scope releasing committed
  | dlsym => exact committed
  | iteratePhdr taken => exact (Manager.snapshotModules_scope taken).committed committed
  | iterationEnded present => exact committed
  | dropSnapshot present dropping => exact Manager.dropLease_scope dropping committed
  | destructorUnowned unowned => exact committed
  | registerDestructor named acquiring =>
      exact (Manager.acquireModule_scope acquiring).committed committed
  | dropUnowned present => exact committed
  | dropDestructor present dropping => exact Manager.dropLease_scope dropping committed

end World

variable {Ctx : Type} [ElfLoader Ctx] [LawfulElfLoader Ctx]

theorem scopeCommitted_inductive :
    (World.system : TransitionSystem (World Ctx) (Action Ctx)).Inductive fun world =>
      ScopeCommitted world.view where
  initially world fresh := by
    obtain rfl : world = .new := fresh
    intro handle member
    change handle ∈ (ElfLoader.view (ElfLoader.new : Ctx)).globalScope at member
    rw [LawfulElfLoader.view_new] at member
    cases member
  preserved _ _ _ committed step := World.act_scope step committed

theorem scopeCommitted_reachable {world : World Ctx} (reached : World.system.Reachable world) :
    ScopeCommitted world.view :=
  scopeCommitted_inductive.reachable reached

end DynLinker.Registry
