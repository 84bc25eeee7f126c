import DynLinker.Registry.OpenProperties

/-! The recorded `RTLD_NODELETE` flag never lies: a module that carries it is
pinned. Every operation of the registry keeps this. -/

set_option autoImplicit false

namespace DynLinker.Registry

open Lib Loader ElfLoader

def Truthful (view : ContextView) : Prop :=
  ∀ record ∈ view.modules, record.flags.isNodelete = true → view.Pinned record.id

namespace Truthful

variable {before after : ContextView}

theorem of_records (truthful : Truthful before) (pinned : before.pinned ⊆ after.pinned)
    (records : ∀ record ∈ after.modules, record.flags.isNodelete = true →
      (∃ old ∈ before.modules, old.id = record.id ∧ old.flags.isNodelete = true) ∨
        after.Pinned record.id) : Truthful after := by
  intro record member nodelete
  rcases records record member nodelete with ⟨old, known, same, recorded⟩ | pinnedNow
  · obtain ⟨lease, held, leaseId⟩ := truthful old known recorded
    exact ⟨lease, pinned held, leaseId.trans same⟩
  · exact pinnedNow

theorem of_same (truthful : Truthful before) (pinned : before.pinned ⊆ after.pinned)
    (modules : after.modules = before.modules) : Truthful after := by
  refine truthful.of_records pinned ?_
  intro record member nodelete
  rw [modules] at member
  exact .inl ⟨record, member, rfl, nodelete⟩

theorem setFlags (truthful : Truthful before) (pinned : before.pinned ⊆ after.pinned)
    {id : ModuleId} {flags : OpenFlags}
    (modules : after.modules = (before.setFlags id flags).modules)
    (kept : flags.isNodelete = true → after.Pinned id) : Truthful after := by
  refine truthful.of_records pinned ?_
  intro record member nodelete
  rw [modules] at member
  obtain ⟨old, known, rfl⟩ := List.mem_map.mp member
  split at nodelete
  · next same =>
      rw [if_pos same]
      exact .inr (same ▸ kept nodelete)
  · next different =>
      rw [if_neg different]
      exact .inl ⟨old, known, rfl, nodelete⟩

theorem aliased (truthful : Truthful before) {id : ModuleId} {name : String}
    (aliased : Manager.Aliased before after id name) : Truthful after := by
  obtain ⟨aliases, rfl, _⟩ := aliased.shape
  refine truthful.of_records (List.Subset.refl _) ?_
  intro record member nodelete
  obtain ⟨old, known, rfl⟩ := List.mem_map.mp member
  exact .inl ⟨old, known, rfl, nodelete⟩

theorem releases (truthful : Truthful before) {lease : NativeModuleLease}
    {unloaded : List ModuleId} (gone : before.Releases after lease unloaded) : Truthful after := by
  refine truthful.of_records ?_ ?_
  · rw [gone.pinned]
    exact List.Subset.refl _
  · intro record member nodelete
    rw [gone.result] at member
    exact .inl ⟨record, (List.mem_filter.mp member).1, rfl, nodelete⟩

end Truthful

namespace Manager

variable {Ctx : Type} [ElfLoader Ctx] [LawfulElfLoader Ctx]

theorem promote_truthful {manager next : Manager Ctx} {id : ModuleId} {flags : OpenFlags}
    (accepted : manager.promote id flags = .ok next) (truthful : Truthful manager.view) :
    Truthful next.view := by
  obtain ⟨recorded, found, grows, _, modules, _, pinned⟩ := promote_spec accepted
  refine truthful.setFlags grows.grown.pinned modules ?_
  intro nodelete
  cases old : recorded.isNodelete with
  | false =>
      rw [OpenFlags.isNodelete_union, old, Bool.false_or, OpenFlags.isNodelete_promotable]
        at nodelete
      exact pinned nodelete old
  | true =>
      obtain ⟨record, present, rfl⟩ := Option.map_eq_some_iff.mp found
      obtain ⟨member, rfl⟩ := ContextView.find_some present
      exact grows.grown.isPinned (truthful record member old)

theorem recordLoaded_truthful {manager next : Manager Ctx} {id : ModuleId} {flags : OpenFlags}
    (accepted : recordLoaded flags manager id = .ok next) (truthful : Truthful manager.view) :
    Truthful next.view := by
  obtain ⟨_, grows, _, modules, pinned⟩ := recordLoaded_spec accepted
  exact truthful.setFlags grows.grown.pinned modules pinned

omit [LawfulElfLoader Ctx] in
/-- Truth survives a loop if it survives each round. -/
theorem foldlM_truthful {Item : Type} {step : Manager Ctx → Item → Except Panic (Manager Ctx)}
    (each : ∀ before item after, step before item = .ok after → Truthful before.view →
      Truthful after.view) {items : List Item} {manager next : Manager Ctx}
    (accepted : items.foldlM step manager = .ok next) :
    Truthful manager.view → Truthful next.view :=
  @foldlM_relates _ _ _ step (fun before after => Truthful before.view → Truthful after.view)
    (fun _ => id) (fun _ _ _ early late => late ∘ early) each _ _ _ accepted

theorem promoteGlobalIf_truthful {wanted : Bool} {ctx next : Ctx} {id : ModuleId}
    {message : String} (accepted : promoteGlobalIf wanted ctx id message = .ok next)
    (truthful : Truthful (ElfLoader.view ctx)) : Truthful (ElfLoader.view next) := by
  obtain ⟨grown, _, modules, _⟩ := promoteGlobalIf_spec accepted
  exact truthful.of_same grown.pinned modules

theorem openLoad_truthful {manager next : Manager Ctx} {load : LoadResult} {flags : OpenFlags}
    {opened : OpenedLibrary} (accepted : manager.openLoad load flags = .ok (opened, next))
    (truthful : Truthful manager.view) : Truthful next.view := by
  obtain ⟨marked, recording, accepted⟩ := bind_eq_ok.mp accepted
  obtain ⟨global, promoting, accepted⟩ := bind_eq_ok.mp accepted
  obtain ⟨scope, grouping, accepted⟩ := bind_eq_ok.mp accepted
  cases accepted
  exact promoteGlobalIf_truthful promoting
    (foldlM_truthful (fun _ _ _ => recordLoaded_truthful) recording truthful)

theorem addAlias_truthful {manager next : Manager Ctx} {id : ModuleId} {name : String}
    (accepted : manager.addAlias id name = .ok next) (truthful : Truthful manager.view) :
    Truthful next.view :=
  truthful.aliased (addAlias_spec accepted).1

theorem addCompatAliases_truthful {manager next : Manager Ctx} {name : String}
    (accepted : manager.addCompatAliases name = .ok next) (truthful : Truthful manager.view) :
    Truthful next.view := by
  rw [addCompatAliases] at accepted
  split at accepted
  · cases accepted
    exact truthful
  · exact foldlM_truthful (fun _ _ _ => addAlias_truthful) accepted truthful

theorem registerInitialAliases_truthful {manager next : Manager Ctx}
    (accepted : manager.registerInitialAliases = .ok next) (truthful : Truthful manager.view) :
    Truthful next.view :=
  foldlM_truthful (fun _ _ _ => addCompatAliases_truthful) accepted truthful

theorem registerLoaded_truthful {manager next : Manager Ctx} {lib : LoadedDylib}
    {flags : OpenFlags} (accepted : manager.registerLoaded lib flags = .ok next)
    (truthful : Truthful manager.view) : Truthful next.view := by
  obtain ⟨elf, lease, aliased, _, _, named, modules, grows, _, pinned⟩ :=
    registerLoaded_spec accepted
  obtain ⟨aliases, shape, _⟩ := named.shape
  refine truthful.of_records grows.grown.pinned ?_
  intro record member nodelete
  rw [modules, shape] at member
  obtain ⟨old, listed, rfl⟩ := List.mem_map.mp member
  rcases List.mem_append.mp listed with known | added
  · exact .inl ⟨old, known, rfl, nodelete⟩
  · cases List.mem_singleton.mp added
    exact .inr pinned

theorem publishPending_truthful {manager next : Manager Ctx} {pending : Pending Ctx}
    {load : LoadResult} (accepted : manager.publishPending pending = .ok (load, next))
    (truthful : Truthful manager.view) : Truthful next.view := by
  obtain ⟨added, result, _, plain, grown, _⟩ := publishPending_spec accepted
  refine truthful.of_records grown.pinned ?_
  intro record member nodelete
  rw [result] at member
  rcases List.mem_append.mp member with known | new
  · exact .inl ⟨record, known, rfl, nodelete⟩
  · rw [plain record new] at nodelete
    cases nodelete

theorem startupState_truthful {manager next : Manager Ctx} {root : ModuleId}
    {rtld : Option (LinkMapAddress × Nat)} {result : Except Error StartupState}
    (accepted : manager.startupState root rtld = .ok (result, next))
    (truthful : Truthful manager.view) : Truthful next.view := by
  rcases startupState_cases accepted with rfl | ⟨ctx, promoting, adding⟩
  · exact truthful
  · exact registerInitialAliases_truthful adding (promoteGlobalIf_truthful promoting truthful)

end Manager

end DynLinker.Registry
