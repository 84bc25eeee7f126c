import DynLinker.Loader.ContextProperties
import DynLinker.Registry.Manager

/-! What each operation of the registry does to the recorded data, for every
lawful ELF loader. Later modules cite these and do not unfold the operations. -/

set_option autoImplicit false

namespace DynLinker.Registry

open Lib Loader ElfLoader

namespace Manager

variable {Ctx : Type} [ElfLoader Ctx] [LawfulElfLoader Ctx]

/-- Only the context moved, and only by growing; nothing new is outstanding. -/
structure Grows (before after : Manager Ctx) : Prop where
  handles : after.handles = before.handles
  subs : after.subs = before.subs
  grown : before.view.Extends after.view
  outstanding : after.view.outstanding = before.view.outstanding

namespace Grows

omit [LawfulElfLoader Ctx] in
theorem refl (manager : Manager Ctx) : manager.Grows manager :=
  ⟨rfl, rfl, .refl _, rfl⟩

omit [LawfulElfLoader Ctx] in
theorem trans {first second third : Manager Ctx} (early : first.Grows second)
    (late : second.Grows third) : first.Grows third where
  handles := late.handles.trans early.handles
  subs := late.subs.trans early.subs
  grown := early.grown.trans late.grown
  outstanding := late.outstanding.trans early.outstanding

omit [LawfulElfLoader Ctx] in
theorem foldlM {Item : Type} {step : Manager Ctx → Item → Except Panic (Manager Ctx)}
    (each : ∀ before item after, step before item = .ok after → before.Grows after)
    {items : List Item} {before after : Manager Ctx}
    (accepted : items.foldlM step before = .ok after) : before.Grows after :=
  foldlM_relates refl (fun _ _ _ => trans) each accepted

end Grows

/-! ## Pinning and promotion -/

/-- The load group of a module is part of the global scope. -/
def GroupGlobal (view : ContextView) (id : ModuleId) : Prop :=
  ∃ root, view.find id = some root ∧
    ∀ record, view.InGroup root record → record.handle ∈ view.globalScope

omit [LawfulElfLoader Ctx] in
theorem GroupGlobal.of_same {before after : ContextView} {id : ModuleId}
    (groupGlobal : GroupGlobal before id) (modules : after.modules = before.modules)
    (scope : after.globalScope = before.globalScope) : GroupGlobal after id := by
  obtain ⟨root, found, members⟩ := groupGlobal
  refine ⟨root, ?_, ?_⟩
  · rw [ContextView.find, modules]
    exact found
  · intro record inGroup
    rw [scope]
    apply members
    refine Relation.ReflTransGen.mono (p := before.GroupEdge) ?_ _ _ inGroup
    intro source target edge
    exact ⟨modules ▸ edge.1, edge.2⟩

theorem pinModuleIf_spec {wanted : Bool} {ctx next : Ctx} {id : ModuleId}
    {acquiring pinning : String}
    (accepted : pinModuleIf wanted ctx id acquiring pinning = .ok next) :
    (ElfLoader.view ctx).Extends (ElfLoader.view next) ∧
      (ElfLoader.view next).outstanding = (ElfLoader.view ctx).outstanding ∧
      (ElfLoader.view next).modules = (ElfLoader.view ctx).modules ∧
      (ElfLoader.view next).globalScope = (ElfLoader.view ctx).globalScope ∧
      (wanted = true → (ElfLoader.view next).Pinned id) := by
  cases wanted with
  | false =>
      cases accepted
      exact ⟨.refl _, rfl, rfl, rfl, by simp⟩
  | true =>
      obtain ⟨⟨lease, middle⟩, acquired, pinned⟩ := bind_eq_ok.mp accepted
      obtain ⟨committed, rfl, fresh, issued⟩ :=
        LawfulElfLoader.acquire_spec _ _ _ _ (expectOk_eq_ok.mp acquired)
      obtain ⟨_, consumed⟩ := LawfulElfLoader.pin_spec _ _ _ (expectOk_eq_ok.mp pinned)
      rw [consumed, issued]
      refine ⟨(ContextView.Extends.issue committed fresh).trans (.consume List.mem_cons_self),
        ContextView.consume_issue _ _, rfl, rfl, ?_⟩
      intro _
      exact ⟨lease, List.mem_cons_self, rfl⟩

theorem setMeta_extends {ctx next : Ctx} {id : ModuleId} {flags : OpenFlags}
    (accepted : setMeta ctx id flags = .ok next) :
    (ElfLoader.view ctx).Committed id ∧
      ElfLoader.view next = (ElfLoader.view ctx).setFlags id flags ∧
      (ElfLoader.view ctx).Extends (ElfLoader.view next) := by
  obtain ⟨committed, recorded⟩ := LawfulElfLoader.setMeta_spec _ _ _ _ accepted
  refine ⟨committed, recorded, ?_⟩
  rw [recorded]
  exact .of_same (ContextView.setFlags_order _ _ _) rfl rfl rfl rfl

theorem promoteGlobalIf_total {wanted : Bool} {ctx : Ctx} {id : ModuleId} {message : String}
    (committed : (ElfLoader.view ctx).Committed id) :
    ∃ next, promoteGlobalIf wanted ctx id message = .ok next := by
  cases wanted with
  | false => exact ⟨ctx, rfl⟩
  | true =>
      obtain ⟨next, promoted⟩ := LawfulElfLoader.promoteGlobal_total ctx id committed
      exact ⟨next, expectOk_eq_ok.mpr promoted⟩

theorem promoteGlobalIf_spec {wanted : Bool} {ctx next : Ctx} {id : ModuleId} {message : String}
    (accepted : promoteGlobalIf wanted ctx id message = .ok next) :
    (ElfLoader.view ctx).Extends (ElfLoader.view next) ∧
      (ElfLoader.view next).outstanding = (ElfLoader.view ctx).outstanding ∧
      (ElfLoader.view next).modules = (ElfLoader.view ctx).modules ∧
      (wanted = true → GroupGlobal (ElfLoader.view next) id) := by
  cases wanted with
  | false =>
      cases accepted
      exact ⟨.refl _, rfl, rfl, by simp⟩
  | true =>
      obtain ⟨root, added, found, scope, members⟩ :=
        LawfulElfLoader.promoteGlobal_spec _ _ _ (expectOk_eq_ok.mp accepted)
      have sameModules : (ElfLoader.view next).modules = (ElfLoader.view ctx).modules := by
        rw [scope]
      refine ⟨?_, by rw [scope], sameModules, fun _ => ⟨root, ?_, ?_⟩⟩
      · rw [scope]
        exact .of_same rfl rfl rfl rfl rfl
      · rw [ContextView.find, sameModules]
        exact found
      · intro record inGroup
        refine (members record.handle).mpr (.inr ⟨record, ?_, rfl⟩)
        rw [scope] at inGroup
        exact inGroup

theorem promote_spec {manager next : Manager Ctx} {id : ModuleId} {flags : OpenFlags}
    (accepted : manager.promote id flags = .ok next) :
    ∃ recorded, manager.view.flagsOf id = some recorded ∧ manager.Grows next ∧
      next.adds = manager.adds ∧
      next.view.modules =
        (manager.view.setFlags id (recorded.union flags.promotable)).modules ∧
      (flags.isGlobal = true → GroupGlobal next.view id) ∧
      (flags.isNodelete = true → recorded.isNodelete = false → next.view.Pinned id) := by
  obtain ⟨recorded, found, accepted⟩ := bind_eq_ok.mp accepted
  obtain ⟨marked, setting, accepted⟩ := bind_eq_ok.mp accepted
  obtain ⟨global, promoting, accepted⟩ := bind_eq_ok.mp accepted
  obtain ⟨final, pinning, accepted⟩ := bind_eq_ok.mp accepted
  cases accepted
  obtain ⟨_, markedView, markedGrown⟩ := setMeta_extends (expectOk_eq_ok.mp setting)
  have markedOutstanding : (ElfLoader.view marked).outstanding = manager.view.outstanding := by
    rw [markedView]
    rfl
  obtain ⟨globalGrown, globalOutstanding, globalModules, globalScope⟩ :=
    promoteGlobalIf_spec promoting
  obtain ⟨finalGrown, finalOutstanding, finalModules, finalScope, finalPinned⟩ :=
    pinModuleIf_spec pinning
  rw [OpenFlags.isGlobal_promotable] at globalScope
  refine ⟨recorded, expectSome_eq_ok.mp found, ⟨rfl, rfl, ?_, ?_⟩, rfl, ?_, ?_, ?_⟩
  · exact markedGrown.trans (globalGrown.trans finalGrown)
  · exact finalOutstanding.trans (globalOutstanding.trans markedOutstanding)
  · exact finalModules.trans (globalModules.trans (congrArg ContextView.modules markedView))
  · intro isGlobal
    exact (globalScope isGlobal).of_same finalModules finalScope
  · intro nodelete unrecorded
    apply finalPinned
    simp [nodelete, unrecorded]

/-! ## Acquiring -/

theorem acquireModule_total {manager : Manager Ctx} {id : ModuleId}
    (committed : manager.view.Committed id) :
    ∃ lease next, manager.acquireModule id = some (lease, next) := by
  obtain ⟨lease, ctx, acquired⟩ := LawfulElfLoader.acquire_total manager.linkCtx id committed
  refine ⟨.new lease, { manager with linkCtx := ctx }, ?_⟩
  rw [acquireModule, acquired]

theorem acquireModule_spec {manager next : Manager Ctx} {id : ModuleId} {lease : ModuleLease}
    (accepted : manager.acquireModule id = some (lease, next)) :
    ∃ inner, lease = .new inner ∧ inner.id = id ∧ inner ∉ manager.view.issued ∧
      manager.view.Committed id ∧ next.view = manager.view.issue inner ∧
      next.handles = manager.handles ∧ next.adds = manager.adds ∧ next.subs = manager.subs := by
  rw [acquireModule] at accepted
  cases acquired : acquire manager.linkCtx id with
  | error failure =>
      rw [acquired] at accepted
      cases accepted
  | ok value =>
      rw [acquired] at accepted
      cases accepted
      obtain ⟨committed, same, fresh, issued⟩ := LawfulElfLoader.acquire_spec _ _ _ _ acquired
      exact ⟨value.1, rfl, same, fresh, committed, issued, rfl, rfl, rfl⟩

omit [LawfulElfLoader Ctx] in
/-- An opened library: its scope is the load group of the module it leases. -/
theorem openModule_spec {manager next : Manager Ctx} {id : ModuleId} {opened : OpenedLibrary}
    (accepted : manager.openModule id = some (opened, next)) :
    loadGroup manager.linkCtx id = .ok opened.scope ∧
      manager.acquireModule id = some (opened.lease, next) := by
  rw [openModule] at accepted
  cases grouped : loadGroup manager.linkCtx id with
  | error failure =>
      rw [grouped] at accepted
      cases accepted
  | ok scope =>
      rw [grouped] at accepted
      obtain ⟨⟨lease, acquired⟩, found, same⟩ := Option.bind_eq_some_iff.mp accepted
      cases same
      exact ⟨rfl, found⟩

theorem openModule_total {manager : Manager Ctx} {id : ModuleId}
    (committed : manager.view.Committed id) :
    ∃ opened next, manager.openModule id = some (opened, next) := by
  obtain ⟨scope, grouped⟩ := LawfulElfLoader.loadGroup_total manager.linkCtx id committed
  obtain ⟨lease, next, acquired⟩ := acquireModule_total committed
  refine ⟨⟨scope, lease⟩, next, ?_⟩
  rw [openModule, grouped, acquired]
  rfl

theorem openExisting_spec {manager next : Manager Ctx} {key : String} {flags : OpenFlags}
    {found : Option OpenedLibrary} (accepted : manager.openExisting key flags = .ok (found, next)) :
    (found = none ∧ next = manager ∧ moduleId manager.linkCtx key = none) ∨
      ∃ id promoted opened, moduleId manager.linkCtx key = some id ∧
        manager.promote id flags = .ok promoted ∧
        promoted.openModule id = some (opened, next) ∧ found = some opened := by
  rw [openExisting] at accepted
  cases named : moduleId manager.linkCtx key with
  | none =>
      rw [named] at accepted
      cases accepted
      exact .inl ⟨rfl, rfl, rfl⟩
  | some id =>
      rw [named] at accepted
      obtain ⟨promoted, promoting, accepted⟩ := bind_eq_ok.mp accepted
      obtain ⟨record, member, same, _⟩ := LawfulElfLoader.moduleId_named _ _ _ named
      obtain ⟨_, _, grows, _⟩ := promote_spec promoting
      have committed : promoted.view.Committed id :=
        grows.grown.committed ⟨record, member, same⟩
      obtain ⟨opened, final, opening⟩ := openModule_total committed
      simp only [opening] at accepted
      cases accepted
      exact .inr ⟨id, promoted, opened, rfl, promoting, opening, rfl⟩

/-! ## Recording a finished load -/

theorem recordLoaded_spec {manager next : Manager Ctx} {id : ModuleId} {flags : OpenFlags}
    (accepted : recordLoaded flags manager id = .ok next) :
    manager.view.Committed id ∧ manager.Grows next ∧ next.adds = manager.adds + 1 ∧
      next.view.modules = (manager.view.setFlags id flags).modules ∧
      (flags.isNodelete = true → next.view.Pinned id) := by
  obtain ⟨marked, setting, accepted⟩ := bind_eq_ok.mp accepted
  obtain ⟨final, pinning, accepted⟩ := bind_eq_ok.mp accepted
  cases accepted
  obtain ⟨committed, markedView, markedGrown⟩ := setMeta_extends (expectOk_eq_ok.mp setting)
  obtain ⟨grown, outstanding, modules, _, pinned⟩ := pinModuleIf_spec pinning
  refine ⟨committed, ⟨rfl, rfl, markedGrown.trans grown, ?_⟩, rfl, ?_, pinned⟩
  · refine outstanding.trans ?_
    rw [markedView]
    rfl
  · exact modules.trans (congrArg ContextView.modules markedView)

omit [LawfulElfLoader Ctx] in
theorem flagsOf_of_modules {left right : ContextView} (same : left.modules = right.modules)
    (id : ModuleId) : left.flagsOf id = right.flagsOf id := by
  rw [ContextView.flagsOf, ContextView.flagsOf, ContextView.find, ContextView.find, same]

theorem recordLoaded_flags {manager next : Manager Ctx} {id : ModuleId} {flags : OpenFlags}
    (accepted : recordLoaded flags manager id = .ok next) (other : ModuleId) :
    next.view.flagsOf other = if other = id then some flags else manager.view.flagsOf other := by
  obtain ⟨committed, _, _, modules, _⟩ := recordLoaded_spec accepted
  rw [flagsOf_of_modules modules]
  split
  · next same =>
      subst same
      exact ContextView.flagsOf_setFlags_self flags committed
  · next different => exact ContextView.flagsOf_setFlags_ne flags different

/-- After the loop of `open_load` the listed modules carry the flags, and are pinned
if the flags say so; all others are as before. -/
theorem recordLoaded_foldlM {flags : OpenFlags} {ids : List ModuleId}
    {manager next : Manager Ctx} (accepted : ids.foldlM (recordLoaded flags) manager = .ok next) :
    manager.Grows next ∧ next.adds = manager.adds + ids.length ∧
      (∀ id ∈ ids, next.view.flagsOf id = some flags ∧
        (flags.isNodelete = true → next.view.Pinned id)) ∧
      ∀ id, id ∉ ids → next.view.flagsOf id = manager.view.flagsOf id := by
  induction ids generalizing manager with
  | nil =>
      cases accepted
      exact ⟨.refl _, rfl, by simp, by simp⟩
  | cons id rest ih =>
      rw [List.foldlM_cons] at accepted
      obtain ⟨middle, first, accepted⟩ := bind_eq_ok.mp accepted
      obtain ⟨_, firstGrows, firstAdds, _, firstPinned⟩ := recordLoaded_spec first
      obtain ⟨restGrows, restAdds, restListed, restOther⟩ := ih accepted
      refine ⟨firstGrows.trans restGrows, ?_, ?_, ?_⟩
      · rw [restAdds, firstAdds, List.length_cons]
        omega
      · intro other member
        by_cases later : other ∈ rest
        · exact restListed other later
        · have same : other = id := (List.mem_cons.mp member).resolve_right later
          rw [restOther other later, recordLoaded_flags first, if_pos same]
          refine ⟨rfl, ?_⟩
          intro nodelete
          rw [same]
          exact restGrows.grown.isPinned (firstPinned nodelete)
      · intro other absent
        rw [List.mem_cons, not_or] at absent
        rw [restOther other absent.2, recordLoaded_flags first, if_neg absent.1]

theorem openLoad_spec {manager next : Manager Ctx} {load : LoadResult} {flags : OpenFlags}
    {opened : OpenedLibrary} (accepted : manager.openLoad load flags = .ok (opened, next)) :
    manager.Grows next ∧ next.adds = manager.adds + load.modules.length ∧
      opened.lease = .new load.lease ∧ loadGroup next.linkCtx load.lease.id = .ok opened.scope ∧
      (flags.isGlobal = true → GroupGlobal next.view load.lease.id) ∧
      (∀ id ∈ load.modules, next.view.flagsOf id = some flags ∧
        (flags.isNodelete = true → next.view.Pinned id)) ∧
      ∀ id, id ∉ load.modules → next.view.flagsOf id = manager.view.flagsOf id := by
  obtain ⟨marked, recording, accepted⟩ := bind_eq_ok.mp accepted
  obtain ⟨global, promoting, accepted⟩ := bind_eq_ok.mp accepted
  obtain ⟨scope, grouping, accepted⟩ := bind_eq_ok.mp accepted
  cases accepted
  obtain ⟨markedGrows, markedAdds, listed, other⟩ := recordLoaded_foldlM recording
  obtain ⟨grown, outstanding, modules, globalScope⟩ := promoteGlobalIf_spec promoting
  have sameFlags := flagsOf_of_modules modules
  refine ⟨⟨markedGrows.handles, markedGrows.subs, markedGrows.grown.trans grown,
    outstanding.trans markedGrows.outstanding⟩, markedAdds, rfl, expectOk_eq_ok.mp grouping,
    globalScope, ?_, ?_⟩
  · intro id member
    obtain ⟨marked, pinned⟩ := listed id member
    exact ⟨(sameFlags id).trans marked, fun nodelete => grown.isPinned (pinned nodelete)⟩
  · intro id absent
    exact (sameFlags id).trans (other id absent)

/-! ## Registration -/

/-- Only the aliases change, and no name that somebody carries is lost. -/
structure Aliased (before after : ContextView) (id : ModuleId) (name : String) : Prop where
  shape : ∃ aliases : ModuleRecord → List String,
    after = { before with
      modules := before.modules.map fun record => { record with aliases := aliases record } } ∧
    ∀ record ∈ before.modules, ∀ given ∈ aliases record,
      given ∈ record.aliases ∨ (record.id = id ∧ given = name ∧ name ≠ "")
  total : ∀ given, ((given = name ∧ name ≠ "") ∨ ∃ record ∈ before.modules, record.Named given) →
    ∃ record ∈ after.modules, record.Named given

theorem addAlias_spec {manager next : Manager Ctx} {id : ModuleId} {name : String}
    (accepted : manager.addAlias id name = .ok next) :
    Aliased manager.view next.view id name ∧ next.handles = manager.handles ∧
      next.adds = manager.adds ∧ next.subs = manager.subs := by
  obtain ⟨key, found, accepted⟩ := bind_eq_ok.mp accepted
  obtain ⟨record, recorded, same⟩ := Option.map_eq_some_iff.mp (expectSome_eq_ok.mp found)
  split at accepted
  · next skipped =>
      cases accepted
      refine ⟨⟨⟨ModuleRecord.aliases, by simp, fun record _ given member => .inl member⟩, ?_⟩,
        rfl, rfl, rfl⟩
      intro given carried
      rcases carried with ⟨rfl, nonempty⟩ | carried
      · refine ⟨record, (ContextView.find_some recorded).1, .inl ?_⟩
        rw [same]
        exact skipped.resolve_left nonempty
      · exact carried
  · next named =>
      obtain ⟨ctx, adding, accepted⟩ := bind_eq_ok.mp accepted
      cases accepted
      obtain ⟨aliases, shape, only, total⟩ :=
        LawfulElfLoader.addAlias_spec _ _ _ _ (expectOk_eq_ok.mp adding)
      have nonempty : name ≠ "" := fun empty => named (.inl empty)
      refine ⟨⟨⟨aliases, shape, ?_⟩, ?_⟩, rfl, rfl, rfl⟩
      · intro record member given carried
        exact (only record member given carried).imp_right fun added =>
          ⟨added.1, added.2, nonempty⟩
      · intro given carried
        exact total given (carried.imp_left And.left)

omit [LawfulElfLoader Ctx] in
theorem Aliased.extends_ {before after : ContextView} {id : ModuleId} {name : String}
    (aliased : Aliased before after id name) :
    before.Extends after ∧ after.outstanding = before.outstanding ∧
      after.pinned = before.pinned := by
  obtain ⟨aliases, rfl, _⟩ := aliased.shape
  refine ⟨.of_same ?_ rfl rfl rfl rfl, rfl, rfl⟩
  simp [ContextView.order]

theorem addAlias_grows {manager next : Manager Ctx} {id : ModuleId} {name : String}
    (accepted : manager.addAlias id name = .ok next) : manager.Grows next := by
  obtain ⟨aliased, handles, _, subs⟩ := addAlias_spec accepted
  obtain ⟨grown, outstanding, _⟩ := aliased.extends_
  exact ⟨handles, subs, grown, outstanding⟩

theorem addAlias_total {manager : Manager Ctx} {id : ModuleId} (name : String)
    (committed : manager.view.Committed id) : ∃ next, manager.addAlias id name = .ok next := by
  obtain ⟨record, found⟩ := ContextView.committed_iff_find.mp committed
  have keyed : moduleKey manager.linkCtx id = some record.key := by
    rw [moduleKey, show (ElfLoader.view manager.linkCtx).find id = some record from found]
    rfl
  obtain ⟨ctx, added⟩ := LawfulElfLoader.addAlias_total manager.linkCtx id name committed
  by_cases skipped : name = "" ∨ name = record.key
  · exact ⟨manager, bind_eq_ok.mpr ⟨_, expectSome_eq_ok.mpr keyed, by rw [if_pos skipped]; rfl⟩⟩
  · refine ⟨{ manager with linkCtx := ctx }, bind_eq_ok.mpr
      ⟨_, expectSome_eq_ok.mpr keyed, ?_⟩⟩
    rw [if_neg skipped]
    exact bind_eq_ok.mpr ⟨ctx, expectOk_eq_ok.mpr added, rfl⟩

theorem addAlias_foldlM_total {names : List String} {manager : Manager Ctx} {id : ModuleId}
    (committed : manager.view.Committed id) :
    ∃ next, names.foldlM (fun manager given => manager.addAlias id given) manager = .ok next := by
  induction names generalizing manager with
  | nil => exact ⟨manager, rfl⟩
  | cons name rest ih =>
      obtain ⟨middle, adding⟩ := addAlias_total name committed
      obtain ⟨next, later⟩ := ih ((addAlias_grows adding).grown.committed committed)
      refine ⟨next, ?_⟩
      rw [List.foldlM_cons]
      exact bind_eq_ok.mpr ⟨middle, adding, later⟩

theorem addCompatAliases_total (manager : Manager Ctx) (name : String) :
    ∃ next, manager.addCompatAliases name = .ok next := by
  rw [addCompatAliases]
  cases found : moduleId manager.linkCtx name with
  | none => exact ⟨manager, rfl⟩
  | some id =>
      obtain ⟨record, member, same, _⟩ := LawfulElfLoader.moduleId_named _ _ _ found
      exact addAlias_foldlM_total ⟨record, member, same⟩

theorem addCompatAliases_grows {manager next : Manager Ctx} {name : String}
    (accepted : manager.addCompatAliases name = .ok next) : manager.Grows next := by
  rw [addCompatAliases] at accepted
  split at accepted
  · cases accepted
    exact .refl _
  · exact Grows.foldlM (fun _ _ _ adding => addAlias_grows adding) accepted

theorem registerInitialAliases_grows {manager next : Manager Ctx}
    (accepted : manager.registerInitialAliases = .ok next) : manager.Grows next :=
  Grows.foldlM (fun _ _ _ step => addCompatAliases_grows step) accepted

/-- The record that `register_loaded` inserts before it adds the file name. -/
def loadedRecord (ctx : Ctx) (id : ModuleId) (lib : LoadedDylib) (elf : ElfModule)
    (flags : OpenFlags) : ModuleRecord where
  id := id
  key := elf.soname.getD lib.handle.name
  aliases := []
  flags := flags
  handle := lib.handle
  dependencies := knownDependencies ctx elf.neededLibs

theorem registerLoaded_spec {manager next : Manager Ctx} {lib : LoadedDylib} {flags : OpenFlags}
    (accepted : manager.registerLoaded lib flags = .ok next) :
    ∃ (elf : ElfModule) (lease : NativeModuleLease) (aliased : ContextView),
      lib.handle.elf = some elf ∧ ¬ manager.view.Committed lease.id ∧
      Aliased ((manager.view.append [loadedRecord manager.linkCtx lease.id lib elf flags]).issue
        lease) aliased lease.id elf.fileName ∧
      next.view.modules = aliased.modules ∧ manager.Grows next ∧
      next.adds = manager.adds + 1 ∧ next.view.Pinned lease.id := by
  rw [registerLoaded] at accepted
  split at accepted
  · cases accepted
  · obtain ⟨elf, downcast, accepted⟩ := bind_eq_ok.mp accepted
    obtain ⟨⟨lease, inserted⟩, inserting, accepted⟩ := bind_eq_ok.mp accepted
    obtain ⟨aliased, adding, accepted⟩ := bind_eq_ok.mp accepted
    obtain ⟨global, promoting, accepted⟩ := bind_eq_ok.mp accepted
    obtain ⟨final, pinning, accepted⟩ := bind_eq_ok.mp accepted
    cases accepted
    obtain ⟨absent, fresh, insertedView⟩ :=
      LawfulElfLoader.insert_spec _ _ _ _ (expectOk_eq_ok.mp inserting)
    obtain ⟨named, handles, adds, subs⟩ := addAlias_spec adding
    obtain ⟨aliasGrown, aliasOutstanding, _⟩ := named.extends_
    obtain ⟨globalGrown, globalOutstanding, globalModules, _⟩ := promoteGlobalIf_spec promoting
    obtain ⟨outstanding, consumed⟩ :=
      LawfulElfLoader.pin_spec _ _ _ (expectOk_eq_ok.mp pinning)
    have present : (manager.view.append
        [loadedRecord manager.linkCtx lease.id lib elf flags]).Committed lease.id :=
      ⟨_, List.mem_append_right _ List.mem_cons_self, rfl⟩
    have insertGrown : manager.view.Extends (ElfLoader.view inserted) := by
      rw [insertedView]
      exact (ContextView.Extends.append _ _).trans (.issue present fresh)
    have finalGrown : (ElfLoader.view global).Extends (ElfLoader.view final) := by
      rw [consumed]
      exact .consume outstanding
    have aliasedOutstanding :
        (ElfLoader.view aliased.linkCtx).outstanding = lease :: manager.view.outstanding := by
      refine aliasOutstanding.trans ?_
      change (ElfLoader.view inserted).outstanding = _
      rw [insertedView]
      rfl
    have finalOutstanding : (ElfLoader.view final).outstanding = manager.view.outstanding := by
      rw [consumed]
      calc (ElfLoader.view global).outstanding.erase lease
          = (lease :: manager.view.outstanding).erase lease := by
            rw [globalOutstanding, aliasedOutstanding]
        _ = manager.view.outstanding := List.erase_cons_head _ _
    refine ⟨elf, lease, aliased.view, expectSome_eq_ok.mp downcast, absent, ?_, ?_,
      ⟨handles, subs, ?_, ?_⟩, adds, ?_⟩
    · have start : view { manager with linkCtx := inserted, adds := manager.adds + 1 } =
          (manager.view.append [loadedRecord manager.linkCtx lease.id lib elf flags]).issue lease :=
        insertedView
      rw [start] at named
      exact named
    · change (ElfLoader.view final).modules = _
      rw [consumed]
      exact globalModules
    · exact insertGrown.trans (aliasGrown.trans (globalGrown.trans finalGrown))
    · exact finalOutstanding
    · change (ElfLoader.view final).Pinned lease.id
      rw [consumed]
      exact ⟨lease, List.mem_cons_self, rfl⟩

theorem registerLoaded_total {manager : Manager Ctx} {lib : LoadedDylib} {elf : ElfModule}
    (flags : OpenFlags) (unscoped : lib.scope = [] ∧ lib.lazyScope = [])
    (downcast : lib.handle.elf = some elf)
    (apart : ∀ record ∈ manager.view.modules, ¬ record.Named (elf.soname.getD lib.handle.name) ∧
      record.handle.instanceId ≠ lib.handle.instanceId ∧
      ∀ address, record.handle.linkMap = some address → lib.handle.linkMap ≠ some address) :
    ∃ next, manager.registerLoaded lib flags = .ok next := by
  obtain ⟨lease, inserted, inserting⟩ := LawfulElfLoader.insert_total manager.linkCtx
    ⟨elf.soname.getD lib.handle.name, lib.handle, flags,
      knownDependencies manager.linkCtx elf.neededLibs⟩ apart
  obtain ⟨_, _, insertedView⟩ := LawfulElfLoader.insert_spec _ _ _ _ inserting
  have present : (ElfLoader.view inserted).Committed lease.id := by
    rw [insertedView]
    exact ⟨_, List.mem_append_right _ List.mem_cons_self, rfl⟩
  have leased : lease ∈ (ElfLoader.view inserted).outstanding := by
    rw [insertedView]
    exact List.mem_cons_self
  have staged : (view (⟨inserted, manager.handles, manager.adds + 1, manager.subs⟩ :
      Manager Ctx)).Committed lease.id := present
  obtain ⟨aliased, adding⟩ := addAlias_total elf.fileName staged
  have aliasedGrows := addAlias_grows adding
  obtain ⟨global, promoting⟩ := promoteGlobalIf_total (aliasedGrows.grown.committed present)
  have globalLeased : lease ∈ (ElfLoader.view global).outstanding := by
    rw [(promoteGlobalIf_spec promoting).2.1]
    exact aliasedGrows.outstanding ▸ leased
  obtain ⟨final, pinning⟩ := LawfulElfLoader.pin_total global lease globalLeased
  refine ⟨{ aliased with linkCtx := final }, ?_⟩
  rw [registerLoaded, if_neg (not_not_intro unscoped)]
  exact bind_eq_ok.mpr ⟨elf, expectSome_eq_ok.mpr downcast,
    bind_eq_ok.mpr ⟨(lease, inserted), expectOk_eq_ok.mpr inserting,
      bind_eq_ok.mpr ⟨aliased, adding, bind_eq_ok.mpr ⟨global, promoting,
        bind_eq_ok.mpr ⟨final, expectOk_eq_ok.mpr pinning, rfl⟩⟩⟩⟩⟩

/-! ## Releasing -/

theorem release_spec {manager next : Manager Ctx} {lease : NativeModuleLease}
    {unloaded : List ModuleId} (accepted : manager.release lease = .ok (unloaded, next)) :
    manager.view.Releases next.view lease unloaded ∧ next.handles = manager.handles ∧
      next.adds = manager.adds ∧ next.subs = manager.subs + unloaded.length := by
  obtain ⟨⟨gone, ctx⟩, releasing, accepted⟩ := bind_eq_ok.mp accepted
  cases accepted
  obtain ⟨member, result, _, free⟩ :=
    LawfulElfLoader.release_spec _ _ _ _ (expectOk_eq_ok.mp releasing)
  exact ⟨⟨member, result, fun id absent => (free id absent).2⟩, rfl, rfl, rfl⟩

theorem release_total {manager : Manager Ctx} {lease : NativeModuleLease}
    (member : lease ∈ manager.view.outstanding) :
    ∃ unloaded next, manager.release lease = .ok (unloaded, next) := by
  obtain ⟨unloaded, ctx, releasing⟩ :=
    LawfulElfLoader.release_total manager.linkCtx lease member
  exact ⟨unloaded, _, bind_eq_ok.mpr ⟨(unloaded, ctx), expectOk_eq_ok.mpr releasing, rfl⟩⟩

omit [LawfulElfLoader Ctx] in
theorem dropLease_new_spec {manager next : Manager Ctx} {lease : NativeModuleLease}
    (accepted : manager.dropLease (.new lease) = .ok next) :
    ∃ unloaded, manager.release lease = .ok (unloaded, next) := by
  obtain ⟨⟨unloaded, final⟩, releasing, accepted⟩ := bind_eq_ok.mp accepted
  cases accepted
  exact ⟨unloaded, releasing⟩

/-! ## Snapshots -/

omit [LawfulElfLoader Ctx] in
theorem snapshotModule_spec {manager next : Manager Ctx} {id : ModuleId}
    {snapshot : LibrarySnapshot} (accepted : manager.snapshotModule id = some (snapshot, next)) :
    ∃ scope, loadGroup manager.linkCtx id = .ok scope ∧ scope.head? = some snapshot.inner ∧
      snapshot.inner.elf ≠ none ∧ manager.acquireModule id = some (snapshot.lease, next) := by
  rw [snapshotModule] at accepted
  cases grouped : loadGroup manager.linkCtx id with
  | error failure =>
      rw [grouped] at accepted
      cases accepted
  | ok scope =>
      rw [grouped] at accepted
      obtain ⟨inner, first, accepted⟩ := Option.bind_eq_some_iff.mp accepted
      obtain ⟨elf, downcast, accepted⟩ := Option.bind_eq_some_iff.mp accepted
      obtain ⟨⟨lease, acquired⟩, acquiring, accepted⟩ := Option.bind_eq_some_iff.mp accepted
      cases accepted
      exact ⟨scope, rfl, first, by simp [downcast], acquiring⟩

/-- The snapshot leases each module it lists once and changes nothing else. -/
theorem snapshotModules_spec {ids : List ModuleId} {manager next : Manager Ctx}
    {snapshots : List LibrarySnapshot}
    (accepted : manager.snapshotModules ids = (snapshots, next)) :
    ∃ leases : List NativeModuleLease, snapshots.map (·.lease) = leases.map .new ∧
      next.view.outstanding.Perm (leases ++ manager.view.outstanding) ∧
      next.view.modules = manager.view.modules ∧ next.view.pinned = manager.view.pinned ∧
      manager.view.Extends next.view ∧ next.handles = manager.handles ∧
      next.adds = manager.adds ∧ next.subs = manager.subs := by
  induction ids generalizing manager snapshots with
  | nil =>
      cases accepted
      exact ⟨[], rfl, .refl _, rfl, rfl, .refl _, rfl, rfl, rfl⟩
  | cons id rest ih =>
      rw [snapshotModules] at accepted
      cases taken : manager.snapshotModule id with
      | none =>
          rw [taken] at accepted
          exact ih accepted
      | some pair =>
          obtain ⟨snapshot, middle⟩ := pair
          rw [taken] at accepted
          obtain ⟨_, _, _, _, acquiring⟩ := snapshotModule_spec taken
          obtain ⟨inner, leased, same, fresh, committed, issued, handles, adds, subs⟩ :=
            acquireModule_spec acquiring
          cases later : middle.snapshotModules rest with
          | mk laterSnapshots final =>
              simp only [later] at accepted
              cases accepted
              obtain ⟨leases, mapped, outstanding, modules, pinned, grown, laterHandles,
                laterAdds, laterSubs⟩ := ih later
              refine ⟨inner :: leases, ?_, ?_, ?_, ?_, ?_, laterHandles.trans handles,
                laterAdds.trans adds, laterSubs.trans subs⟩
              · rw [List.map_cons, List.map_cons, mapped, leased]
              · refine outstanding.trans ?_
                rw [issued]
                exact List.perm_middle
              · rw [modules, issued]
                rfl
              · rw [pinned, issued]
                rfl
              · refine ContextView.Extends.trans ?_ grown
                rw [issued]
                subst same
                exact .issue committed fresh

end Manager

end DynLinker.Registry
