import DynLinker.Registry.WorldProperties

/-! What one step does to the committed modules: the load order, the recorded flags, the
pins and the two counters. `RecordChange` says it once for every step. -/

set_option autoImplicit false

namespace DynLinker.Registry

open Lib Loader ElfLoader

/-- The modules, their flags and their pins are the same; names, scopes and leases may
differ. -/
structure SameRecords (before after : ContextView) : Prop where
  order : after.order = before.order
  flags : ∀ id, after.flagsOf id = before.flagsOf id
  pins : ∀ id, after.Pinned id ↔ before.Pinned id

namespace SameRecords

variable {before after : ContextView}

theorem refl (view : ContextView) : SameRecords view view :=
  ⟨rfl, fun _ => rfl, fun _ => .rfl⟩

theorem trans {middle : ContextView} (early : SameRecords before middle)
    (late : SameRecords middle after) : SameRecords before after where
  order := late.order.trans early.order
  flags id := (late.flags id).trans (early.flags id)
  pins id := (late.pins id).trans (early.pins id)

theorem of_modules (modules : after.modules = before.modules)
    (pinned : after.pinned = before.pinned) : SameRecords before after where
  order := by rw [ContextView.order, ContextView.order, modules]
  flags := Manager.flagsOf_of_modules modules
  pins id := by rw [ContextView.Pinned, ContextView.Pinned, pinned]

theorem of_aliased {id : ModuleId} {name : String}
    (aliased : Manager.Aliased before after id name) :
    SameRecords before after := by
  obtain ⟨aliases, rfl, _⟩ := aliased.shape
  refine ⟨by simp [ContextView.order], ?_, fun _ => .rfl⟩
  intro other
  rw [ContextView.flagsOf, ContextView.flagsOf, ContextView.find, ContextView.find, List.find?_map,
    Option.map_map]
  rfl

end SameRecords

variable {Ctx : Type} [ElfLoader Ctx]

/-- The counters and the records, as they were. -/
structure Manager.Steady (before after : Manager Ctx) : Prop where
  records : SameRecords before.view after.view
  adds : after.adds = before.adds
  subs : after.subs = before.subs

/-- The rollback of a load takes away exactly what its publication committed. -/
def Manager.RollsBack (manager : Manager Ctx) (load : LoadResult) : Prop :=
  ∀ id ∈ load.modules, manager.view.Committed id ∧ ¬ (manager.rollbackLoad load).view.Committed id

instance (manager : Manager Ctx) (load : LoadResult) : Decidable (manager.RollsBack load) :=
  inferInstanceAs (Decidable (∀ id ∈ load.modules, _ ∧ ¬ _))

/-- If the startup hook fails, the load is rolled back exactly. -/
def Manager.HookRollsBack (manager : Manager Ctx) (rtld : Option (LinkMapAddress × Nat))
    (load : LoadResult) : Prop :=
  match manager.startupState load.lease.id rtld with
  | .error _ => True
  | .ok (.ok _, _) => True
  | .ok (.error _, next) => next.RollsBack load

instance (manager : Manager Ctx) (rtld : Option (LinkMapAddress × Nat)) (load : LoadResult) :
    Decidable (manager.HookRollsBack rtld load) :=
  match ran : manager.startupState load.lease.id rtld with
  | .error _ => .isTrue (by rw [Manager.HookRollsBack, ran]; trivial)
  | .ok (.ok _, _) => .isTrue (by rw [Manager.HookRollsBack, ran]; trivial)
  | .ok (.error _, next) =>
      decidable_of_iff (next.RollsBack load) (by rw [Manager.HookRollsBack, ran])

/-- A step that rolls a load back does so exactly. -/
def ExactRollback (world : World Ctx) : Action Ctx → Prop
  | .startupHook index rtld => ∀ opening ∈ world.initialising[index]?,
      world.manager.HookRollsBack rtld opening.2
  | .initialiseFailed index => ∀ opening ∈ world.initialising[index]?,
      world.manager.RollsBack opening.2
  | _ => True

instance (world : World Ctx) (action : Action Ctx) : Decidable (ExactRollback world action) :=
  match action with
  | .startupHook index rtld => inferInstanceAs (Decidable
      (∀ opening ∈ world.initialising[index]?, world.manager.HookRollsBack rtld opening.2))
  | .initialiseFailed index => inferInstanceAs (Decidable
      (∀ opening ∈ world.initialising[index]?, world.manager.RollsBack opening.2))
  | .registerLoaded _ _ | .registerInitialAliases | .openWith _ _ _ _ _ | .publish _
  | .initialised _ | .openMain | .libraryByAddr _ | .intoElfLibrary _ | .dropOpened _
  | .cloneLibrary _ | .dropLibrary _ | .registerHandle _ | .dlclose _ | .dlsym _ _ | .iteratePhdr
  | .dropSnapshot _ | .registerDestructor _ | .dropDestructor _ => .isTrue trivial

/-- What a step does to the committed modules. -/
inductive RecordChange (before : World Ctx) (action : Action Ctx) (after : World Ctx) : Prop where
  | steady (manager : before.manager.Steady after.manager)
      (initialising : after.initialising = before.initialising)
  | promoted (id : ModuleId) (recorded flags : OpenFlags)
      (order : after.view.order = before.view.order)
      (found : before.view.flagsOf id = some recorded)
      (flagged : ∀ other, after.view.flagsOf other =
        if other = id then some (recorded.union flags.promotable) else before.view.flagsOf other)
      (pins : ∀ other, after.view.Pinned other ↔ before.view.Pinned other ∨
        (other = id ∧ flags.isNodelete = true ∧ recorded.isNodelete = false))
      (adds : after.manager.adds = before.manager.adds)
      (subs : after.manager.subs = before.manager.subs)
      (initialising : after.initialising = before.initialising)
  | registered (id : ModuleId) (lib : LoadedDylib) (flags : OpenFlags)
      (called : action = .registerLoaded lib flags)
      (order : after.view.order = before.view.order ++ [(id, lib.handle)])
      (absent : ¬ before.view.Committed id)
      (flagged : ∀ other, after.view.flagsOf other =
        if other = id then some flags else before.view.flagsOf other)
      (pins : ∀ other, after.view.Pinned other ↔ before.view.Pinned other ∨ other = id)
      (adds : after.manager.adds = before.manager.adds + 1)
      (subs : after.manager.subs = before.manager.subs)
      (initialising : after.initialising = before.initialising)
  | published (flags : OpenFlags) (load : LoadResult) (added : List (ModuleId × ModuleHandle))
      (order : after.view.order = before.view.order ++ added)
      (ids : added.map Prod.fst = load.modules) (nodup : load.modules.Nodup)
      (absent : ∀ id ∈ load.modules, ¬ before.view.Committed id)
      (flagged : ∀ id, after.view.flagsOf id =
        if id ∈ load.modules then some .empty else before.view.flagsOf id)
      (pins : ∀ id, after.view.Pinned id ↔ before.view.Pinned id)
      (adds : after.manager.adds = before.manager.adds)
      (subs : after.manager.subs = before.manager.subs)
      (initialising : after.initialising = (flags, load) :: before.initialising)
  | recorded (index : Nat) (flags : OpenFlags) (load : LoadResult)
      (called : action = .initialised index)
      (present : before.initialising[index]? = some (flags, load))
      (order : after.view.order = before.view.order)
      (flagged : ∀ id, after.view.flagsOf id =
        if id ∈ load.modules then some flags else before.view.flagsOf id)
      (pins : ∀ id, after.view.Pinned id ↔ before.view.Pinned id ∨
        (id ∈ load.modules ∧ flags.isNodelete = true))
      (adds : after.manager.adds = before.manager.adds + load.modules.length)
      (subs : after.manager.subs = before.manager.subs)
      (initialising : after.initialising = before.initialising.eraseIdx index)
  | rolledBack (index : Nat) (flags : OpenFlags) (load : LoadResult) (unloaded : List ModuleId)
      (present : before.initialising[index]? = some (flags, load))
      (order : after.view.order = before.view.order.filter fun entry => entry.1 ∉ unloaded)
      (flagged : ∀ id, after.view.flagsOf id =
        if id ∈ unloaded then none else before.view.flagsOf id)
      (pins : ∀ id, after.view.Pinned id ↔ before.view.Pinned id)
      (free : ∀ id ∈ unloaded, id ∈ load.modules ∧ ¬ before.view.Pinned id)
      (exactly : ExactRollback before action →
        ∀ id ∈ load.modules, before.view.Committed id ∧ ¬ after.view.Committed id)
      (adds : after.manager.adds = before.manager.adds)
      (subs : after.manager.subs = before.manager.subs)
      (initialising : after.initialising = before.initialising.eraseIdx index)
  | released (unloaded : List ModuleId) (nodup : unloaded.Nodup)
      (order : after.view.order = before.view.order.filter fun entry => entry.1 ∉ unloaded)
      (flagged : ∀ id, after.view.flagsOf id =
        if id ∈ unloaded then none else before.view.flagsOf id)
      (pins : ∀ id, after.view.Pinned id ↔ before.view.Pinned id)
      (free : ∀ id ∈ unloaded, before.view.Committed id ∧ ¬ before.view.Pinned id)
      (adds : after.manager.adds = before.manager.adds)
      (subs : after.manager.subs = before.manager.subs + unloaded.length)
      (initialising : after.initialising = before.initialising)

/-! ## Operations -/

namespace Manager

variable [LawfulElfLoader Ctx]

omit [LawfulElfLoader Ctx] in
theorem Steady.refl (manager : Manager Ctx) : manager.Steady manager :=
  ⟨.refl _, rfl, rfl⟩

omit [LawfulElfLoader Ctx] in
theorem Steady.trans {first second third : Manager Ctx} (early : first.Steady second)
    (late : second.Steady third) : first.Steady third :=
  ⟨early.records.trans late.records, late.adds.trans early.adds, late.subs.trans early.subs⟩

theorem promoteGlobalIf_same {wanted : Bool} {ctx next : Ctx} {id : ModuleId} {message : String}
    (accepted : promoteGlobalIf wanted ctx id message = .ok next) :
    SameRecords (ElfLoader.view ctx) (ElfLoader.view next) := by
  cases wanted with
  | false =>
      cases accepted
      exact .refl _
  | true =>
      obtain ⟨_, _, _, scope, _⟩ :=
        LawfulElfLoader.promoteGlobal_spec _ _ _ (expectOk_eq_ok.mp accepted)
      rw [scope]
      exact .of_modules rfl rfl

theorem pinModuleIf_pins {wanted : Bool} {ctx next : Ctx} {id : ModuleId}
    {acquiring pinning : String}
    (accepted : pinModuleIf wanted ctx id acquiring pinning = .ok next) (other : ModuleId) :
    (ElfLoader.view next).Pinned other ↔
      (ElfLoader.view ctx).Pinned other ∨ (other = id ∧ wanted = true) := by
  cases wanted with
  | false =>
      cases accepted
      simp
  | true =>
      obtain ⟨⟨lease, middle⟩, acquired, pinned⟩ := bind_eq_ok.mp accepted
      obtain ⟨_, rfl, _, issued⟩ :=
        LawfulElfLoader.acquire_spec _ _ _ _ (expectOk_eq_ok.mp acquired)
      obtain ⟨_, consumed⟩ := LawfulElfLoader.pin_spec _ _ _ (expectOk_eq_ok.mp pinned)
      rw [consumed, issued]
      simp only [ContextView.Pinned, ContextView.consume, ContextView.issue, List.mem_cons,
        exists_eq_or_imp, and_true]
      rw [or_comm, eq_comm]

theorem addAlias_steady {manager next : Manager Ctx} {id : ModuleId} {name : String}
    (accepted : manager.addAlias id name = .ok next) : manager.Steady next := by
  obtain ⟨aliased, _, adds, subs⟩ := addAlias_spec accepted
  exact ⟨.of_aliased aliased, adds, subs⟩

theorem addCompatAliases_steady {manager next : Manager Ctx} {name : String}
    (accepted : manager.addCompatAliases name = .ok next) : manager.Steady next := by
  rw [addCompatAliases] at accepted
  split at accepted
  · cases accepted
    exact .refl _
  · exact foldlM_relates Steady.refl (fun _ _ _ => Steady.trans)
      (fun _ _ _ adding => addAlias_steady adding) accepted

theorem registerInitialAliases_steady {manager next : Manager Ctx}
    (accepted : manager.registerInitialAliases = .ok next) : manager.Steady next :=
  foldlM_relates Steady.refl (fun _ _ _ => Steady.trans)
    (fun _ _ _ step => addCompatAliases_steady step) accepted

theorem startupState_steady {manager next : Manager Ctx} {root : ModuleId}
    {rtld : Option (LinkMapAddress × Nat)} {result : Except Error StartupState}
    (accepted : manager.startupState root rtld = .ok (result, next)) : manager.Steady next := by
  rcases startupState_cases accepted with rfl | ⟨ctx, promoting, adding⟩
  · exact .refl _
  · have first : manager.Steady { manager with linkCtx := ctx } :=
      ⟨promoteGlobalIf_same promoting, rfl, rfl⟩
    exact first.trans (registerInitialAliases_steady adding)

theorem acquireModule_steady {manager next : Manager Ctx} {id : ModuleId} {lease : ModuleLease}
    (accepted : manager.acquireModule id = some (lease, next)) : manager.Steady next := by
  obtain ⟨_, _, _, _, _, issued, _, adds, subs⟩ := acquireModule_spec accepted
  refine ⟨.of_modules ?_ ?_, adds, subs⟩
  · rw [issued]
    rfl
  · rw [issued]
    rfl

theorem openModule_steady {manager next : Manager Ctx} {id : ModuleId} {opened : OpenedLibrary}
    (accepted : manager.openModule id = some (opened, next)) : manager.Steady next :=
  acquireModule_steady (openModule_spec accepted).2

theorem librarySnapshot_steady {manager next : Manager Ctx} {snapshots : List LibrarySnapshot}
    (accepted : manager.librarySnapshot = (snapshots, next)) : manager.Steady next := by
  obtain ⟨_, _, _, modules, pinned, _, _, adds, subs⟩ := snapshotModules_spec accepted
  exact ⟨.of_modules modules pinned, adds, subs⟩

theorem promote_records {manager next : Manager Ctx} {id : ModuleId} {flags : OpenFlags}
    (accepted : manager.promote id flags = .ok next) :
    ∃ recorded, manager.view.flagsOf id = some recorded ∧ next.view.order = manager.view.order ∧
      (∀ other, next.view.flagsOf other =
        if other = id then some (recorded.union flags.promotable)
        else manager.view.flagsOf other) ∧
      (∀ other, next.view.Pinned other ↔ manager.view.Pinned other ∨
        (other = id ∧ flags.isNodelete = true ∧ recorded.isNodelete = false)) ∧
      next.adds = manager.adds ∧ next.subs = manager.subs := by
  obtain ⟨recorded, found, accepted⟩ := bind_eq_ok.mp accepted
  obtain ⟨marked, setting, accepted⟩ := bind_eq_ok.mp accepted
  obtain ⟨global, promoting, accepted⟩ := bind_eq_ok.mp accepted
  obtain ⟨final, pinning, accepted⟩ := bind_eq_ok.mp accepted
  cases accepted
  obtain ⟨committed, markedView, _⟩ := setMeta_extends (expectOk_eq_ok.mp setting)
  have kept := promoteGlobalIf_same promoting
  obtain ⟨_, _, modules, _, _⟩ := pinModuleIf_spec pinning
  rw [markedView] at kept
  refine ⟨recorded, expectSome_eq_ok.mp found, ?_, ?_, ?_, rfl, rfl⟩
  · change (ElfLoader.view final).order = _
    rw [ContextView.order, modules]
    exact kept.order.trans (ContextView.setFlags_order _ _ _)
  · intro other
    refine (flagsOf_of_modules modules other).trans ((kept.flags other).trans ?_)
    split
    · next same =>
        rw [same]
        exact ContextView.flagsOf_setFlags_self _ committed
    · next different => exact ContextView.flagsOf_setFlags_ne _ different
  · intro other
    refine (pinModuleIf_pins pinning other).trans ((or_congr_left (kept.pins other)).trans ?_)
    simp only [OpenFlags.isNodelete_promotable, Bool.and_eq_true, Bool.not_eq_true']
    rfl

theorem recordLoaded_pins {manager next : Manager Ctx} {id : ModuleId} {flags : OpenFlags}
    (accepted : recordLoaded flags manager id = .ok next) (other : ModuleId) :
    next.view.Pinned other ↔
      manager.view.Pinned other ∨ (other = id ∧ flags.isNodelete = true) := by
  obtain ⟨marked, setting, accepted⟩ := bind_eq_ok.mp accepted
  obtain ⟨final, pinning, accepted⟩ := bind_eq_ok.mp accepted
  cases accepted
  obtain ⟨_, markedView, _⟩ := setMeta_extends (expectOk_eq_ok.mp setting)
  have pins := pinModuleIf_pins pinning other
  rw [markedView] at pins
  exact pins

theorem recordLoaded_foldlM_records {flags : OpenFlags} {ids : List ModuleId}
    {manager next : Manager Ctx} (accepted : ids.foldlM (recordLoaded flags) manager = .ok next) :
    next.view.order = manager.view.order ∧ ∀ other, next.view.Pinned other ↔
      manager.view.Pinned other ∨ (other ∈ ids ∧ flags.isNodelete = true) := by
  induction ids generalizing manager with
  | nil =>
      cases accepted
      exact ⟨rfl, by simp⟩
  | cons id rest ih =>
      rw [List.foldlM_cons] at accepted
      obtain ⟨middle, first, accepted⟩ := bind_eq_ok.mp accepted
      obtain ⟨order, pins⟩ := ih accepted
      obtain ⟨_, _, _, modules, _⟩ := recordLoaded_spec first
      refine ⟨order.trans ?_, ?_⟩
      · rw [ContextView.order, modules]
        exact ContextView.setFlags_order _ _ _
      · intro other
        rw [pins, recordLoaded_pins first, List.mem_cons, or_and_right, or_assoc]

theorem openLoad_records {manager next : Manager Ctx} {load : LoadResult} {flags : OpenFlags}
    {opened : OpenedLibrary} (accepted : manager.openLoad load flags = .ok (opened, next)) :
    next.view.order = manager.view.order ∧
      (∀ id, next.view.flagsOf id =
        if id ∈ load.modules then some flags else manager.view.flagsOf id) ∧
      ∀ id, next.view.Pinned id ↔
        manager.view.Pinned id ∨ (id ∈ load.modules ∧ flags.isNodelete = true) := by
  obtain ⟨_, _, _, _, _, listed, other⟩ := openLoad_spec accepted
  obtain ⟨marked, recording, accepted⟩ := bind_eq_ok.mp accepted
  obtain ⟨global, promoting, accepted⟩ := bind_eq_ok.mp accepted
  obtain ⟨scope, grouping, accepted⟩ := bind_eq_ok.mp accepted
  cases accepted
  obtain ⟨order, pins⟩ := recordLoaded_foldlM_records recording
  have kept := promoteGlobalIf_same promoting
  refine ⟨kept.order.trans order, ?_, fun id => (kept.pins id).trans (pins id)⟩
  intro id
  split
  · next member => exact (listed id member).1
  · next absent => exact other id absent

theorem registerLoaded_records {manager next : Manager Ctx} {lib : LoadedDylib}
    {flags : OpenFlags} (accepted : manager.registerLoaded lib flags = .ok next) :
    ∃ id, ¬ manager.view.Committed id ∧
      next.view.order = manager.view.order ++ [(id, lib.handle)] ∧
      (∀ other, next.view.flagsOf other =
        if other = id then some flags else manager.view.flagsOf other) ∧
      (∀ other, next.view.Pinned other ↔ manager.view.Pinned other ∨ other = id) ∧
      next.adds = manager.adds + 1 ∧ next.subs = manager.subs := by
  rw [registerLoaded] at accepted
  split at accepted
  · cases accepted
  · obtain ⟨elf, _, accepted⟩ := bind_eq_ok.mp accepted
    obtain ⟨⟨lease, inserted⟩, inserting, accepted⟩ := bind_eq_ok.mp accepted
    obtain ⟨aliased, adding, accepted⟩ := bind_eq_ok.mp accepted
    obtain ⟨global, promoting, accepted⟩ := bind_eq_ok.mp accepted
    obtain ⟨final, pinning, accepted⟩ := bind_eq_ok.mp accepted
    cases accepted
    obtain ⟨absent, _, insertedView⟩ :=
      LawfulElfLoader.insert_spec _ _ _ _ (expectOk_eq_ok.mp inserting)
    obtain ⟨named, adds, subs⟩ := addAlias_steady adding
    obtain ⟨_, consumed⟩ := LawfulElfLoader.pin_spec _ _ _ (expectOk_eq_ok.mp pinning)
    have staged : SameRecords (ElfLoader.view inserted) (ElfLoader.view global) :=
      named.trans (promoteGlobalIf_same promoting)
    rw [insertedView] at staged
    refine ⟨lease.id, absent, ?_, ?_, ?_, adds, subs⟩
    · change (ElfLoader.view final).order = _
      rw [consumed]
      refine staged.order.trans ?_
      simp only [ContextView.order, ContextView.append, ContextView.issue, List.map_append]
      rfl
    · intro other
      change (ElfLoader.view final).flagsOf other = _
      rw [consumed]
      refine (staged.flags other).trans ((ContextView.flagsOf_append _ _ other).trans ?_)
      by_cases same : other = lease.id
      · rw [same, if_pos rfl, ContextView.flagsOf_eq_none absent]
        simp
      · rw [if_neg same]
        simp [Ne.symm same]
        rfl
    · intro other
      change (ElfLoader.view final).Pinned other ↔ _
      rw [consumed]
      simp only [ContextView.Pinned, ContextView.consume, List.mem_cons, exists_eq_or_imp]
      rw [or_comm, eq_comm]
      exact or_congr_left (staged.pins other)

theorem publishPending_records {manager next : Manager Ctx} {pending : Pending Ctx}
    {load : LoadResult} (accepted : manager.publishPending pending = .ok (load, next)) :
    (∃ added, next.view.order = manager.view.order ++ added ∧
      added.map Prod.fst = load.modules) ∧ load.modules.Nodup ∧
      (∀ id ∈ load.modules, ¬ manager.view.Committed id) ∧
      (∀ id, next.view.flagsOf id =
        if id ∈ load.modules then some .empty else manager.view.flagsOf id) ∧
      (∀ id, next.view.Pinned id ↔ manager.view.Pinned id) ∧
      next.adds = manager.adds ∧ next.subs = manager.subs := by
  rw [publishPending] at accepted
  split at accepted
  · cases accepted
  · split at accepted
    · cases accepted
    · next found ctx publishing =>
        cases accepted
        obtain ⟨added, result, ids, nodup, fresh, _, _⟩ :=
          LawfulElfLoader.publish_spec _ _ _ _ publishing
        have absent : ∀ id ∈ load.modules, ¬ manager.view.Committed id := by
          intro id member
          rw [← ids] at member
          obtain ⟨record, listed, rfl⟩ := List.mem_map.mp member
          exact (fresh record listed).1
        refine ⟨⟨added.map fun record => (record.id, record.handle), ?_, ?_⟩, nodup, absent, ?_, ?_,
          rfl, rfl⟩
        · change (ElfLoader.view ctx).order = _
          rw [result]
          simp only [ContextView.order, ContextView.append, ContextView.issue, List.map_append]
          rfl
        · rw [List.map_map, ← ids]
          rfl
        · intro id
          change (ElfLoader.view ctx).flagsOf id = _
          rw [result]
          refine (ContextView.flagsOf_append _ _ id).trans ?_
          split
          · next member =>
              rw [← ids] at member
              obtain ⟨record, listed, same⟩ := List.mem_map.mp member
              cases first : added.find? fun record => record.id = id with
              | none =>
                  exact absurd same (by simpa using List.find?_eq_none.mp first record listed)
              | some chosen =>
                  have plain := (fresh chosen (List.mem_of_find?_eq_some first)).2
                  have none_old : (ElfLoader.view manager.linkCtx).flagsOf id = none :=
                    ContextView.flagsOf_eq_none (absent id (ids ▸ member))
                  rw [none_old, Option.map_some, plain]
                  rfl
          · next old =>
              have none_added : added.find? (fun record => record.id = id) = none := by
                apply List.find?_eq_none.mpr
                intro record listed same
                exact old (ids ▸ List.mem_map.mpr ⟨record, listed, of_decide_eq_true same⟩)
              rw [none_added, Option.map_none, Option.or_none]
              rfl
        · intro id
          change (ElfLoader.view ctx).Pinned id ↔ _
          rw [result]
          rfl

theorem release_records {manager next : Manager Ctx} {lease : NativeModuleLease}
    {unloaded : List ModuleId} (accepted : manager.release lease = .ok (unloaded, next)) :
    unloaded.Nodup ∧
      next.view.order = manager.view.order.filter (fun entry => entry.1 ∉ unloaded) ∧
      (∀ id, next.view.flagsOf id =
        if id ∈ unloaded then none else manager.view.flagsOf id) ∧
      (∀ id, next.view.Pinned id ↔ manager.view.Pinned id) ∧
      (∀ id ∈ unloaded, manager.view.Committed id ∧ ¬ manager.view.Pinned id) ∧
      next.adds = manager.adds ∧ next.subs = manager.subs + unloaded.length := by
  obtain ⟨⟨gone, ctx⟩, releasing, accepted⟩ := bind_eq_ok.mp accepted
  cases accepted
  obtain ⟨_, result, nodup, free⟩ :=
    LawfulElfLoader.release_spec _ _ _ _ (expectOk_eq_ok.mp releasing)
  refine ⟨nodup, ?_, ?_, ?_, fun id member => ⟨(free id member).1, (free id member).2.2⟩, rfl, rfl⟩
  · change (ElfLoader.view ctx).order = _
    rw [result]
    exact ContextView.order_unload _ _
  · intro id
    change (ElfLoader.view ctx).flagsOf id = _
    rw [result]
    exact ContextView.flagsOf_unload _ _ id
  · intro id
    change (ElfLoader.view ctx).Pinned id ↔ _
    rw [result]
    rfl

theorem rollbackLoad_records (manager : Manager Ctx) (load : LoadResult) :
    ∃ unloaded : List ModuleId, (manager.rollbackLoad load).view.order =
        manager.view.order.filter (fun entry => entry.1 ∉ unloaded) ∧
      (∀ id, (manager.rollbackLoad load).view.flagsOf id =
        if id ∈ unloaded then none else manager.view.flagsOf id) ∧
      (∀ id, (manager.rollbackLoad load).view.Pinned id ↔ manager.view.Pinned id) ∧
      (∀ id ∈ unloaded, id ∈ load.modules ∧ ¬ manager.view.Pinned id) ∧
      (manager.rollbackLoad load).adds = manager.adds ∧
      (manager.rollbackLoad load).subs = manager.subs := by
  rw [rollbackLoad]
  cases rolling : rollback manager.linkCtx load with
  | error failure => exact ⟨[], by simp, by simp, fun _ => .rfl, by simp, rfl, rfl⟩
  | ok ctx =>
      obtain ⟨_, unloaded, result, _, free⟩ := LawfulElfLoader.rollback_spec _ _ _ rolling
      refine ⟨unloaded, ?_, ?_, ?_, fun id member => ⟨(free id member).1, (free id member).2.2⟩,
        rfl, rfl⟩
      · change (ElfLoader.view ctx).order = _
        rw [result]
        exact ContextView.order_unload _ _
      · intro id
        change (ElfLoader.view ctx).flagsOf id = _
        rw [result]
        exact ContextView.flagsOf_unload _ _ id
      · intro id
        change (ElfLoader.view ctx).Pinned id ↔ _
        rw [result]
        rfl

end Manager

/-! ## Steps -/

namespace RecordChange

variable [LawfulElfLoader Ctx] {before after : World Ctx} {action : Action Ctx}

omit [LawfulElfLoader Ctx] in
theorem of_moved (manager : after.manager = before.manager)
    (initialising : after.initialising = before.initialising) : RecordChange before action after :=
  .steady (manager ▸ .refl _) initialising

theorem of_promote {next promoted : Manager Ctx} {id : ModuleId} {flags : OpenFlags}
    {opened : OpenedLibrary} (promoting : before.manager.promote id flags = .ok promoted)
    (opening : promoted.openModule id = some (opened, next)) :
    RecordChange before action (before.addOpened opened next) := by
  obtain ⟨recorded, found, order, flagged, pins, adds, subs⟩ := Manager.promote_records promoting
  obtain ⟨records, openAdds, openSubs⟩ := Manager.openModule_steady opening
  exact .promoted id recorded flags (records.order.trans order) found
    (fun other => (records.flags other).trans (flagged other))
    (fun other => (records.pins other).trans (pins other)) (openAdds.trans adds)
    (openSubs.trans subs) rfl

theorem of_release {next : Manager Ctx} {lease : NativeModuleLease} {unloaded : List ModuleId}
    (releasing : before.manager.release lease = .ok (unloaded, next))
    (manager : after.manager = next) (initialising : after.initialising = before.initialising) :
    RecordChange before action after := by
  obtain ⟨nodup, order, flagged, pins, free, adds, subs⟩ := Manager.release_records releasing
  subst manager
  exact .released unloaded nodup order flagged pins free adds subs initialising

theorem of_dropLease {next : Manager Ctx} {lease : ModuleLease}
    (dropping : before.manager.dropLease lease = .ok next) (manager : after.manager = next)
    (initialising : after.initialising = before.initialising) :
    RecordChange before action after := by
  rw [Manager.dropLease] at dropping
  split at dropping
  · cases dropping
    exact .of_moved manager initialising
  · obtain ⟨⟨unloaded, released⟩, releasing, dropped⟩ := bind_eq_ok.mp dropping
    cases dropped
    exact .of_release releasing manager initialising

/-- A load is abandoned, after a hook that moved neither the records nor the counters. -/
theorem of_abandon {middle : Manager Ctx} {index : Nat} {flags : OpenFlags} {load : LoadResult}
    (present : before.initialising[index]? = some (flags, load))
    (steady : before.manager.Steady middle)
    (exactly : ExactRollback before action → middle.RollsBack load) :
    RecordChange before action (World.abandon { before with manager := middle } index load) := by
  obtain ⟨unloaded, order, flagged, pins, free, adds, subs⟩ :=
    Manager.rollbackLoad_records middle load
  obtain ⟨records, hookAdds, hookSubs⟩ := steady
  refine .rolledBack index flags load unloaded present ?_ ?_ ?_ ?_ ?_ (adds.trans hookAdds)
    (subs.trans hookSubs) rfl
  · refine order.trans ?_
    rw [records.order]
    rfl
  · intro id
    refine (flagged id).trans ?_
    rw [records.flags]
    rfl
  · exact fun id => (pins id).trans (records.pins id)
  · intro id gone
    obtain ⟨own, unpinned⟩ := free id gone
    exact ⟨own, fun pinned => unpinned ((records.pins id).mpr pinned)⟩
  · intro exact_ id own
    obtain ⟨committed, gone⟩ := exactly exact_ id own
    refine ⟨?_, gone⟩
    rw [ContextView.committed_iff_order, records.order, ← ContextView.committed_iff_order]
      at committed
    exact committed

theorem of_publish {next : Manager Ctx} {index : Nat} {flags : OpenFlags}
    {pending : Pending Ctx} {load : LoadResult}
    (publishing : before.manager.publishPending pending = .ok (load, next)) :
    RecordChange before action { before with
      manager := next
      preparing := before.preparing.eraseIdx index
      initialising := (flags, load) :: before.initialising } := by
  obtain ⟨⟨added, order, ids⟩, nodup, absent, flagged, pins, adds, subs⟩ :=
    Manager.publishPending_records publishing
  exact .published flags load added order ids nodup absent flagged pins adds subs rfl

theorem of_dlclose {next : Manager Ctx} {handle : Nat} {unloaded : List ModuleId}
    (accepted : before.manager.releaseHandle handle = .ok (some unloaded, next))
    (manager : after.manager = next) (initialising : after.initialising = before.initialising) :
    RecordChange before action after := by
  obtain ⟨state, inner, _, _, releasing⟩ := Manager.releaseHandle_some accepted
  -- the table entry goes first; the records are released after it
  obtain ⟨nodup, order, flagged, pins, free, adds, subs⟩ := Manager.release_records releasing
  subst manager
  cases rest : state.pop.2 with
  | none =>
      rw [rest] at order flagged pins free adds subs
      exact .released unloaded nodup order flagged pins free adds subs initialising
  | some left =>
      rw [rest] at order flagged pins free adds subs
      exact .released unloaded nodup order flagged pins free adds subs initialising

theorem of_act (accepted : before.act action = some (.ok after)) :
    RecordChange before action after := by
  cases World.transition_of_act accepted with
  | registerLoaded registering =>
      obtain ⟨id, absent, order, flagged, pins, adds, subs⟩ :=
        Manager.registerLoaded_records registering
      exact .registered id _ _ rfl order absent flagged pins adds subs rfl
  | registerInitialAliases adding =>
      exact .steady (Manager.registerInitialAliases_steady adding) rfl
  | openWith opening =>
      rcases Manager.openWith_cases opening with
        ⟨id, promoted, opened, rfl, promoting, opening⟩ | ⟨rfl, ⟨error, rfl⟩ | ⟨pending, rfl⟩⟩
      · exact .of_promote promoting opening
      · exact .of_moved rfl rfl
      · exact .of_moved rfl rfl
  | publishFailed present failed => exact .of_moved rfl rfl
  | publish present publishing => exact .of_publish publishing
  | startupHook present running => exact .steady (Manager.startupState_steady running) rfl
  | @startupFailed _ _ flags load _ _ present running =>
      refine .of_abandon present (Manager.startupState_steady running) fun exact_ => ?_
      have rolled := exact_ (flags, load) present
      rw [Manager.HookRollsBack, running] at rolled
      exact rolled
  | @initialised index flags load opened next present loading =>
      obtain ⟨order, flagged, pins⟩ := Manager.openLoad_records loading
      obtain ⟨grows, adds, _⟩ := Manager.openLoad_spec loading
      exact .recorded index flags load rfl present order flagged pins adds grows.subs rfl
  | @initialiseFailed _ flags load present =>
      exact .of_abandon present (.refl _) fun exact_ => exact_ (flags, load) present
  | openMain first opening => exact .steady (Manager.openModule_steady opening) rfl
  | addrUnknown unknown => exact .of_moved rfl rfl
  | libraryByAddr named opening => exact .steady (Manager.openModule_steady opening) rfl
  | intoElfLibrary present => exact .of_moved rfl rfl
  | dropOpened present dropping => exact .of_dropLease dropping rfl rfl
  | cloneLibrary present => exact .of_moved rfl rfl
  | dropClone present shared => exact .of_moved rfl rfl
  | dropLibrary present last dropping => exact .of_dropLease dropping rfl rfl
  | registerHandle present registering =>
      obtain ⟨_, _, _, rfl⟩ := Manager.registerHandle_spec registering
      exact .steady ⟨.refl _, rfl, rfl⟩ rfl
  | handleUnknown unknown => exact .of_moved rfl rfl
  | dlclose nonnull releasing => exact .of_dlclose releasing rfl rfl
  | dlsym => exact .of_moved rfl rfl
  | iteratePhdr taken => exact .steady (Manager.librarySnapshot_steady taken) rfl
  | iterationEnded present => exact .of_moved rfl rfl
  | dropSnapshot present dropping => exact .of_dropLease dropping rfl rfl
  | destructorUnowned unowned => exact .of_moved rfl rfl
  | registerDestructor named acquiring => exact .steady (Manager.acquireModule_steady acquiring) rfl
  | dropUnowned present => exact .of_moved rfl rfl
  | dropDestructor present dropping => exact .of_dropLease dropping rfl rfl

end RecordChange

end DynLinker.Registry
