import DynLinker.Registry.IteratePhdr
import DynLinker.Registry.ModuleCounters

/-! What `dl_iterate_phdr` reports is decided by the load order: a walk visits every
committed module that is an ELF object. So the reported counters identify the reported
modules whenever every committed module is counted. -/

set_option autoImplicit false

namespace DynLinker.Registry

open Lib Loader ElfLoader

variable {Ctx : Type} [ElfLoader Ctx] [LawfulElfLoader Ctx]

namespace Manager

theorem snapshotModule_inner {manager : Manager Ctx} {id : ModuleId} {handle : ModuleHandle}
    (found : manager.view.handleOf id = some handle) :
    (manager.snapshotModule id).map (·.1.inner) = some handle ∧ handle.elf ≠ none ∨
      manager.snapshotModule id = none ∧ handle.elf = none := by
  obtain ⟨record, located, rfl⟩ := Option.map_eq_some_iff.mp found
  have committed : manager.view.Committed id :=
    ContextView.committed_iff_find.mpr ⟨record, located⟩
  obtain ⟨scope, grouping⟩ := LawfulElfLoader.loadGroup_total manager.linkCtx id committed
  obtain ⟨root, first, head, _, _⟩ := LawfulElfLoader.loadGroup_spec _ _ _ grouping
  cases first.symm.trans located
  obtain ⟨lease, next, acquiring⟩ := acquireModule_total committed
  cases downcast : record.handle.elf with
  | none =>
      refine .inr ⟨?_, rfl⟩
      simp [snapshotModule, grouping, head, downcast]
  | some elf =>
      refine .inl ⟨?_, Option.some_ne_none _⟩
      simp [snapshotModule, grouping, head, downcast, acquiring]

theorem snapshotModules_inner {ids : List ModuleId} {manager : Manager Ctx}
    (committed : ∀ id ∈ ids, manager.view.Committed id) :
    (manager.snapshotModules ids).1.map (·.inner) =
      (ids.filterMap manager.view.handleOf).filter fun handle => handle.elf.isSome := by
  induction ids generalizing manager with
  | nil => rfl
  | cons id rest ih =>
      obtain ⟨record, located⟩ := ContextView.committed_iff_find.mp
        (committed id List.mem_cons_self)
      have found := ContextView.handleOf_of_find located
      have later : ∀ other ∈ rest, manager.view.Committed other :=
        fun other member => committed other (List.mem_cons_of_mem _ member)
      rw [List.filterMap_cons_some found, snapshotModules]
      rcases snapshotModule_inner found with ⟨taken, elf⟩ | ⟨skipped, plain⟩
      · obtain ⟨⟨snapshot, next⟩, taking, same⟩ := Option.map_eq_some_iff.mp taken
        obtain ⟨_, _, _, _, acquiring⟩ := snapshotModule_spec taking
        obtain ⟨inner, _, _, _, _, issued, _⟩ := acquireModule_spec acquiring
        have handles : next.view.handleOf = manager.view.handleOf := by
          rw [issued]
          rfl
        rw [taking]
        simp only [List.map_cons]
        have kept : record.handle.elf.isSome = true := Option.isSome_iff_ne_none.mpr elf
        rw [ih, handles, List.filter_cons, if_pos kept]
        · exact congrArg (· :: _) same
        · intro other member
          rw [issued]
          exact later other member
      · rw [skipped, List.filter_cons_of_neg (by simp [plain])]
        exact ih later

/-- The walked modules: the ELF objects of the load order. -/
theorem librarySnapshot_inner (manager : Manager Ctx) :
    manager.librarySnapshot.1.map (·.inner) =
      ((manager.view.order.map Prod.fst).filterMap manager.view.handleOf).filter
        fun handle => handle.elf.isSome := by
  have order : loadOrder manager.linkCtx = manager.view.order.map Prod.fst := by
    rw [ContextView.order, List.map_map]
    rfl
  rw [librarySnapshot, order]
  apply snapshotModules_inner
  intro id member
  exact ContextView.committed_iff_order.mpr member

theorem librarySnapshot_inner_congr {left right : Manager Ctx}
    (order : left.view.order = right.view.order) :
    left.librarySnapshot.1.map (·.inner) = right.librarySnapshot.1.map (·.inner) := by
  have handles : left.view.handleOf = right.view.handleOf := by
    funext id
    rw [ContextView.handleOf_eq_order, ContextView.handleOf_eq_order, order]
  rw [librarySnapshot_inner, librarySnapshot_inner, order, handles]

end Manager

/-- Whether a module is reported, and how the report fails, depends on the module alone. -/
theorem phdrInfo_congr {left right : LibrarySnapshot} (inner : left.inner = right.inner)
    (leftTls rightTls : Nat → Nat) (leftAdds leftSubs rightAdds rightSubs : Nat) :
    (phdrInfo leftTls leftAdds leftSubs left).map (Option.map (·.library.inner)) =
      (phdrInfo rightTls rightAdds rightSubs right).map (Option.map (·.library.inner)) := by
  cases downcast : right.inner.elf with
  | none => simp [phdrInfo, LibrarySnapshot.module, inner, downcast, expectSome, bind, Except.bind]
  | some elf =>
      cases data : elf.userData with
      | none =>
          simp [phdrInfo, LibrarySnapshot.module, inner, downcast, data, expectSome, bind,
            Except.bind]
      | some extra =>
          simp only [phdrInfo, LibrarySnapshot.module, inner, downcast, data, expectSome, bind,
            Except.bind]
          split
          · rfl
          · exact congrArg (fun handle => Except.ok (some handle)) inner

/-- So does the whole report on the walked modules. -/
theorem visitPhdrs_congr {left right : List LibrarySnapshot}
    (inner : left.map (·.inner) = right.map (·.inner)) (leftTls rightTls : Nat → Nat)
    (leftAdds leftSubs rightAdds rightSubs : Nat) (seen : List ModuleHandle) :
    (visitPhdrs leftTls leftAdds leftSubs
      (fun seen info => .ok (seen ++ [info.library.inner])) seen left :
        Except Panic (Except Empty (List ModuleHandle))) =
    visitPhdrs rightTls rightAdds rightSubs
      (fun seen info => .ok (seen ++ [info.library.inner])) seen right := by
  induction left generalizing right seen with
  | nil =>
      cases right with
      | nil => rfl
      | cons snapshot rest => cases inner
  | cons snapshot rest ih =>
      cases right with
      | nil => cases inner
      | cons other others =>
          obtain ⟨head, tail⟩ := List.cons.inj inner
          have same := phdrInfo_congr head leftTls rightTls leftAdds leftSubs rightAdds rightSubs
          rw [visitPhdrs, visitPhdrs]
          cases first : phdrInfo leftTls leftAdds leftSubs snapshot with
          | error panic =>
              cases second : phdrInfo rightTls rightAdds rightSubs other with
              | error otherPanic =>
                  rw [first, second] at same
                  cases same
                  rfl
              | ok found =>
                  rw [first, second] at same
                  cases same
          | ok found =>
              cases second : phdrInfo rightTls rightAdds rightSubs other with
              | error otherPanic =>
                  rw [first, second] at same
                  cases same
              | ok otherFound =>
                  rw [first, second] at same
                  replace same := Except.ok.inj same
                  cases found with
                  | none =>
                      cases otherFound with
                      | none => exact ih tail seen
                      | some info => cases same
                  | some info =>
                      cases otherFound with
                      | none => cases same
                      | some otherInfo =>
                          have handle : info.library.inner = otherInfo.library.inner :=
                            Option.some.inj same
                          change visitPhdrs _ _ _ _ (seen ++ [info.library.inner]) rest = _
                          rw [handle]
                          exact ih tail _

theorem reportedModules_congr {left right : Manager Ctx}
    (order : left.view.order = right.view.order) (leftTls rightTls : Nat → Nat) :
    left.reportedModules leftTls = right.reportedModules rightTls :=
  visitPhdrs_congr (Manager.librarySnapshot_inner_congr order) _ _ _ _ _ _ _

def Action.isWalk : Action Ctx → Bool
  | .iteratePhdr => true
  | _ => false

/-- Rollbacks are exact, and `dl_iterate_phdr` is called only while no open in progress
has committed modules of its own. -/
def CountedWalks (world : World Ctx) (action : Action Ctx) : Prop :=
  ExactRollback world action ∧ (action.isWalk = true → world.uncounted = [])

instance (world : World Ctx) (action : Action Ctx) : Decidable (CountedWalks world action) :=
  inferInstanceAs (Decidable (_ ∧ (_ → _)))

omit [LawfulElfLoader Ctx] in
theorem countedOrder_eq {world : World Ctx} (counted : world.uncounted = []) :
    world.countedOrder = world.view.order := by
  rw [World.countedOrder, counted]
  simp

/-- Two walks of one run that report the same counters report the same modules, if both
see only counted modules. -/
theorem phdr_counters_identify (early walked late final : World Ctx)
    (actions : List (Action Ctx)) (earlyTls lateTls : Nat → Nat)
    (first : (World.system.restrict CountedWalks).step early .iteratePhdr walked)
    (run : (World.system.restrict CountedWalks).Run walked actions late)
    (second : (World.system.restrict CountedWalks).step late .iteratePhdr final)
    (adds : late.manager.adds = early.manager.adds)
    (subs : late.manager.subs = early.manager.subs) :
    late.manager.reportedModules lateTls = early.manager.reportedModules earlyTls := by
  have change := RecordChange.of_act first.2
  obtain ⟨walkAdds, walkSubs⟩ := change.monotone
  obtain ⟨runAdds, runSubs⟩ := counters_monotone run
  have walk := change.countedOrder first.1.1 (by omega) (by omega)
  have between := countedOrder_run (fun _ _ condition => condition.1) run (by omega) (by omega)
  apply reportedModules_congr
  calc late.view.order
      = late.countedOrder := (countedOrder_eq (second.1.2 rfl)).symm
    _ = walked.countedOrder := between
    _ = early.countedOrder := walk
    _ = early.view.order := countedOrder_eq (first.1.2 rfl)

def openPlugin : List (Action PluginContext) :=
  [openFile "/lib/libplugin.so" .rtldNow, .publish 0, .initialised 0]

/-- Another library is opened, and its constructors fail. -/
def abandonedOpen : List (Action PluginContext) :=
  [openFile "/lib/libbroken.so" .rtldNow, .publish 0, .initialiseFailed 0]

/-- The modules that a walk reports, if it neither panics nor ends early. -/
def reportOf (world : World PluginContext) : Option (List ModuleHandle) :=
  (world.manager.reportedModules fun _ => 0).toOption.bind Except.toOption

/-- Two walks with a run between them. -/
def walkTwice (condition : World PluginContext → Action PluginContext → Prop)
    [∀ world action, Decidable (condition world action)] (early : World PluginContext)
    (actions : List (Action PluginContext)) : Option (World PluginContext) := do
  let walked ← early.actWhen condition .iteratePhdr
  let late ← TransitionSystem.runLabels (World.actWhen condition) walked actions
  let _ ← late.actWhen condition .iteratePhdr
  return late

theorem steps_of_walkTwice {condition : World PluginContext → Action PluginContext → Prop}
    [∀ world action, Decidable (condition world action)] {early late : World PluginContext}
    {actions : List (Action PluginContext)} (ran : walkTwice condition early actions = some late) :
    ∃ walked final, (World.system.restrict condition).step early .iteratePhdr walked ∧
      (World.system.restrict condition).Run walked actions late ∧
      (World.system.restrict condition).step late .iteratePhdr final := by
  obtain ⟨walked, first, ran⟩ := Option.bind_eq_some_iff.mp ran
  obtain ⟨reached, between, ran⟩ := Option.bind_eq_some_iff.mp ran
  obtain ⟨final, second, ran⟩ := Option.bind_eq_some_iff.mp ran
  cases ran
  exact ⟨walked, final, World.step_of_actWhen first, World.run_of_actWhen between,
    World.step_of_actWhen second⟩

theorem phdr_counters_identify_abandoned :
    ∃ early walked late final : World PluginContext,
      (World.system.restrict CountedWalks).Run .new openPlugin early ∧
      (World.system.restrict CountedWalks).step early .iteratePhdr walked ∧
      (World.system.restrict CountedWalks).Run walked abandonedOpen late ∧
      (World.system.restrict CountedWalks).step late .iteratePhdr final ∧
      early.manager.adds = 1 ∧
      late.manager.reportedModules (fun _ => 0) = early.manager.reportedModules fun _ => 0 := by
  have evaluated : ((TransitionSystem.runLabels (World.actWhen CountedWalks) .new openPlugin).bind
      fun early => (walkTwice CountedWalks early abandonedOpen).map fun late =>
        decide (early.manager.adds = 1 ∧ late.manager.adds = early.manager.adds ∧
          late.manager.subs = early.manager.subs)) = some true := by
    decide +kernel
  obtain ⟨early, started, evaluated⟩ := Option.bind_eq_some_iff.mp evaluated
  obtain ⟨late, walks, facts⟩ := Option.map_eq_some_iff.mp evaluated
  obtain ⟨counted, adds, subs⟩ := of_decide_eq_true facts
  obtain ⟨walked, final, first, run, second⟩ := steps_of_walkTwice walks
  exact ⟨early, walked, late, final, World.run_of_actWhen started, first, run, second, counted,
    phdr_counters_identify early walked late final abandonedOpen _ _ first run second adds subs⟩

/-- A constructor walks the modules: its own library is there, and not counted. -/
theorem phdr_counters_stale :
    ∃ early walked late final : World PluginContext,
      World.system.Run .new openPlugin early ∧ World.system.step early .iteratePhdr walked ∧
      World.system.Run walked [openFile "/lib/libbroken.so" .rtldNow, .publish 0] late ∧
      World.system.step late .iteratePhdr final ∧
      late.manager.adds = early.manager.adds ∧ late.manager.subs = early.manager.subs ∧
      reportOf early = some [pluginLibrary.handle] ∧
      reportOf late = some [pluginLibrary.handle, brokenLibrary.handle] ∧
      late.manager.reportedModules (fun _ => 0) ≠ early.manager.reportedModules fun _ => 0 := by
  have evaluated :
      ((TransitionSystem.runLabels (World.actWhen ExactRollback) .new openPlugin).bind
        fun early => (walkTwice ExactRollback early
          [openFile "/lib/libbroken.so" .rtldNow, .publish 0]).map fun late =>
            decide (late.manager.adds = early.manager.adds ∧
              late.manager.subs = early.manager.subs ∧
              reportOf early = some [pluginLibrary.handle] ∧
              reportOf late = some [pluginLibrary.handle, brokenLibrary.handle])) = some true := by
    decide +kernel
  obtain ⟨early, started, evaluated⟩ := Option.bind_eq_some_iff.mp evaluated
  obtain ⟨late, walks, facts⟩ := Option.map_eq_some_iff.mp evaluated
  obtain ⟨adds, subs, few, more⟩ := of_decide_eq_true facts
  obtain ⟨walked, final, first, run, second⟩ := steps_of_walkTwice walks
  refine ⟨early, walked, late, final, (World.run_of_actWhen started).unrestrict, first.2,
    run.unrestrict, second.2, adds, subs, few, more, ?_⟩
  intro same
  have reports : reportOf late = reportOf early :=
    congrArg (fun report => report.toOption.bind Except.toOption) same
  rw [few, more] at reports
  cases Option.some.inj reports

end DynLinker.Registry
