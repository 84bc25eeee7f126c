import DynLinker.Registry.ModuleCounters

/-! The recorded flags over a run: `RTLD_GLOBAL` and `RTLD_NODELETE` stay once they are
recorded, and `RTLD_NODELETE` is recorded for the pinned modules and for no others. -/

set_option autoImplicit false

namespace DynLinker.Registry

open Lib Loader ElfLoader

variable {Ctx : Type} [ElfLoader Ctx]

/-- The modules of a load were not promoted beyond the flags they are about to get. -/
def World.AssignsOver (world : World Ctx) (flags : OpenFlags) (load : LoadResult) : Prop :=
  ∀ id ∈ load.modules, ∀ recorded ∈ world.view.flagsOf id,
    flags.contains recorded.promotable = true

instance (world : World Ctx) (flags : OpenFlags) (load : LoadResult) :
    Decidable (world.AssignsOver flags load) :=
  inferInstanceAs (Decidable (∀ id ∈ load.modules, ∀ recorded ∈ world.view.flagsOf id, _))

/-- `open_load` overwrites no promotion, and preloaded objects are registered as
`RTLD_NODELETE`. -/
def KeepsPromotions (world : World Ctx) : Action Ctx → Prop
  | .registerLoaded _ flags => flags.isNodelete = true
  | .initialised index => ∀ opening ∈ world.initialising[index]?,
      world.AssignsOver opening.1 opening.2
  | _ => True

instance (world : World Ctx) (action : Action Ctx) : Decidable (KeepsPromotions world action) :=
  match action with
  | .registerLoaded _ flags => inferInstanceAs (Decidable (flags.isNodelete = true))
  | .initialised index => inferInstanceAs (Decidable
      (∀ opening ∈ world.initialising[index]?, world.AssignsOver opening.1 opening.2))
  | .registerInitialAliases | .openWith _ _ _ _ _ | .publish _ | .startupHook _ _
  | .initialiseFailed _ | .openMain | .libraryByAddr _ | .intoElfLibrary _ | .dropOpened _
  | .cloneLibrary _ | .dropLibrary _ | .registerHandle _ | .dlclose _ | .dlsym _ _ | .iteratePhdr
  | .dropSnapshot _ | .registerDestructor _ | .dropDestructor _ => .isTrue trivial

/-- A step of the same kind, taken while a module is committed. -/
def KeepsCommitted (id : ModuleId) (world : World Ctx) (action : Action Ctx) : Prop :=
  KeepsPromotions world action ∧ world.view.Committed id

instance (id : ModuleId) (world : World Ctx) (action : Action Ctx) :
    Decidable (KeepsCommitted id world action) :=
  inferInstanceAs (Decidable (_ ∧ _))

/-- The pinned modules are those whose recorded flags say so. -/
def PinsRecorded (view : ContextView) : Prop :=
  ∀ id, view.Pinned id ↔ ∃ flags, view.flagsOf id = some flags ∧ flags.isNodelete = true

namespace RecordChange

variable {before after : World Ctx} {action : Action Ctx}

theorem committed_of_flagsOf {view : ContextView} {id : ModuleId} {flags : OpenFlags}
    (found : view.flagsOf id = some flags) : view.Committed id := by
  by_contra absent
  rw [ContextView.flagsOf_eq_none absent] at found
  cases found

theorem flagsOf_of_committed {view : ContextView} {id : ModuleId} (committed : view.Committed id) :
    ∃ flags, view.flagsOf id = some flags := by
  obtain ⟨record, found⟩ := ContextView.committed_iff_find.mp committed
  refine ⟨record.flags, ?_⟩
  rw [ContextView.flagsOf, found]
  rfl

/-- Modules that were not pinned are unloaded. -/
theorem pinsRecorded_unload {unloaded : List ModuleId} (recorded : PinsRecorded before.view)
    (flagged : ∀ id, after.view.flagsOf id =
      if id ∈ unloaded then none else before.view.flagsOf id)
    (pins : ∀ id, after.view.Pinned id ↔ before.view.Pinned id)
    (free : ∀ id ∈ unloaded, ¬ before.view.Pinned id) : PinsRecorded after.view := by
  intro id
  rw [pins, flagged]
  split
  · next gone =>
      refine ⟨fun pinned => absurd pinned (free id gone), ?_⟩
      rintro ⟨_, impossible, _⟩
      cases impossible
  · exact recorded id

theorem pinsRecorded (change : RecordChange before action after)
    (keeps : KeepsPromotions before action) (recorded : PinsRecorded before.view) :
    PinsRecorded after.view := by
  cases change with
  | steady manager _ =>
      intro id
      rw [World.view, manager.records.pins, manager.records.flags]
      exact recorded id
  | promoted id old flags _ found flagged pins _ _ _ =>
      intro other
      rw [pins, flagged]
      split
      · next same =>
          subst same
          rw [recorded other, found]
          simp only [Option.some.injEq, exists_eq_left', true_and, OpenFlags.isNodelete_union,
            OpenFlags.isNodelete_promotable, Bool.or_eq_true]
          cases old.isNodelete <;> simp
      · next different =>
          simp only [different, false_and, or_false]
          exact recorded other
  | registered id lib flags called _ _ flagged pins _ _ _ =>
      subst called
      intro other
      rw [pins, flagged]
      split
      · next same => exact ⟨fun _ => ⟨flags, rfl, keeps⟩, fun _ => .inr same⟩
      · next different =>
          simp only [different, or_false]
          exact recorded other
  | published flags load added _ _ _ absent flagged pins _ _ _ =>
      intro id
      rw [pins, flagged]
      split
      · next new =>
          constructor
          · intro pinned
            obtain ⟨old, found, _⟩ := (recorded id).mp pinned
            exact absurd (committed_of_flagsOf found) (absent id new)
          · rintro ⟨given, plain, nodelete⟩
            cases plain
            exact absurd nodelete (by decide)
      · exact recorded id
  | recorded index flags load called present _ flagged pins _ _ _ =>
      subst called
      have covers := keeps (flags, load) present
      intro id
      rw [pins, flagged]
      split
      · next new =>
          simp only [new, true_and, Option.some.injEq, exists_eq_left']
          refine ⟨?_, .inr⟩
          rintro (old | asked)
          swap
          · exact asked
          obtain ⟨marked, found, nodelete⟩ := (recorded id).mp old
          refine OpenFlags.isNodelete_of_contains (covers id new marked found) ?_
          rw [OpenFlags.isNodelete_promotable]
          exact nodelete
      · next other =>
          simp only [other, false_and, or_false]
          exact recorded id
  | rolledBack _ _ _ unloaded _ _ flagged pins free _ _ _ _ =>
      exact pinsRecorded_unload recorded flagged pins fun id gone => (free id gone).2
  | released unloaded _ _ flagged pins free _ _ _ =>
      exact pinsRecorded_unload recorded flagged pins fun id gone => (free id gone).2

/-- A module that stays committed over a step keeps its promotions. -/
theorem keeps_flags (change : RecordChange before action after)
    (keeps : KeepsPromotions before action) {id : ModuleId} {flags : OpenFlags}
    (found : before.view.flagsOf id = some flags) (stays : after.view.Committed id) :
    ∃ later, after.view.flagsOf id = some later ∧ later.contains flags.promotable = true := by
  have committed := committed_of_flagsOf found
  obtain ⟨later, kept⟩ := flagsOf_of_committed stays
  refine ⟨later, kept, ?_⟩
  have unchanged : after.view.flagsOf id = before.view.flagsOf id →
      later.contains flags.promotable = true := by
    intro same
    cases kept.symm.trans (same.trans found)
    exact OpenFlags.contains_promotable flags
  cases change with
  | steady manager _ => exact unchanged (manager.records.flags id)
  | promoted other old given _ known flagged _ _ _ _ =>
      by_cases same : id = other
      · subst same
        rw [flagged, if_pos rfl] at kept
        cases kept
        cases found.symm.trans known
        exact OpenFlags.contains_trans (OpenFlags.union_contains_left _ _)
          (OpenFlags.contains_promotable _)
      · exact unchanged ((flagged id).trans (if_neg same))
  | registered new _ _ _ _ absent flagged _ _ _ _ =>
      have different : id ≠ new := fun same => absent (same ▸ committed)
      exact unchanged ((flagged id).trans (if_neg different))
  | published _ load _ _ _ _ absent flagged _ _ _ _ =>
      have old : id ∉ load.modules := fun new => absent id new committed
      exact unchanged ((flagged id).trans (if_neg old))
  | recorded index given load called present _ flagged _ _ _ _ =>
      subst called
      by_cases new : id ∈ load.modules
      · rw [flagged, if_pos new] at kept
        cases kept
        exact keeps (later, load) present id new flags found
      · exact unchanged ((flagged id).trans (if_neg new))
  | rolledBack _ _ _ unloaded _ _ flagged _ _ _ _ _ _ =>
      rw [flagged] at kept
      split at kept
      · cases kept
      · next left => exact unchanged ((flagged id).trans (if_neg left))
  | released unloaded _ _ flagged _ _ _ _ _ =>
      rw [flagged] at kept
      split at kept
      · cases kept
      · next left => exact unchanged ((flagged id).trans (if_neg left))

end RecordChange

section

variable [LawfulElfLoader Ctx]

theorem pinsRecorded_inductive :
    (World.system.restrict (@KeepsPromotions Ctx _)).Inductive fun world =>
      PinsRecorded world.view where
  initially world initial := by
    subst initial
    intro id
    have empty : (World.new : World Ctx).view = ContextView.empty := LawfulElfLoader.view_new
    rw [empty]
    constructor
    · rintro ⟨lease, impossible, _⟩
      cases impossible
    · rintro ⟨flags, impossible, _⟩
      cases impossible
  preserved _ _ _ recorded step := (RecordChange.of_act step.2).pinsRecorded step.1 recorded

theorem keeps_flags_run {early late : World Ctx} {actions : List (Action Ctx)} {id : ModuleId}
    {flags : OpenFlags}
    (run : (World.system.restrict (KeepsCommitted id)).Run early actions late)
    (found : early.view.flagsOf id = some flags) (stays : late.view.Committed id) :
    ∃ later, late.view.flagsOf id = some later ∧ later.contains flags.promotable = true := by
  induction run with
  | refl => exact ⟨flags, found, OpenFlags.contains_promotable flags⟩
  | snoc _ step ih =>
      obtain ⟨⟨keeps, committed⟩, accepted⟩ := step
      obtain ⟨middle, between, covers⟩ := ih committed
      obtain ⟨later, kept, covered⟩ :=
        (RecordChange.of_act accepted).keeps_flags keeps between stays
      exact ⟨later, kept,
        OpenFlags.contains_trans covered (OpenFlags.promotable_contains covers)⟩

/-- In every state that is reached without overwriting a promotion the recorded
`RTLD_NODELETE` is the pin, and from there on a module keeps what is recorded for it as
long as it is committed. -/
theorem promotions_permanent (early : World Ctx)
    (reached : (World.system.restrict KeepsPromotions).Reachable early) (id : ModuleId)
    (flags : OpenFlags) (found : early.view.flagsOf id = some flags) :
    (flags.isNodelete = true ↔ early.view.Pinned id) ∧
    ∀ (late : World Ctx) (actions : List (Action Ctx)),
      (World.system.restrict (KeepsCommitted id)).Run early actions late →
      late.view.Committed id →
      ∃ later, late.view.flagsOf id = some later ∧
        (flags.isGlobal = true → later.isGlobal = true) ∧
        (flags.isNodelete = true → later.isNodelete = true) := by
  constructor
  · rw [pinsRecorded_inductive.reachable reached id, found]
    simp
  · intro late actions run stays
    obtain ⟨later, kept, covers⟩ := keeps_flags_run run found stays
    refine ⟨later, kept, ?_, ?_⟩
    · intro global
      rw [← OpenFlags.isGlobal_promotable] at global
      exact OpenFlags.contains_trans covers global
    · intro nodelete
      rw [← OpenFlags.isNodelete_promotable] at nodelete
      exact OpenFlags.isNodelete_of_contains covers nodelete

end

def openPromoted : OpenFlags := .union .rtldNow (.union .rtldGlobal .rtldNodelete)

/-- A promoted library is opened again with less, and closed twice. -/
theorem promotions_permanent_closed :
    ∃ early late : World PluginContext,
      (World.system.restrict KeepsPromotions).Run .new
        [openFile "/lib/libplugin.so" openPromoted, .publish 0, .initialised 0] early ∧
      (World.system.restrict (KeepsCommitted ⟨0⟩)).Run early
        [openFile "/lib/libplugin.so" .rtldNow, .dropOpened 0, .dropOpened 0] late ∧
      early.view.flagsOf ⟨0⟩ = some openPromoted ∧ early.view.Pinned ⟨0⟩ ∧
      ∃ later, late.view.flagsOf ⟨0⟩ = some later ∧ later.isGlobal = true ∧
        later.isNodelete = true := by
  have evaluated : ((TransitionSystem.runLabels (World.actWhen KeepsPromotions) .new
      [openFile "/lib/libplugin.so" openPromoted, .publish 0, .initialised 0]).bind fun early =>
        (TransitionSystem.runLabels (World.actWhen (KeepsCommitted ⟨0⟩)) early
          [openFile "/lib/libplugin.so" .rtldNow, .dropOpened 0, .dropOpened 0]).map fun late =>
            decide (early.view.flagsOf ⟨0⟩ = some openPromoted ∧ late.view.Committed ⟨0⟩)) =
      some true := by
    decide +kernel
  obtain ⟨early, started, evaluated⟩ := Option.bind_eq_some_iff.mp evaluated
  obtain ⟨late, ran, facts⟩ := Option.map_eq_some_iff.mp evaluated
  obtain ⟨found, stays⟩ := of_decide_eq_true facts
  have reaching := World.run_of_actWhen started
  have closing := World.run_of_actWhen ran
  obtain ⟨pinned, kept⟩ :=
    promotions_permanent early ⟨.new, _, rfl, reaching⟩ ⟨0⟩ openPromoted found
  obtain ⟨later, recorded, global, nodelete⟩ := kept late _ closing stays
  exact ⟨early, late, reaching, closing, found, pinned.mp (by decide), later, recorded,
    global (by decide), nodelete (by decide)⟩

/-- A constructor opens its own library and promotes it; the open in progress then writes
its own flags over that. The library stays pinned. -/
theorem promotion_overwritten :
    ∃ early late : World PluginContext,
      World.system.Reachable early ∧ World.system.step early (.initialised 0) late ∧
      early.view.flagsOf ⟨0⟩ = some (.union .rtldGlobal .rtldNodelete) ∧
      late.view.Committed ⟨0⟩ ∧ late.view.flagsOf ⟨0⟩ = some .rtldNow ∧
      late.view.Pinned ⟨0⟩ := by
  have evaluated : (((World.new : World PluginContext).runActions
      [openFile "/lib/libplugin.so" .rtldNow, .publish 0,
        openFile "/lib/libplugin.so" openPromoted]).bind fun early =>
          (early.runActions [.initialised 0]).map fun late =>
            decide (early.view.flagsOf ⟨0⟩ = some (.union .rtldGlobal .rtldNodelete) ∧
              late.view.Committed ⟨0⟩ ∧ late.view.flagsOf ⟨0⟩ = some .rtldNow ∧
              late.view.Pinned ⟨0⟩)) = some true := by
    decide +kernel
  obtain ⟨early, started, evaluated⟩ := Option.bind_eq_some_iff.mp evaluated
  obtain ⟨late, ran, facts⟩ := Option.map_eq_some_iff.mp evaluated
  exact ⟨early, late, World.reachable_of_runActions started, World.act_of_runActions ran,
    of_decide_eq_true facts⟩

end DynLinker.Registry
