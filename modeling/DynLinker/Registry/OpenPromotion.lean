import DynLinker.Registry.LeaseConservation

/-! What an open promises about the flags of the module it yields. Every way to a
module that is already committed goes through `promote`, except one: a load whose
root turns out to be committed under another name records nothing for it. -/

set_option autoImplicit false

namespace DynLinker.Registry

open Lib Loader ElfLoader

/-- The module carries the promotable flags of the request, and what they stand for
was done. -/
structure Promoted (view : ContextView) (id : ModuleId) (flags : OpenFlags) : Prop where
  recorded : ∃ marked, view.flagsOf id = some marked ∧ marked.contains flags.promotable = true
  pinned : flags.isNodelete = true → view.Pinned id
  global : flags.isGlobal = true → Manager.GroupGlobal view id

/-- The step in which an open succeeds: in its first part, or when the load it
published has been initialised. -/
inductive OpenStep {Ctx : Type} [ElfLoader Ctx] (before : World Ctx) (requested : OpenFlags)
    (opened : OpenedLibrary) (after : World Ctx) : Option LoadResult → Prop where
  | found (bindNow : Bool) (request : String) (root : LinkRoot Ctx) (caller : Option Nat)
      (manager : Manager Ctx)
      (accepted : before.manager.openWith bindNow request requested root caller =
        .ok (.finished (.ok opened), manager))
      (result : after = before.addOpened opened manager) :
      OpenStep before requested opened after none
  | loaded (bindNow : Bool) (index : Nat) (load : LoadResult) (manager : Manager Ctx)
      (present : before.initialising[index]? = some (effectiveFlags bindNow requested, load))
      (accepted : before.manager.openLoad load (effectiveFlags bindNow requested) =
        .ok (opened, manager))
      (result : after = { before.addOpened opened manager with
        initialising := before.initialising.eraseIdx index }) :
      OpenStep before requested opened after (some load)

/-- The load committed its root itself, or the flags were recorded before. -/
def RootMarked (view : ContextView) (load : LoadResult) (flags : OpenFlags) : Prop :=
  load.lease.id ∈ load.modules ∨
    ∃ marked, view.flagsOf load.lease.id = some marked ∧ marked.contains flags.promotable = true

@[simp] theorem effectiveFlags_promotable (bindNow : Bool) (flags : OpenFlags) :
    (effectiveFlags bindNow flags).promotable = flags.promotable := by
  cases bindNow with
  | false => rfl
  | true => exact OpenFlags.promotable_union_rtldNow flags

theorem effectiveFlags_isNodelete (bindNow : Bool) (flags : OpenFlags) :
    (effectiveFlags bindNow flags).isNodelete = flags.isNodelete := by
  rw [← OpenFlags.isNodelete_promotable, effectiveFlags_promotable,
    OpenFlags.isNodelete_promotable]

theorem effectiveFlags_isGlobal (bindNow : Bool) (flags : OpenFlags) :
    (effectiveFlags bindNow flags).isGlobal = flags.isGlobal := by
  rw [← OpenFlags.isGlobal_promotable, effectiveFlags_promotable, OpenFlags.isGlobal_promotable]

variable {Ctx : Type} [ElfLoader Ctx] [LawfulElfLoader Ctx]

theorem truthful_inductive : (World.system : TransitionSystem (World Ctx) (Action Ctx)).Inductive
    fun world => Conserved world ∧ Truthful world.view where
  initially world initial := by
    subst initial
    refine ⟨conserved_new, ?_⟩
    rw [show (World.new : World Ctx).view = ContextView.empty from LawfulElfLoader.view_new]
    intro record member
    cases member
  preserved _ _ _ held step := by
    have effect := act_effect held.1 step
    exact ⟨conserved_effect held.1 effect, effect.truthful held.2⟩

omit [LawfulElfLoader Ctx] in
theorem Truthful.pinned_of_flags {view : ContextView} (truthful : Truthful view) {id : ModuleId}
    {marked : OpenFlags} (found : view.flagsOf id = some marked)
    (nodelete : marked.isNodelete = true) : view.Pinned id := by
  obtain ⟨record, present, rfl⟩ := Option.map_eq_some_iff.mp found
  obtain ⟨member, rfl⟩ := ContextView.find_some present
  exact truthful record member nodelete

theorem promote_promotes {manager next : Manager Ctx} {id : ModuleId} {flags : OpenFlags}
    (accepted : manager.promote id flags = .ok next) (truthful : Truthful manager.view) :
    Promoted next.view id flags := by
  obtain ⟨recorded, found, _, _, modules, global, _⟩ := Manager.promote_spec accepted
  have committed : manager.view.Committed id := by
    obtain ⟨record, present, _⟩ := Option.map_eq_some_iff.mp found
    exact ContextView.committed_iff_find.mpr ⟨record, present⟩
  have marked : next.view.flagsOf id = some (recorded.union flags.promotable) := by
    rw [Manager.flagsOf_of_modules modules]
    exact ContextView.flagsOf_setFlags_self _ committed
  refine ⟨⟨_, marked, OpenFlags.union_contains_right _ _⟩, ?_, global⟩
  intro nodelete
  refine (Manager.promote_truthful accepted truthful).pinned_of_flags marked ?_
  rw [OpenFlags.isNodelete_union, OpenFlags.isNodelete_promotable, nodelete, Bool.or_true]

theorem found_promoted {before : World Ctx} {requested : OpenFlags} {opened : OpenedLibrary}
    {bindNow : Bool} {request : String} {root : LinkRoot Ctx} {caller : Option Nat}
    {next : Manager Ctx} (truthful : Truthful before.view)
    (accepted : before.manager.openWith bindNow request requested root caller =
      .ok (.finished (.ok opened), next)) :
    ∃ lease, opened.lease = .new lease ∧ Promoted next.view lease.id requested := by
  rcases Manager.openWith_cases accepted with
    ⟨id, promoted, found, same, promoting, opening⟩ | ⟨_, ⟨_, impossible⟩ | ⟨_, impossible⟩⟩
  · cases same
    obtain ⟨marked, pinned, global⟩ := promote_promotes promoting truthful
    rw [effectiveFlags_promotable] at marked
    rw [effectiveFlags_isNodelete] at pinned
    rw [effectiveFlags_isGlobal] at global
    obtain ⟨_, acquiring⟩ := Manager.openModule_spec opening
    obtain ⟨lease, leased, rfl, _, _, issued, _⟩ := Manager.acquireModule_spec acquiring
    refine ⟨lease, leased, ?_⟩
    rw [issued]
    exact ⟨marked, pinned, fun isGlobal => (global isGlobal).of_same rfl rfl⟩
  · cases impossible
  · cases impossible

theorem loaded_promoted_iff {before : World Ctx} {requested : OpenFlags} {opened : OpenedLibrary}
    {bindNow : Bool} {load : LoadResult} {next : Manager Ctx} (truthful : Truthful before.view)
    (accepted : before.manager.openLoad load (effectiveFlags bindNow requested) =
      .ok (opened, next)) :
    opened.lease = .new load.lease ∧
      (Promoted next.view load.lease.id requested ↔ RootMarked before.view load requested) := by
  obtain ⟨grows, _, leased, _, global, listed, other⟩ := Manager.openLoad_spec accepted
  rw [effectiveFlags_isGlobal] at global
  refine ⟨leased, ?_⟩
  constructor
  · intro promoted
    by_cases new : load.lease.id ∈ load.modules
    · exact .inl new
    · obtain ⟨marked, found, covers⟩ := promoted.recorded
      rw [other _ new] at found
      exact .inr ⟨marked, found, covers⟩
  · intro condition
    by_cases new : load.lease.id ∈ load.modules
    · obtain ⟨marked, pinned⟩ := listed _ new
      rw [effectiveFlags_isNodelete] at pinned
      refine ⟨⟨_, marked, ?_⟩, pinned, global⟩
      rw [← effectiveFlags_promotable bindNow]
      exact OpenFlags.contains_promotable _
    · obtain ⟨marked, found, covers⟩ := condition.resolve_left new
      refine ⟨⟨marked, (other _ new).trans found, covers⟩, ?_, global⟩
      intro nodelete
      apply grows.grown.isPinned
      refine truthful.pinned_of_flags found (OpenFlags.isNodelete_of_contains covers ?_)
      rw [OpenFlags.isNodelete_promotable]
      exact nodelete

/-- A successful open promotes the module it yields, unless it published a load
whose root was committed already and did not carry the flags yet. -/
theorem open_promotes_iff (before after : World Ctx) (reached : World.system.Reachable before)
    (requested : OpenFlags) (opened : OpenedLibrary) (published : Option LoadResult)
    (step : OpenStep before requested opened after published) :
    ∃ lease, opened.lease = .new lease ∧
      (Promoted after.view lease.id requested ↔
        ∀ load, published = some load → RootMarked before.view load requested) := by
  obtain ⟨_, truthful⟩ := truthful_inductive.reachable reached
  cases step with
  | found bindNow request root caller manager accepted result =>
      subst result
      obtain ⟨lease, leased, promoted⟩ := found_promoted truthful accepted
      refine ⟨lease, leased, ⟨?_, fun _ => promoted⟩⟩
      intro _ load impossible
      cases impossible
  | loaded bindNow index load manager present accepted result =>
      subst result
      obtain ⟨leased, condition⟩ := loaded_promoted_iff truthful accepted
      refine ⟨load.lease, leased, ?_⟩
      rw [show (∀ other, some load = some other → RootMarked before.view other requested) ↔
        RootMarked before.view load requested by simp]
      exact condition

/-- A library and a symbolic link to it, as two names of one file. -/
def symlinkedLibrary : GraphModule where
  key := "/lib/libexample.so"
  handle := ⟨⟨1⟩, "/lib/libexample.so", [(0x10000, 0x14000)], [("hello", 0x10100)],
    some ⟨some "libexample.so", "libexample.so", [], 0x10000, none, none,
      some ⟨"/lib/libexample.so", ⟨0x700, Nat.succ_ne_zero _⟩⟩⟩⟩
  flags := OpenFlags.empty
  dependencies := []

abbrev SymlinkContext : Type :=
  ReferenceContext [("/lib/libexample.so", symlinkedLibrary),
    ("/tmp/libexample_symlink.so", symlinkedLibrary)]

def globalNodelete : OpenFlags :=
  OpenFlags.rtldNow.union (OpenFlags.rtldGlobal.union OpenFlags.rtldNodelete)

/-- Opens a path up to the end of its constructors. -/
def startOpen (path : String) (flags : OpenFlags) : List (Action SymlinkContext) :=
  [.openWith false path flags (.file path) none, .publish 0]

/-- What the first open in progress leaves when its constructors have run. -/
def loadOutcome (world : World SymlinkContext) (requested : OpenFlags) :
    Option (LoadResult × OpenedLibrary × Manager SymlinkContext) := do
  let (flags, load) ← world.initialising[0]?
  guard (flags = effectiveFlags false requested)
  let result ← (world.manager.openLoad load flags).toOption
  return (load, result)

theorem openStep_of_loadOutcome {world : World SymlinkContext} {requested : OpenFlags}
    {load : LoadResult} {opened : OpenedLibrary} {manager : Manager SymlinkContext}
    (outcome : loadOutcome world requested = some (load, opened, manager)) :
    OpenStep world requested opened { world.addOpened opened manager with
      initialising := world.initialising.eraseIdx 0 } (some load) := by
  obtain ⟨⟨flags, entry⟩, present, guarded⟩ := Option.bind_eq_some_iff.mp outcome
  obtain ⟨_, same, loading⟩ := Option.bind_eq_some_iff.mp guarded
  obtain ⟨result, accepted, returned⟩ := Option.bind_eq_some_iff.mp loading
  have matched : flags = effectiveFlags false requested := by simpa using same
  rw [matched] at present accepted
  cases returned
  exact .loaded false 0 load manager present (toOption_eq_some_iff.mp accepted) rfl

theorem open_promotes_iff_fresh :
    ∃ (before after : World SymlinkContext) (opened : OpenedLibrary) (load : LoadResult),
      World.system.Reachable before ∧
      OpenStep before globalNodelete opened after (some load) ∧
      RootMarked before.view load globalNodelete ∧
      ∃ lease, opened.lease = .new lease ∧
        (Promoted after.view lease.id globalNodelete ↔
          ∀ published, some load = some published →
            RootMarked before.view published globalNodelete) := by
  have evaluated : (((World.new : World SymlinkContext).runActions
      (startOpen "/lib/libexample.so" globalNodelete)).bind fun world =>
        (loadOutcome world globalNodelete).map (·.1)) = some ⟨⟨0, ⟨0⟩⟩, [⟨0⟩]⟩ := by
    decide +kernel
  obtain ⟨world, ran, evaluated⟩ := Option.bind_eq_some_iff.mp evaluated
  obtain ⟨⟨load, opened, manager⟩, outcome, rfl⟩ := Option.map_eq_some_iff.mp evaluated
  have reached := World.reachable_of_runActions ran
  have step := openStep_of_loadOutcome outcome
  exact ⟨world, _, opened, _, reached, step, .inl (List.mem_singleton.mpr rfl),
    open_promotes_iff _ _ reached _ _ _ step⟩

/-- Opened by its name, then through the link with more flags: the second open
yields the same module and leaves it neither marked nor pinned. -/
theorem open_symlink_not_promoted :
    ∃ (before after : World SymlinkContext) (opened : OpenedLibrary) (load : LoadResult),
      World.system.Reachable before ∧
      OpenStep before globalNodelete opened after (some load) ∧
      opened.lease = .new load.lease ∧
      ¬ (∃ marked, after.view.flagsOf load.lease.id = some marked ∧
        marked.contains globalNodelete.promotable = true) ∧
      ¬ after.view.Pinned load.lease.id ∧
      ¬ Promoted after.view load.lease.id globalNodelete := by
  have evaluated : (((World.new : World SymlinkContext).runActions
      (startOpen "/lib/libexample.so" .rtldNow ++ .initialised 0 ::
        startOpen "/tmp/libexample_symlink.so" globalNodelete)).bind fun world =>
      (loadOutcome world globalNodelete).map fun (load, opened, manager) =>
        (load, opened.lease, manager.view.flagsOf ⟨0⟩, manager.view.pinned)) =
      some (⟨⟨1, ⟨0⟩⟩, []⟩, .new ⟨1, ⟨0⟩⟩, some .rtldNow, []) := by
    decide +kernel
  obtain ⟨world, ran, evaluated⟩ := Option.bind_eq_some_iff.mp evaluated
  obtain ⟨⟨load, opened, manager⟩, outcome, evaluated⟩ := Option.map_eq_some_iff.mp evaluated
  obtain ⟨rfl, leased, flags, pinned⟩ := by simpa only [Prod.mk.injEq] using evaluated
  have unmarked : ¬ ∃ marked, manager.view.flagsOf ⟨0⟩ = some marked ∧
      marked.contains globalNodelete.promotable = true := by
    rintro ⟨marked, recorded, covers⟩
    cases flags.symm.trans recorded
    exact absurd covers (by decide)
  refine ⟨world, _, opened, _, World.reachable_of_runActions ran,
    openStep_of_loadOutcome outcome, leased, unmarked, ?_,
    fun promoted => unmarked promoted.recorded⟩
  rintro ⟨lease, member, _⟩
  change lease ∈ manager.view.pinned at member
  rw [pinned] at member
  cases member

end DynLinker.Registry
