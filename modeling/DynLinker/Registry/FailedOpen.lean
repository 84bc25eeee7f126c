import DynLinker.Registry.GlobalScope
import DynLinker.Registry.OwnedImages
import DynLinker.Registry.Reentry

/-! What an open that fails leaves behind. Up to the constructors a failure leaves the
registry as it was and drops the images of the open; afterwards the rollback takes exactly
the published modules and their link maps out of what user code made of the process. -/

set_option autoImplicit false

namespace DynLinker.Registry

open Lib Loader ElfLoader ImageLoader Debug

variable {Ctx : Type} [ElfLoader Ctx] [ImageLoader Ctx]

/-- The link maps of the image that a caller hands over with the root. -/
def rootMaps : LinkRoot Ctx → List LinkMapAddress
  | .file _ => []
  | .binary _ _ => []
  | .mapped _ raw => rawMaps raw

/-- A run of registry steps leads to the registry of the process. -/
def RegistryReached (process : Process Ctx) : Prop :=
  ∃ world : World Ctx, World.system.Reachable world ∧ world.manager = process.manager

/-- The registry is as it was, and so is the debugger's list, less the image that came
with the root. -/
structure Restored (root : LinkRoot Ctx) (before after : Process Ctx) : Prop where
  modules : after.view.modules = before.view.modules
  globalScope : after.view.globalScope = before.view.globalScope
  outstanding : after.view.outstanding = before.view.outstanding
  handles : after.manager.handles = before.manager.handles
  adds : after.manager.adds = before.manager.adds
  subs : after.manager.subs = before.manager.subs
  linked : WellLinked after.debug
  listed : after.debug.listed =
    before.debug.listed.filter fun linkMap => linkMap ∉ rootMaps root

/-- The process when the hook starts: the modules of the load and its lease are new, and
on the debugger's list the link maps of these modules. -/
structure Published (root : LinkRoot Ctx) (before : Process Ctx) (load : LoadResult)
    (started : Process Ctx) : Prop where
  added : ∃ added, started.view = (before.view.append added).issue load.lease ∧
    added.map (·.id) = load.modules ∧ load.modules.Nodup ∧
    ∀ record ∈ added, ¬ before.view.Committed record.id ∧
      ∀ old ∈ before.view.modules, old.handle ≠ record.handle
  handles : started.manager.handles = before.manager.handles
  adds : started.manager.adds = before.manager.adds
  subs : started.manager.subs = before.manager.subs
  owns : Owns started.debug (started.manager.mapsOf load.modules)
    (before.debug.listed.filter fun linkMap => linkMap ∉ rootMaps root)

/-- User code ran between two states and failed: the hook, or the constructors after it. -/
def UserFailed (user : User Ctx) (beforeInit : ModuleId → Program Ctx (Except Error Unit))
    (load : LoadResult) (started ended : Process Ctx) : Prop :=
  (∃ error, beforeInit load.lease.id started = .ok (.error error, ended)) ∨
    ∃ error middle, beforeInit load.lease.id started = .ok (.ok (), middle) ∧
      user (.constructors load.modules) middle = .ok (.error error, ended)

/-- The rollback of a load removes exactly what its publication committed. -/
def Manager.RollsBackExactly (manager : Manager Ctx) (load : LoadResult) : Prop :=
  ∃ ctx, rollback manager.linkCtx load = .ok ctx ∧
    ∀ id ∈ load.modules, ¬ (ElfLoader.view ctx).Committed id

instance (manager : Manager Ctx) (load : LoadResult) :
    Decidable (manager.RollsBackExactly load) :=
  match rolled : rollback manager.linkCtx load with
  | .error _ => .isFalse (by simp [Manager.RollsBackExactly, rolled])
  | .ok ctx => decidable_of_iff (∀ id ∈ load.modules, ¬ (ElfLoader.view ctx).Committed id)
      (by simp [Manager.RollsBackExactly, rolled])

/-- What user code left, without the modules of the load, their handles in the global
scope, their link maps and the lease of the load. -/
structure TakenAway (load : LoadResult) (ended after : Process Ctx) : Prop where
  view : after.view = (ended.view.retire load.lease).unload load.modules
  handles : after.manager.handles = ended.manager.handles
  adds : after.manager.adds = ended.manager.adds
  subs : after.manager.subs = ended.manager.subs
  listed : WellLinked ended.debug → WellLinked after.debug ∧
    after.debug.listed = ended.debug.listed.filter fun linkMap =>
      linkMap ∉ ended.manager.mapsOf load.modules

/-! ## The stages -/

section Stages

variable [LawfulImageLoader Ctx] {cell : RefCell (Manager Ctx)} {around : Surroundings}
  {after : Process Ctx} {rest : List LinkMapAddress}

theorem mapRoot_owns {root : LinkRoot Ctx}
    {result : Except Error (LinkRoot Ctx × List LinkMapAddress)}
    (owns : Owns around.debug (rootMaps root) rest)
    (ran : mapRoot root (cell, around) = .ok (result, after)) :
    ∃ debug, after = (cell, { around with debug := debug }) ∧
      ((∃ error, result = .error error ∧ Owns debug [] rest) ∨
        ∃ mapped, result = .ok (mapped, rootMaps mapped) ∧ mapped.isBinary = false ∧
          Owns debug (rootMaps mapped) rest) := by
  cases root with
  | file path =>
      cases ran
      exact ⟨around.debug, rfl, .inr ⟨_, rfl, rfl, owns⟩⟩
  | mapped key raw =>
      cases ran
      exact ⟨around.debug, rfl, .inr ⟨_, rfl, rfl, owns⟩⟩
  | binary key bytes =>
      rw [mapRoot] at ran
      obtain ⟨_, middle, adding, ran⟩ := CellM.run_bind.mp ran
      obtain ⟨debug, rfl, owned⟩ := addImages_owns owns adding
      rw [rootMaps, List.nil_append] at owned
      cases loaded : @loadDylib Ctx _ key bytes with
      | error failure =>
          rw [loaded] at ran
          obtain ⟨_, last, dropping, returned⟩ := CellM.run_bind.mp ran
          cases returned
          obtain ⟨final, rfl, dropped⟩ := dropImages_owned owned dropping
          exact ⟨final, rfl, .inl ⟨_, rfl, dropped⟩⟩
      | ok raw =>
          rw [loaded] at ran
          obtain ⟨_, last, keeping, returned⟩ := CellM.run_bind.mp ran
          cases returned
          obtain ⟨final, rfl, kept⟩ := keepImages_owns owned keeping
            (LawfulImageLoader.loadDylib_maps _ _ _ loaded)
          exact ⟨final, rfl, .inr ⟨_, rfl, rfl, kept⟩⟩

/-- A prepared load owns images that came with the root or were mapped for it. -/
theorem prepare_maps {manager next : Manager Ctx} {request : String} {flags given : OpenFlags}
    {root : LinkRoot Ctx} {caller : Option Nat} {pending : Pending Ctx}
    (mapped : root.isBinary = false)
    (accepted : manager.prepare request flags root caller = .ok (.prepared given pending, next)) :
    pendingMaps pending ⊆ rootMaps root ++
      (linkedImages manager.linkCtx (caller.bind (moduleIdAt manager.linkCtx)) flags root).map
        (·.linkMap) := by
  cases root with
  | file path =>
      rw [Manager.prepare] at accepted
      split at accepted
      · rcases Manager.openCommitted_cases accepted with
          ⟨_, _, _, impossible, _⟩ | ⟨_, _, impossible⟩
        · cases impossible
        · cases impossible
      · next loads =>
          rw [linkedImages, if_neg loads]
          cases prepared : prepareLoad manager.linkCtx
              (caller.bind (moduleIdAt manager.linkCtx)) path with
          | error failure =>
              rw [prepared] at accepted
              cases accepted
          | ok found =>
              rw [prepared] at accepted
              cases accepted
              exact LawfulImageLoader.prepareLoad_maps _ _ _ _ prepared
  | binary key bytes => cases mapped
  | mapped key raw =>
      rw [Manager.prepare] at accepted
      cases prepared : prepareMapped manager.linkCtx
          (caller.bind (moduleIdAt manager.linkCtx)) key raw with
      | error failure =>
          rw [prepared] at accepted
          cases accepted
      | ok found =>
          rw [prepared] at accepted
          cases accepted
          exact LawfulImageLoader.prepareMapped_maps _ _ _ _ _ prepared

theorem prepareRoot_owns {root : LinkRoot Ctx} {request : String} {flags : OpenFlags}
    {caller : Option Nat} {outcome : OpenOutcome Ctx} (mapped : root.isBinary = false)
    (owns : Owns around.debug (rootMaps root) rest)
    (ran : prepareRoot request flags root (rootMaps root) caller (cell, around) =
      .ok (outcome, after)) :
    (∃ opened, outcome = .finished (.ok opened)) ∨
    ∃ debug, after = (⟨cell.value, .unused⟩, { around with debug := debug }) ∧
      ((∃ error, outcome = .finished (.error error) ∧ Owns debug [] rest) ∨
        ∃ pending, outcome = .prepared flags pending ∧ Owns debug (pendingMaps pending) rest) := by
  obtain ⟨_, value, last, next, body, rfl⟩ := CellM.run_borrowMut.mp ran
  obtain ⟨_, first, adding, body⟩ := CellM.run_bind.mp body
  obtain ⟨debug, rfl, owned⟩ := addImages_owns owns adding
  obtain ⟨⟨found, manager⟩, second, preparing, body⟩ := CellM.run_bind.mp body
  obtain ⟨prepared, rfl⟩ := run_panicking.mp preparing
  rcases Manager.prepare_cases prepared with
    ⟨_, _, opened, rfl, _, _⟩ | ⟨rfl, ⟨error, rfl⟩ | ⟨pending, rfl⟩⟩
  · obtain ⟨_, third, dropping, returned⟩ := CellM.run_bind.mp body
    cases returned
    exact .inl ⟨opened, rfl⟩
  · obtain ⟨_, third, dropping, returned⟩ := CellM.run_bind.mp body
    obtain ⟨final, rfl, dropped⟩ := dropImages_owned owned dropping
    cases returned
    exact .inr ⟨final, rfl, .inl ⟨error, rfl, dropped⟩⟩
  · obtain ⟨_, third, keeping, returned⟩ := CellM.run_bind.mp body
    obtain ⟨final, rfl, kept⟩ := keepImages_owns owned keeping (prepare_maps mapped prepared)
    cases returned
    exact .inr ⟨final, rfl, .inr ⟨pending, rfl, kept⟩⟩

/-- A load that cannot be published is gone; a published one is in the context. -/
theorem publishPrepared_owns {pending : Pending Ctx} {result : Except Error LoadResult}
    (owns : Owns around.debug (pendingMaps pending) rest)
    (ran : publishPrepared pending (⟨cell.value, .unused⟩, around) = .ok (result, after)) :
    (∃ error debug, result = .error error ∧
      after = (⟨cell.value, .unused⟩, { around with debug := debug }) ∧ Owns debug [] rest) ∨
    ∃ relocated load ctx, result = .ok load ∧ pendingMaps relocated = pendingMaps pending ∧
      publish cell.value.linkCtx relocated = .ok (load, ctx) ∧
      after = (⟨{ cell.value with linkCtx := ctx }, .unused⟩, around) := by
  cases relocating : relocate pending with
  | error failure =>
      rw [publishPrepared, relocating] at ran
      obtain ⟨_, last, dropping, returned⟩ := CellM.run_bind.mp ran
      obtain ⟨debug, rfl, dropped⟩ := dropImages_owned owns dropping
      cases returned
      exact .inl ⟨_, debug, rfl, rfl, dropped⟩
  | ok relocated =>
      rw [publishPrepared, relocating] at ran
      have same := LawfulImageLoader.relocate_maps _ _ relocating
      obtain ⟨_, value, last, next, body, rfl⟩ := CellM.run_borrowMut.mp ran
      cases publishing : publish cell.value.linkCtx relocated with
      | error failure =>
          simp only [publishing] at body
          obtain ⟨_, third, dropping, returned⟩ := CellM.run_bind.mp body
          rw [same] at dropping
          obtain ⟨debug, rfl, dropped⟩ := dropImages_owned owns dropping
          cases returned
          exact .inl ⟨_, debug, rfl, rfl, dropped⟩
      | ok published =>
          obtain ⟨load, ctx⟩ := published
          simp only [publishing] at body
          cases body
          exact .inr ⟨relocated, load, ctx, rfl, same, publishing, rfl⟩

end Stages

/-! ## The rollback -/

section Rollback

variable [LawfulElfLoader Ctx]

omit [ImageLoader Ctx] in
/-- Unloading fewer modules changes nothing if no other one of them was there. -/
theorem unload_congr {view : ContextView} {fewer more : List ModuleId} (subset : fewer ⊆ more)
    (gone : ∀ id ∈ more, ¬ (view.unload fewer).Committed id) :
    view.unload fewer = view.unload more := by
  have same : ∀ record ∈ view.modules, (record.id ∈ fewer ↔ record.id ∈ more) := by
    intro record listed
    refine ⟨fun member => subset member, fun member => ?_⟩
    by_contra kept
    apply gone record.id member
    exact ⟨record, List.mem_filter.mpr ⟨listed, decide_eq_true kept⟩, rfl⟩
  have modules : view.modules.filter (fun record => record.id ∉ fewer) =
      view.modules.filter fun record => record.id ∉ more := by
    apply List.filter_congr
    intro record listed
    rw [decide_eq_decide, same record listed]
  have scope : view.globalScope.filter (fun handle =>
        ¬ ∃ record ∈ view.modules, record.id ∈ fewer ∧ record.handle = handle) =
      view.globalScope.filter fun handle =>
        ¬ ∃ record ∈ view.modules, record.id ∈ more ∧ record.handle = handle := by
    apply List.filter_congr
    intro handle _
    rw [decide_eq_decide]
    apply not_congr
    apply exists_congr
    intro record
    exact and_congr_right fun listed => and_congr_left fun _ => same record listed
  rw [ContextView.unload, ContextView.unload, modules, scope]

omit [ImageLoader Ctx] in
theorem rollbackPublished_takes {load : LoadResult} {error reported : Error}
    {ended after : Process Ctx}
    (ran : rollbackPublished load error ended = .ok (reported, after))
    (exactly : ended.manager.RollsBackExactly load) : TakenAway load ended after := by
  obtain ⟨cell, around⟩ := ended
  obtain ⟨ctx, rolling, gone⟩ := exactly
  obtain ⟨_, value, last, next, body, rfl⟩ := CellM.run_borrowMut.mp ran
  change rollback cell.value.linkCtx load = .ok ctx at rolling
  simp only [rolling] at body
  obtain ⟨_, second, dropping, returned⟩ := CellM.run_bind.mp body
  obtain ⟨debug, acted, rfl⟩ := run_debugActions dropping
  cases returned
  obtain ⟨_, unloaded, result, _, free⟩ := LawfulElfLoader.rollback_spec _ _ _ rolling
  have all : load.modules.filter (fun id =>
      ¬ (Manager.view { cell.value with linkCtx := ctx }).Committed id) = load.modules := by
    apply List.filter_eq_self.mpr
    intro id member
    exact decide_eq_true (gone id member)
  refine ⟨?_, rfl, rfl, rfl, ?_⟩
  · change ElfLoader.view ctx = _
    rw [result] at gone ⊢
    exact unload_congr (fun id member => (free id member).1) gone
  · intro valid
    obtain ⟨linked, listed⟩ := wellLinked_runLabels valid acted
    rw [all, listedAfter_drops, valid.listed_nodup.sdiff_eq_filter] at listed
    exact ⟨linked, listed⟩

end Rollback

omit [ImageLoader Ctx] in
theorem initialise_failed {user : User Ctx}
    {beforeInit : ModuleId → Program Ctx (Except Error Unit)} {flags : OpenFlags}
    {load : LoadResult} {error : Error} {started after : Process Ctx}
    (failed : initialise user beforeInit flags load started = .ok (.error error, after)) :
    ∃ cause ended, UserFailed user beforeInit load started ended ∧
      rollbackPublished load cause ended = .ok (error, after) := by
  obtain ⟨accepted, middle, hooked, failed⟩ := CellM.run_bind.mp failed
  cases accepted with
  | error cause =>
      obtain ⟨reported, last, rolling, returned⟩ := CellM.run_bind.mp failed
      cases returned
      exact ⟨cause, middle, .inl ⟨cause, hooked⟩, rolling⟩
  | ok _ =>
      obtain ⟨initialised, ended, constructed, failed⟩ := CellM.run_bind.mp failed
      cases initialised with
      | error cause =>
          obtain ⟨reported, last, rolling, returned⟩ := CellM.run_bind.mp failed
          cases returned
          exact ⟨cause, ended, .inr ⟨cause, middle, hooked, constructed⟩, rolling⟩
      | ok _ =>
          obtain ⟨opened, last, _, returned⟩ := CellM.run_bind.mp failed
          cases returned

/-- If user code changed nothing, nothing has changed. -/
theorem TakenAway.restored {root : LinkRoot Ctx} {before started after : Process Ctx}
    {load : LoadResult} (taken : TakenAway load started after)
    (published : Published root before load started) (scope : ScopeCommitted before.view) :
    Restored root before after := by
  obtain ⟨added, view, ids, _, new⟩ := published.added
  have final : after.view =
      (((before.view.append added).issue load.lease).retire load.lease).unload load.modules := by
    rw [taken.view, view]
  have old : ∀ record ∈ before.view.modules, record.id ∉ load.modules := by
    intro record listed member
    rw [← ids] at member
    obtain ⟨other, added, same⟩ := List.mem_map.mp member
    exact (new other added).1 ⟨record, listed, same.symm⟩
  have mine : ∀ record ∈ added, record.id ∈ load.modules :=
    fun record member => ids ▸ List.mem_map_of_mem member
  refine ⟨?_, ?_, ?_, taken.handles.trans published.handles, taken.adds.trans published.adds,
    taken.subs.trans published.subs, (taken.listed published.owns.linked).1, ?_⟩
  · rw [final]
    change (before.view.modules ++ added).filter (fun record => record.id ∉ load.modules) = _
    have kept : before.view.modules.filter (fun record => record.id ∉ load.modules) =
        before.view.modules :=
      List.filter_eq_self.mpr fun record listed => decide_eq_true (old record listed)
    have gone : added.filter (fun record => record.id ∉ load.modules) = [] :=
      List.filter_eq_nil_iff.mpr fun record member => by simp [mine record member]
    rw [List.filter_append, kept, gone, List.append_nil]
  · rw [final]
    change before.view.globalScope.filter (fun handle => ¬ ∃ record ∈ before.view.modules ++ added,
      record.id ∈ load.modules ∧ record.handle = handle) = _
    apply List.filter_eq_self.mpr
    intro handle member
    apply decide_eq_true
    rintro ⟨record, listed, own, same⟩
    obtain ⟨owner, committed, held⟩ := scope handle member
    rcases List.mem_append.mp listed with known | fresh
    · exact old record known own
    · exact (new record fresh).2 owner committed (held.trans same.symm)
  · rw [final]
    exact List.erase_cons_head load.lease before.view.outstanding
  · rw [(taken.listed published.owns.linked).2]
    exact published.owns.others

section Main

variable [LawfulElfLoader Ctx] [LawfulImageLoader Ctx]

theorem published_of_publish {root : LinkRoot Ctx} {before : Process Ctx} {ctx : Ctx}
    {around : Surroundings} {pending : Pending Ctx} {load : LoadResult}
    (publishing : publish before.manager.linkCtx pending = .ok (load, ctx))
    (owns : Owns around.debug (pendingMaps pending)
      (before.debug.listed.filter fun linkMap => linkMap ∉ rootMaps root)) :
    Published root before load
      (⟨{ before.manager with linkCtx := ctx }, .unused⟩, around) := by
  obtain ⟨added, view, ids, nodup, fresh, _, _⟩ := LawfulElfLoader.publish_spec _ _ _ _ publishing
  refine ⟨⟨added, view, ids, nodup, ?_⟩, rfl, rfl, rfl, ?_⟩
  · intro record member
    refine ⟨(fresh record member).1, ?_⟩
    intro old listed
    have own : record.id ∈ load.modules := ids ▸ List.mem_map_of_mem member
    refine LawfulImageLoader.publish_new _ _ _ _ publishing record.id own record.handle ?_ old
      listed
    -- the only record with this id is the new one
    have committed : (ElfLoader.view ctx).Committed record.id := by
      rw [view]
      exact ⟨record, List.mem_append_right _ member, rfl⟩
    obtain ⟨found, located⟩ := ContextView.committed_iff_find.mp committed
    obtain ⟨listed, same⟩ := ContextView.find_some located
    rw [view] at listed
    rcases List.mem_append.mp listed with known | new
    · exact absurd ⟨found, known, same⟩ (fresh record member).1
    · have unique : (added.map (·.id)).Nodup := ids ▸ nodup
      cases List.inj_on_of_nodup_map unique new member same
      exact ContextView.handleOf_of_find located
  · have maps := LawfulImageLoader.publish_maps _ _ _ _ publishing
    change Owns around.debug (load.modules.filterMap fun id =>
      (module ctx id).bind ModuleHandle.linkMap) _
    rw [maps]
    exact owns

/-- How an open stands before user code runs: it succeeded, it failed and left nothing, or
it is published. -/
def StageSound (root : LinkRoot Ctx) (before after : Process Ctx) : OpenStage → Prop
  | .finished (.ok _) => True
  | .finished (.error _) => Restored root before after
  | .published _ load => Published root before load after

theorem publishRoot_sound {request : String} {flags : OpenFlags} {root : LinkRoot Ctx}
    {caller : Option Nat} {stage : OpenStage} {before after : Process Ctx}
    (linked : WellLinked before.debug)
    (ran : publishRoot request flags root caller before = .ok (stage, after)) :
    StageSound root before after stage := by
  obtain ⟨cell, around⟩ := before
  have owns : Owns around.debug (rootMaps root)
      (around.debug.listed.filter fun linkMap => linkMap ∉ rootMaps root) := ⟨linked, rfl⟩
  have restored : ∀ {state : BorrowState} {debug : DebugWorld}, Owns debug []
      (around.debug.listed.filter fun linkMap => linkMap ∉ rootMaps root) →
      Restored root (cell, around) (⟨cell.value, state⟩, { around with debug := debug }) :=
    fun dropped => ⟨rfl, rfl, rfl, rfl, rfl, rfl, dropped.linked, dropped.listed⟩
  obtain ⟨result, first, mapping, ran⟩ := CellM.run_bind.mp ran
  obtain ⟨debug, rfl, ⟨_, rfl, dropped⟩ | ⟨mapped, rfl, notBinary, owned⟩⟩ :=
    mapRoot_owns owns mapping
  · cases ran
    exact restored dropped
  obtain ⟨outcome, second, preparing, ran⟩ := CellM.run_bind.mp ran
  rcases prepareRoot_owns notBinary owned preparing with
    ⟨opened, rfl⟩ | ⟨debug, rfl, ⟨_, rfl, dropped⟩ | ⟨pending, rfl, owned⟩⟩
  · cases ran
    trivial
  · cases ran
    exact restored dropped
  obtain ⟨published, third, publishing, ran⟩ := CellM.run_bind.mp ran
  rcases publishPrepared_owns owned publishing with
    ⟨_, debug, rfl, rfl, dropped⟩ | ⟨relocated, load, ctx, rfl, same, committing, rfl⟩
  · cases ran
    exact restored dropped
  · cases ran
    rw [← same] at owned
    exact published_of_publish committing owned

omit [ImageLoader Ctx] [LawfulImageLoader Ctx] in
theorem openExisting_missing {request : String} {flags : OpenFlags} {root : LinkRoot Ctx}
    {before after : Process Ctx}
    (ran : openExisting request flags root before = .ok (none, after)) : after = before := by
  obtain ⟨cell, around⟩ := before
  rw [openExisting] at ran
  split at ran
  · cases ran
    rfl
  · obtain ⟨free, value, last, next, body, rfl⟩ := CellM.run_borrowMut.mp ran
    obtain ⟨searching, same⟩ := run_panicking.mp body
    cases same
    rcases Manager.openExisting_spec searching with ⟨_, rfl, _⟩ | ⟨_, _, _, _, _, _, impossible⟩
    · change (⟨cell.value, .unused⟩, around) = (cell, around)
      rw [← free]
    · cases impossible

theorem beginOpen_sound {bindNow : Bool} {request : String} {requested : OpenFlags}
    {root : LinkRoot Ctx} {caller : Option Nat} {stage : OpenStage} {before after : Process Ctx}
    (linked : WellLinked before.debug)
    (ran : beginOpen bindNow request requested root caller before = .ok (stage, after)) :
    StageSound root before after stage := by
  obtain ⟨found, middle, searching, ran⟩ := CellM.run_bind.mp ran
  cases found with
  | some opened =>
      cases ran
      trivial
  | none =>
      cases openExisting_missing searching
      simp only at ran
      split at ran
      · next refused =>
          cases ran
          -- a binary root that was not loaded owns nothing
          have binary : root.isBinary = true := (Bool.and_eq_true _ _ ▸ refused).2
          have empty : rootMaps root = [] := by
            cases root with
            | binary key bytes => rfl
            | file path => cases binary
            | mapped key raw => cases binary
          refine ⟨rfl, rfl, rfl, rfl, rfl, rfl, linked, ?_⟩
          rw [empty]
          simp
      · exact publishRoot_sound linked ran

/-- A failed open leaves the registry as it was, and the debugger's list without the image
that came with the root. If user code ran, the rollback takes exactly the modules of the
load out of what user code left, so that user code which changed nothing leaves nothing. -/
theorem failed_open_restores (user : User Ctx)
    (beforeInit : ModuleId → Program Ctx (Except Error Unit)) (bindNow : Bool) (request : String)
    (requested : OpenFlags) (root : LinkRoot Ctx) (caller : Option Nat) (error : Error)
    (before after : Process Ctx) (linked : WellLinked before.debug)
    (reached : RegistryReached before)
    (failed : openWith user beforeInit bindNow request requested root caller before =
      .ok (.error error, after)) :
    Restored root before after ∨ ∃ flags load started ended,
      beginOpen bindNow request requested root caller before =
        .ok (.published flags load, started) ∧
      Published root before load started ∧ UserFailed user beforeInit load started ended ∧
      (ended.manager.RollsBackExactly load →
        TakenAway load ended after ∧ (ended = started → Restored root before after)) := by
  obtain ⟨stage, started, beginning, failed⟩ := CellM.run_bind.mp failed
  have sound := beginOpen_sound linked beginning
  cases stage with
  | finished result =>
      cases failed
      exact .inl sound
  | published flags load =>
      obtain ⟨world, reachable, same⟩ := reached
      have scope : ScopeCommitted before.view := by
        rw [Process.view, ← same]
        exact scopeCommitted_reachable reachable
      obtain ⟨cause, ended, ran, rolling⟩ := initialise_failed failed
      refine .inr ⟨flags, load, started, ended, beginning, sound, ran, fun exactly => ?_⟩
      have taken := rollbackPublished_takes rolling exactly
      refine ⟨taken, ?_⟩
      rintro rfl
      exact taken.restored sound scope

end Main

/-- A process with these images on the debugger's list. -/
def Process.withImages (manager : Manager PluginContext) (images : List LoadedImage) :
    Option (Process PluginContext) :=
  (TransitionSystem.runLabels DebugWorld.act Process.start.debug
    (images.map fun image => .add image.linkMap image.contents)).map fun debug =>
      (⟨manager, .unused⟩, { Process.start.2 with debug := debug })

theorem Process.withImages_manager {manager : Manager PluginContext} {images : List LoadedImage}
    {process : Process PluginContext} (built : Process.withImages manager images = some process) :
    process.manager = manager := by
  obtain ⟨debug, _, rfl⟩ := Option.map_eq_some_iff.mp built
  rfl

theorem Process.withImages_linked {manager : Manager PluginContext} {images : List LoadedImage}
    {process : Process PluginContext} (built : Process.withImages manager images = some process) :
    WellLinked process.debug := by
  obtain ⟨debug, acted, rfl⟩ := Option.map_eq_some_iff.mp built
  exact (wellLinked_runLabels (wellLinked_started .internal) acted).1

/-- One library is open. -/
def pluginManager : Option (Manager PluginContext) :=
  ((World.new : World PluginContext).runActions
    [openFile "/lib/libplugin.so" .rtldNow, .publish 0, .initialised 0]).map (·.manager)

theorem pluginManager_reached {manager : Manager PluginContext} {images : List LoadedImage}
    {process : Process PluginContext} (opened : pluginManager = some manager)
    (built : Process.withImages manager images = some process) : RegistryReached process := by
  obtain ⟨world, ran, rfl⟩ := Option.map_eq_some_iff.mp opened
  exact ⟨world, World.reachable_of_runActions ran, (Process.withImages_manager built).symm⟩

/-- The load of an open that was published. -/
def OpenStage.load : OpenStage → Option LoadResult
  | .finished _ => none
  | .published _ load => some load

def failingUser : User PluginContext
  | .constructors _ => pure (.error (.loaderError "constructor failed"))
  | _ => pure (.ok ())

def noHook (_ : ModuleId) : Program PluginContext (Except Error Unit) := pure (.ok ())

def brokenRoot : LinkRoot PluginContext := .file "/lib/libbroken.so"

def failureOf : Except Error OpenedLibrary → Option Error
  | .error error => some error
  | .ok _ => none

theorem failureOf_eq_some {result : Except Error OpenedLibrary} {error : Error}
    (found : failureOf result = some error) : result = .error error := by
  cases result with
  | ok opened => cases found
  | error cause =>
      cases found
      rfl

theorem failed_open_restores_constructor :
    ∃ (before after : Process PluginContext) (error : Error),
      before.debug.listed = pluginLibrary.handle.linkMap.toList ∧
      openWith failingUser noHook false "/lib/libbroken.so" .rtldNow brokenRoot none before =
        .ok (.error error, after) ∧
      Restored brokenRoot before after := by
  have evaluated : (pluginManager.bind fun manager => (Process.withImages manager
      (ReferenceContext.imageOf pluginLibrary.handle)).bind fun before =>
      (openWith failingUser noHook false "/lib/libbroken.so" .rtldNow brokenRoot none
        before).toOption.bind fun outcome => (failureOf outcome.1).bind fun _ =>
      (beginOpen false "/lib/libbroken.so" .rtldNow brokenRoot none before).toOption.bind
        fun begun => begun.1.load.map fun load => decide (
          before.debug.listed = pluginLibrary.handle.linkMap.toList ∧
          Manager.RollsBackExactly begun.2.1.value load)) =
      some true := by
    decide +kernel
  obtain ⟨manager, open_, evaluated⟩ := Option.bind_eq_some_iff.mp evaluated
  obtain ⟨before, built, evaluated⟩ := Option.bind_eq_some_iff.mp evaluated
  obtain ⟨⟨result, after⟩, failed, evaluated⟩ := Option.bind_eq_some_iff.mp evaluated
  obtain ⟨error, refused, evaluated⟩ := Option.bind_eq_some_iff.mp evaluated
  obtain ⟨⟨stage, started⟩, begun, evaluated⟩ := Option.bind_eq_some_iff.mp evaluated
  obtain ⟨load, published, facts⟩ := Option.map_eq_some_iff.mp evaluated
  obtain ⟨listed, exactly⟩ := of_decide_eq_true facts
  rw [toOption_eq_some_iff] at failed begun
  cases failureOf_eq_some refused
  refine ⟨before, after, error, listed, failed, ?_⟩
  rcases failed_open_restores failingUser noHook false "/lib/libbroken.so" .rtldNow brokenRoot
    none error before after (Process.withImages_linked built) (pluginManager_reached open_ built)
    failed with
    restored | ⟨_, _, _, ended, sameStage, _, ran, undone⟩
  · exact restored
  · cases begun.symm.trans sameStage
    cases published
    -- neither the hook nor the constructors changed anything
    have unchanged : ended = started := by
      rcases ran with ⟨_, hooked⟩ | ⟨_, middle, hooked, constructed⟩
      · cases hooked
      · cases hooked
        cases constructed
        rfl
    exact (undone (unchanged ▸ exactly)).2 unchanged

/-- A program that needs the library which is open. -/
def pluginProgram : GraphModule where
  key := "program"
  handle := ⟨⟨3⟩, "/bin/program", [(0x10000, 0x14000)], [],
    some ⟨none, "program", ["libplugin.so"], 0x10000, some [⟨1, 0, 0x3f00⟩], none,
      some ⟨"/bin/program", ⟨0xc00, Nat.succ_ne_zero _⟩⟩⟩⟩
  flags := OpenFlags.empty
  dependencies := [⟨1⟩]

/-- The caller of `link_mapped_root` opens a library and refuses to start the program. -/
def refusingUser : User PluginContext
  | .beforeInit _ => do
      openLibrary quietUser false "/lib/libbroken.so" .rtldNow brokenRoot none
      pure (.error (.loaderError "refused"))
  | _ => pure (.ok ())

def openProgram : Program PluginContext (Except Error OpenedLibrary) :=
  openWith refusingUser (startupHook refusingUser none) false "/bin/program" .rtldNow
    (.mapped "program" pluginProgram) none

/-- A start that fails in the hook. The image of the program was listed before and is gone;
the library that the program needs stays in the global scope, where `startup_state` put it;
and the library that the caller opened stays loaded. -/
theorem failed_open_drops_root :
    ∃ (before after : Process PluginContext) (error : Error),
      RegistryReached before ∧ WellLinked before.debug ∧
      openProgram before = .ok (.error error, after) ∧
      before.debug.listed =
        pluginLibrary.handle.linkMap.toList ++ pluginProgram.handle.linkMap.toList ∧
      (∀ linkMap ∈ after.debug.listed, pluginProgram.handle.linkMap ≠ some linkMap) ∧
      before.view.globalScope = [] ∧ after.view.globalScope = [pluginLibrary.handle] ∧
      before.view.modules.map (·.handle) = [pluginLibrary.handle] ∧
      after.view.modules.map (·.handle) = [pluginLibrary.handle, brokenLibrary.handle] := by
  have evaluated : (pluginManager.bind fun manager => (Process.withImages manager
      (ReferenceContext.imageOf pluginLibrary.handle ++
        ReferenceContext.imageOf pluginProgram.handle)).bind fun before =>
      (openProgram before).toOption.bind fun outcome => (failureOf outcome.1).map fun _ => decide (
        before.debug.listed =
          pluginLibrary.handle.linkMap.toList ++ pluginProgram.handle.linkMap.toList ∧
        (∀ linkMap ∈ outcome.2.2.debug.listed, pluginProgram.handle.linkMap ≠ some linkMap) ∧
        before.view.globalScope = [] ∧ (Process.view outcome.2).globalScope = [pluginLibrary.handle] ∧
        before.view.modules.map (·.handle) = [pluginLibrary.handle] ∧
        (Process.view outcome.2).modules.map (·.handle) =
          [pluginLibrary.handle, brokenLibrary.handle])) = some true := by
    decide +kernel
  obtain ⟨manager, open_, evaluated⟩ := Option.bind_eq_some_iff.mp evaluated
  obtain ⟨before, built, evaluated⟩ := Option.bind_eq_some_iff.mp evaluated
  obtain ⟨⟨result, after⟩, failed, evaluated⟩ := Option.bind_eq_some_iff.mp evaluated
  obtain ⟨error, refused, facts⟩ := Option.map_eq_some_iff.mp evaluated
  rw [toOption_eq_some_iff] at failed
  cases failureOf_eq_some refused
  exact ⟨before, after, error, pluginManager_reached open_ built, Process.withImages_linked built,
    failed, of_decide_eq_true facts⟩

end DynLinker.Registry
