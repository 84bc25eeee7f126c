import DynLinker.Registry.PhdrWalkProperties

/-! How a walk ends: each lease goes back once, and what it alone kept is unloaded with
it. -/

set_option autoImplicit false

namespace DynLinker.Registry

open Lib Loader ElfLoader

variable {Ctx : Type} [ElfLoader Ctx] {Failure : Type}

/-- The callbacks so far are those of the committed modules with program headers when the
walk began, in load order and each once; their modules are still committed. -/
structure Walk.Exact (view : ContextView) (walk : Walk Failure) : Prop where
  once : (walk.entry.order.map Prod.fst).Nodup
  reported : walk.reported <+: walk.reportable
  settled : walk.Settled
  alive : walk.isLeaving = false → ∀ info ∈ walk.visited, info.library.Live view

namespace WalkWorld

/-- The leases that the innermost walk still holds. -/
def held (state : WalkWorld Ctx Failure) : List ModuleLease :=
  (state.world.iterations.head?.getD []).map (·.lease)

/-- The next lease goes back without a panic. What it alone kept is unloaded, and nothing
else. -/
def GivesBack (state : WalkWorld Ctx Failure) : Prop :=
  ∃ next lease, state.act .drop = some (.ok next) ∧ next.walks = state.walks ∧
    state.held = .new lease :: next.held ∧ lease ∈ state.view.outstanding ∧
    next.view.released = lease :: state.view.released ∧
    ∀ id, next.view.Committed id ↔
      state.view.Committed id ∧ (state.view.retire lease).Needed id

/-- The walk returns, and none of its leases is out any more. -/
def Returns (state : WalkWorld Ctx Failure) (walk : Walk Failure) (outer : List (Walk Failure)) :
    Prop :=
  state.held = [] ∧ ∃ next, state.act .leave = some (.ok next) ∧ next.walks = outer ∧
    next.view = state.view ∧ ∀ snapshot ∈ walk.libraries, ∃ lease, snapshot.lease = .new lease ∧
      lease ∈ state.view.released ∧ lease ∉ state.view.outstanding

end WalkWorld

/-- Neither user code nor a drop. -/
def WalkAction.isQuiet : WalkAction Ctx Failure → Bool
  | .run _ => false
  | .enter => true
  | .visit _ => true
  | .answer _ => true
  | .drop => false
  | .leave => true

variable [LawfulElfLoader Ctx] [CollectingElfLoader Ctx]

theorem Manager.release_modules {manager next : Manager Ctx} {lease : NativeModuleLease}
    {unloaded : List ModuleId} (unique : (manager.view.order.map Prod.fst).Nodup)
    (releasing : manager.release lease = .ok (unloaded, next)) (record : ModuleRecord) :
    record ∈ next.view.modules ↔
      record ∈ manager.view.modules ∧ (manager.view.retire lease).Needed record.id := by
  have exactly : ∀ id, id ∈ unloaded ↔
      manager.view.Committed id ∧ ¬ (manager.view.retire lease).Needed id := by
    obtain ⟨⟨gone, ctx⟩, released, accepted⟩ := bind_eq_ok.mp releasing
    cases accepted
    exact CollectingElfLoader.release_exact _ _ _ _ (expectOk_eq_ok.mp released) unique
  rw [(Manager.release_spec releasing).1.result]
  change record ∈ manager.view.modules.filter _ ↔ _
  rw [List.mem_filter]
  refine and_congr_right fun listed => ?_
  rw [decide_eq_true_iff, exactly, not_and, not_not]
  exact ⟨fun needed => needed ⟨record, listed, rfl⟩, fun needed _ => needed⟩

namespace Walking

variable {state next : WalkWorld Ctx Failure}

/-- One drop of the innermost walk. -/
theorem drop_spec (walking : Walking state) (reached : World.system.Reachable state.world)
    (dropped : state.act .drop = some (.ok next)) :
    ∃ lease, state.held = .new lease :: next.held ∧ next.walks = state.walks ∧
      lease ∈ state.view.outstanding ∧
      next.view.outstanding = state.view.outstanding.erase lease ∧
      next.view.pinned = state.view.pinned ∧
      next.view.released = lease :: state.view.released ∧
      ∀ record, record ∈ next.view.modules ↔
        record ∈ state.view.modules ∧ (state.view.retire lease).Needed record.id := by
  obtain ⟨walk, outer, snapshot, rest, others, walks, leaving, iterations, moved, same⟩ :=
    WalkWorld.drop_cases dropped
  obtain ⟨manager, dropping, result⟩ := WalkWorld.dropSnapshot_cons iterations moved
  obtain ⟨lease, leased, outstanding, _⟩ :=
    walking.live _ (iterations ▸ List.mem_cons_self) snapshot List.mem_cons_self
  rw [leased] at dropping
  obtain ⟨unloaded, releasing⟩ := Manager.dropLease_new_spec dropping
  obtain ⟨gone, _⟩ := Manager.release_spec releasing
  have view : next.view = manager.view := by rw [WalkWorld.view, result]; rfl
  refine ⟨lease, ?_, same, outstanding, ?_, ?_, ?_, ?_⟩
  · rw [WalkWorld.held, WalkWorld.held, result, iterations]
    simp [leased]
  · rw [view]
    exact gone.outstanding
  · rw [view]
    exact gone.pinned
  · rw [view, gone.result]
    rfl
  · rw [view]
    exact Manager.release_modules (unique_reachable reached) releasing

omit [CollectingElfLoader Ctx] in
theorem run (walking : Walking state) (reached : World.system.Reachable state.world)
    {labels : List (WalkAction Ctx Failure)} (run : WalkWorld.system.Run state labels next) :
    World.system.Reachable next.world ∧ Walking next := by
  induction run with
  | refl => exact ⟨reached, walking⟩
  | snoc _ step ih =>
      exact ⟨WalkWorld.reachable_inductive.preserved _ _ _ ih.1 step, ih.2.step ih.1 step⟩

/-- Several drops in a row unload what nothing needs without the leases that went back. -/
theorem drops_spec (walking : Walking state) (reached : World.system.Reachable state.world)
    {drops : List (WalkAction Ctx Failure)} (only : ∀ action ∈ drops, action = .drop)
    (run : WalkWorld.system.Run state drops next) :
    ∃ given : List NativeModuleLease, state.held = given.map .new ++ next.held ∧
      next.view.outstanding = state.view.outstanding.diff given ∧
      next.view.pinned = state.view.pinned ∧
      ∀ record, record ∈ next.view.modules ↔ record ∈ state.view.modules ∧
        (given = [] ∨
          (state.view.withLeases (state.view.outstanding.diff given)).Needed record.id) := by
  induction run with
  | refl => exact ⟨[], rfl, (List.diff_nil _).symm, rfl, fun record => by simp⟩
  | @snoc middle next labels label early step ih =>
      cases only label (List.mem_append_right _ List.mem_cons_self)
      obtain ⟨given, held, outstanding, pinned, modules⟩ :=
        ih fun action member => only action (List.mem_append_left _ member)
      obtain ⟨reachedMiddle, walkingMiddle⟩ := walking.run reached early
      obtain ⟨lease, heldMiddle, _, _, erased, samePins, _, unloaded⟩ :=
        walkingMiddle.drop_spec reachedMiddle step
      have left : state.view.outstanding.diff (given ++ [lease]) =
          middle.view.outstanding.erase lease := by
        rw [List.diff_append, ← outstanding, List.diff_cons, List.diff_nil]
      have fewer : middle.view.outstanding.erase lease ⊆ state.view.outstanding.diff given :=
        outstanding ▸ List.erase_subset
      have needed : ∀ id, (middle.view.retire lease).Needed id ↔
          (state.view.withLeases (middle.view.outstanding.erase lease)).Needed id := by
        refine fun id => (ContextView.needed_retire _ lease id).trans ?_
        refine ContextView.needed_of_kept ?_ ?_ pinned fewer id
        · exact fun record listed => ((modules record).mp listed).1
        · exact fun record listed kept => (modules record).mpr ⟨listed, .inr kept⟩
      refine ⟨given ++ [lease], ?_, ?_, samePins.trans pinned, ?_⟩
      · rw [held, heldMiddle]
        simp
      · rw [erased, left]
      · intro record
        rw [unloaded, needed, modules, left]
        constructor
        · rintro ⟨⟨listed, _⟩, kept⟩
          exact ⟨listed, .inr kept⟩
        · rintro ⟨listed, none | kept⟩
          · simp at none
          · refine ⟨⟨listed, .inr ?_⟩, kept⟩
            obtain ⟨other, leased, rest⟩ := kept
            refine ⟨other, ?_, rest⟩
            rcases List.mem_append.mp leased with out | pin
            · exact List.mem_append_left _ (fewer out)
            · exact List.mem_append_right _ pin

omit [CollectingElfLoader Ctx] in
/-- A snapshot that is still held can be dropped. -/
theorem drop_total (walking : Walking state) {walk : Walk Failure} {outer : List (Walk Failure)}
    {snapshot : LibrarySnapshot} {rest : List LibrarySnapshot}
    {others : List (List LibrarySnapshot)} (walks : state.walks = walk :: outer)
    (leaving : walk.isLeaving = true)
    (iterations : state.world.iterations = (snapshot :: rest) :: others) :
    ∃ next, state.act .drop = some (.ok next) := by
  obtain ⟨lease, leased, outstanding, _⟩ :=
    walking.live _ (iterations ▸ List.mem_cons_self) snapshot List.mem_cons_self
  obtain ⟨unloaded, manager, releasing⟩ := Manager.release_total outstanding
  have dropping : state.world.manager.dropLease snapshot.lease = .ok manager := by
    rw [leased]
    exact bind_eq_ok.mpr ⟨(unloaded, manager), releasing, rfl⟩
  refine ⟨⟨{ state.world with manager := manager, iterations := rest :: others }, state.walks⟩, ?_⟩
  simp only [WalkWorld.act, walks, iterations, leaving, if_true, WalkWorld.withStep, World.act,
    List.getElem?_cons_zero, dropping, List.set_cons_zero]
  rfl

omit [LawfulElfLoader Ctx] [CollectingElfLoader Ctx] in
theorem leave_total {walk : Walk Failure} {outer : List (Walk Failure)}
    {others : List (List LibrarySnapshot)} (walks : state.walks = walk :: outer)
    (leaving : walk.isLeaving = true) (iterations : state.world.iterations = [] :: others) :
    state.act .leave = some (.ok ⟨{ state.world with iterations := others }, outer⟩) := by
  simp only [WalkWorld.act, walks, iterations, leaving, if_true, WalkWorld.withStep, World.act,
    List.getElem?_cons_zero, List.eraseIdx_cons_zero]
  rfl

omit [LawfulElfLoader Ctx] [CollectingElfLoader Ctx] in
theorem exact_ (walking : Walking state) {walk : Walk Failure} (member : walk ∈ state.walks) :
    walk.Exact state.view where
  once := (walking.valid walk member).once
  reported := (walking.valid walk member).reported_visited
  settled := (walking.valid walk member).settled
  alive := by
    intro stays info visited
    obtain ⟨passed, later, split, taken, _⟩ := (walking.valid walk member).passed
    have listed : info.library ∈ walk.libraries := by
      have seen : info.library ∈ walk.visited.map (·.library) := List.mem_map_of_mem visited
      rw [taken] at seen
      exact split ▸ List.mem_append_left _ (List.mem_filter.mp seen).1
    obtain ⟨left, iterating, dropped, whole, none, _⟩ :
        ∃ left ∈ state.world.iterations, walk.Holds state.view left := by
      obtain ⟨index, bounded, found⟩ := List.getElem_of_mem member
      have same := walking.aligned.length_eq
      refine ⟨state.world.iterations[index], List.getElem_mem _, ?_⟩
      have held := walking.aligned.get bounded (same ▸ bounded)
      rw [List.get_eq_getElem, List.get_eq_getElem, found] at held
      exact held
    rw [none stays, List.nil_append] at whole
    exact walking.live left iterating info.library (whole ▸ listed)

/-- A walk that is on its way out gives the next lease back, or returns. -/
theorem leaving_steps (walking : Walking state) (reached : World.system.Reachable state.world)
    {walk : Walk Failure} {outer : List (Walk Failure)} (walks : state.walks = walk :: outer)
    (leaving : walk.isLeaving = true) : state.GivesBack ∨ state.Returns walk outer := by
  have aligned := walking.aligned
  rw [walks] at aligned
  cases iterations : state.world.iterations with
  | nil =>
      rw [iterations] at aligned
      cases aligned
  | cons left others =>
      rw [iterations] at aligned
      obtain ⟨dropped, split, _, given⟩ := (List.forall₂_cons.mp aligned).1
      cases left with
      | cons snapshot rest =>
          obtain ⟨next, step⟩ := walking.drop_total walks leaving iterations
          obtain ⟨lease, held, same, outstanding, _, _, released, modules⟩ :=
            walking.drop_spec reached step
          refine .inl ⟨next, lease, step, same, held, outstanding, released, fun id => ?_⟩
          constructor
          · rintro ⟨record, listed, rfl⟩
            obtain ⟨before, needed⟩ := (modules record).mp listed
            exact ⟨⟨record, before, rfl⟩, needed⟩
          · rintro ⟨⟨record, listed, rfl⟩, needed⟩
            exact ⟨record, (modules record).mpr ⟨listed, needed⟩, rfl⟩
      | nil =>
          have conserved : Conserved state.world := conserved_inductive.reachable reached
          refine .inr ⟨by rw [WalkWorld.held, iterations]; rfl, _,
            leave_total walks leaving iterations, rfl, rfl, fun snapshot listed => ?_⟩
          rw [List.append_nil] at split
          obtain ⟨lease, leased, released⟩ := given snapshot (split ▸ listed)
          refine ⟨lease, leased, released, fun outstanding => ?_⟩
          have apart := conserved.accounted.balance.nodup_iff.mp conserved.accounted.nodup
          exact (List.nodup_append.mp apart).2.2 lease outstanding lease
            (List.mem_append_right _ released) rfl

omit [CollectingElfLoader Ctx] in
theorem quiet_modules {action : WalkAction Ctx Failure} (quiet : action.isQuiet = true)
    (acted : state.act action = some (.ok next)) : next.view.modules = state.view.modules := by
  cases action with
  | run label => cases quiet
  | drop => cases quiet
  | enter =>
      have moved := (WalkWorld.enter_cases acted).1
      have result : _ = next.world := Except.ok.inj (Option.some.inj moved)
      rw [WalkWorld.view, ← result]
      obtain ⟨_, _, _, modules, _⟩ := Manager.snapshotModules_spec
        (show state.world.manager.snapshotModules _ = state.world.manager.librarySnapshot from rfl)
      exact modules
  | visit tlsDataPtr =>
      obtain ⟨_, _, _, _, _, rfl⟩ := WalkWorld.visit_cases acted
      rfl
  | answer result =>
      obtain ⟨_, _, _, _, _, rfl⟩ := WalkWorld.answer_cases acted
      rfl
  | leave =>
      obtain ⟨_, _, _, _, _, iterations, moved, _⟩ := WalkWorld.leave_cases acted
      have result := WalkWorld.dropSnapshot_nil iterations moved
      rw [WalkWorld.view, result]
      rfl

end Walking

omit [ElfLoader Ctx] [LawfulElfLoader Ctx] [CollectingElfLoader Ctx] in
/-- The loop goes on unless a module came without its extra data. -/
theorem Walk.visit_total {walk : Walk Failure} {rest : List LibrarySnapshot}
    (stage : walk.stage = .visiting rest)
    (supplied : ∀ snapshot ∈ rest, snapshot.inner.linkMap ≠ none) (tlsDataPtr : Nat → Nat) :
    ∃ next, walk.visit tlsDataPtr = some (.ok next) := by
  rw [visit, stage]
  cases rest with
  | nil => exact ⟨_, rfl⟩
  | cons snapshot rest =>
      obtain ⟨found, reporting⟩ := phdrInfo_total (supplied snapshot List.mem_cons_self)
        tlsDataPtr walk.adds walk.subs
      cases found with
      | none => exact ⟨_, congrArg some (bind_eq_ok.mpr ⟨none, reporting, rfl⟩)⟩
      | some info => exact ⟨_, congrArg some (bind_eq_ok.mpr ⟨some info, reporting, rfl⟩)⟩

omit [LawfulElfLoader Ctx] [CollectingElfLoader Ctx] in
theorem WalkWorld.visit_total {state : WalkWorld Ctx Failure} {walk : Walk Failure}
    {outer : List (Walk Failure)} {rest : List LibrarySnapshot}
    (walks : state.walks = walk :: outer) (stage : walk.stage = .visiting rest)
    (supplied : ∀ snapshot ∈ rest, snapshot.inner.linkMap ≠ none) (tlsDataPtr : Nat → Nat) :
    ∃ next, state.act (.visit tlsDataPtr) = some (.ok next) := by
  obtain ⟨after, visiting⟩ := Walk.visit_total stage supplied tlsDataPtr
  refine ⟨{ state with walks := after :: outer }, ?_⟩
  rw [act, walks]
  simp only [visiting]
  rfl

/-- In every reachable state, whatever callbacks and finalizers have done: each walk has
reported the modules with program headers that were committed when it began, in load
order and each once, up to the first callback that failed, and what it returns is that
failure; until it returns from its last callback the reported modules stay committed; and
on its way out it gives every lease back, which unloads exactly what nothing else needs. -/
theorem phdr_walks_exact (state : WalkWorld Ctx Failure)
    (reached : WalkWorld.system.Reachable state) :
    (∀ walk ∈ state.walks, walk.Exact state.view) ∧
    (∀ walk outer, state.walks = walk :: outer → walk.isLeaving = true →
      state.GivesBack ∨ state.Returns walk outer) ∧
    (∀ walk outer rest, state.walks = walk :: outer → walk.stage = .visiting rest →
      (∀ snapshot ∈ rest, snapshot.inner.linkMap ≠ none) →
      ∀ tlsDataPtr, ∃ next, state.act (.visit tlsDataPtr) = some (.ok next)) ∧
    (∀ action next, action.isQuiet = true → state.act action = some (.ok next) →
      next.view.modules = state.view.modules) ∧
    ∀ drops finish, (∀ action ∈ drops, action = .drop) →
      WalkWorld.system.Run state drops finish → finish.held = [] →
      ∃ given : List NativeModuleLease, state.held = given.map .new ∧
        ∀ id, finish.view.Committed id ↔ state.view.Committed id ∧
          (given = [] ∨
            (state.view.withLeases (state.view.outstanding.diff given)).Needed id) := by
  have walking : Walking state := .reachable reached
  have world : World.system.Reachable state.world :=
    WalkWorld.reachable_inductive.reachable reached
  refine ⟨fun walk member => walking.exact_ member,
    fun walk outer walks leaving => walking.leaving_steps world walks leaving,
    fun walk outer rest walks stage supplied => WalkWorld.visit_total walks stage supplied,
    fun action next quiet acted => Walking.quiet_modules quiet acted, ?_⟩
  intro drops finish only run empty
  obtain ⟨given, held, _, _, modules⟩ := walking.drops_spec world only run
  rw [empty, List.append_nil] at held
  refine ⟨given, held, fun id => ?_⟩
  constructor
  · rintro ⟨record, listed, rfl⟩
    obtain ⟨before, needed⟩ := (modules record).mp listed
    exact ⟨⟨record, before, rfl⟩, needed⟩
  · rintro ⟨⟨record, listed, rfl⟩, needed⟩
    exact ⟨record, (modules record).mpr ⟨listed, needed⟩, rfl⟩

/-- The plugin is opened; a callback closes the only handle to it and lets the walk go on. -/
def closeInCallback : List (WalkAction PluginContext Unit) := [
  .run (openFile "/lib/libplugin.so" .rtldNow), .run (.publish 0), .run (.initialised 0),
  .run (.registerHandle 0),
  .enter, .visit fun _ => 0, .run (.dlclose 0x800), .answer (.ok ()), .visit fun _ => 0]

def WalkWorld.actOk (state : WalkWorld PluginContext Unit)
    (action : WalkAction PluginContext Unit) : Option (WalkWorld PluginContext Unit) :=
  (state.act action).bind Except.toOption

theorem WalkWorld.run_of_actOk {labels : List (WalkAction PluginContext Unit)}
    {start finish : WalkWorld PluginContext Unit}
    (ran : TransitionSystem.runLabels actOk start labels = some finish) :
    WalkWorld.system.Run start labels finish :=
  TransitionSystem.Run.refl.runLabels (fun _ _ _ => bind_toOption_eq_some_iff.mp) ran

theorem phdr_walks_exact_closed :
    ∃ state finish : WalkWorld PluginContext Unit,
      WalkWorld.system.Run .initial closeInCallback state ∧
      WalkWorld.system.Run state [.drop] finish ∧
      state.world.closes 0x800 = 1 ∧ state.view.Committed ⟨0⟩ ∧ ¬ finish.view.Committed ⟨0⟩ ∧
      (∀ walk ∈ state.walks, walk.Exact state.view) ∧
      ∃ given : List NativeModuleLease, state.held = given.map .new ∧
        ∀ id, finish.view.Committed id ↔ state.view.Committed id ∧
          (given = [] ∨
            (state.view.withLeases (state.view.outstanding.diff given)).Needed id) := by
  have evaluated : ((TransitionSystem.runLabels WalkWorld.actOk .initial closeInCallback).bind
      fun state => (TransitionSystem.runLabels WalkWorld.actOk state [.drop]).map fun finish =>
        decide (state.world.closes 0x800 = 1 ∧ state.view.Committed ⟨0⟩ ∧
          ¬ finish.view.Committed ⟨0⟩ ∧ finish.held = [])) = some true := by
    decide +kernel
  obtain ⟨state, early, evaluated⟩ := Option.bind_eq_some_iff.mp evaluated
  obtain ⟨finish, late, facts⟩ := Option.map_eq_some_iff.mp evaluated
  obtain ⟨closed, committed, unloaded, empty⟩ := of_decide_eq_true facts
  have run := WalkWorld.run_of_actOk early
  have drops := WalkWorld.run_of_actOk late
  obtain ⟨walks, _, _, _, returning⟩ := phdr_walks_exact state ⟨.initial, _, rfl, run⟩
  exact ⟨state, finish, run, drops, closed, committed, unloaded, walks,
    returning [.drop] finish (fun action member => List.mem_singleton.mp member) drops empty⟩

end DynLinker.Registry
