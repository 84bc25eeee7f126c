import DynLinker.Registry.HandleProperties
import DynLinker.Registry.PhdrWalk

/-! A walk visits the modules that were committed when it began, keeps each of them
committed until its last callback has returned, and gives every lease back. -/

set_option autoImplicit false

namespace DynLinker.Registry

open Lib Loader ElfLoader

variable {Ctx : Type} [ElfLoader Ctx] {Failure : Type}

/-! ## What a snapshot holds -/

namespace LibrarySnapshot

def entry (snapshot : LibrarySnapshot) : Option ModuleId × ModuleHandle :=
  (snapshot.lease.inner.map (·.id), snapshot.inner)

/-- Its lease is out, and its module is committed. -/
def Live (view : ContextView) (snapshot : LibrarySnapshot) : Prop :=
  ∃ lease, snapshot.lease = .new lease ∧ lease ∈ view.outstanding ∧
    view.handleOf lease.id = some snapshot.inner

/-- Its lease has been given back. -/
def Released (view : ContextView) (snapshot : LibrarySnapshot) : Prop :=
  ∃ lease, snapshot.lease = .new lease ∧ lease ∈ view.released

end LibrarySnapshot

/-- The module is an ELF object with program headers. -/
def hasPhdrs (handle : ModuleHandle) : Bool :=
  handle.elf.any fun elf => decide (elf.phdrs.getD [] ≠ [])

theorem phdrInfo_spec {tlsDataPtr : Nat → Nat} {adds subs : Nat} {snapshot : LibrarySnapshot}
    {found : Option DlPhdrInfo} (reported : phdrInfo tlsDataPtr adds subs snapshot = .ok found) :
    (found = none ∧ hasPhdrs snapshot.inner = false) ∨
      ∃ info, found = some info ∧ info.library = snapshot ∧ hasPhdrs snapshot.inner = true := by
  obtain ⟨elf, downcast, reported⟩ := bind_eq_ok.mp reported
  obtain ⟨data, _, reported⟩ := bind_eq_ok.mp reported
  have isElf : snapshot.inner.elf = some elf := expectSome_eq_ok.mp downcast
  simp only at reported
  split at reported
  · next empty =>
      cases reported
      exact .inl ⟨rfl, by simp [hasPhdrs, isElf, empty]⟩
  · next nonempty =>
      cases reported
      exact .inr ⟨_, rfl, rfl, by simp [hasPhdrs, isElf, nonempty]⟩

theorem phdrInfo_total {snapshot : LibrarySnapshot} (mapped : snapshot.inner.linkMap ≠ none)
    (tlsDataPtr : Nat → Nat) (adds subs : Nat) :
    ∃ found, phdrInfo tlsDataPtr adds subs snapshot = .ok found := by
  obtain ⟨address, linked⟩ := Option.ne_none_iff_exists'.mp mapped
  obtain ⟨elf, isElf, linked⟩ := Option.bind_eq_some_iff.mp linked
  obtain ⟨data, supplied, _⟩ := Option.bind_eq_some_iff.mp linked
  simp only [phdrInfo, LibrarySnapshot.module, isElf, supplied, expectSome, bind, Except.bind]
  split
  · exact ⟨_, rfl⟩
  · exact ⟨_, rfl⟩

section Snapshots

variable [LawfulElfLoader Ctx]

omit [ElfLoader Ctx] [LawfulElfLoader Ctx] in
theorem find?_key {Key Value : Type} [DecidableEq Key] {entries : List (Key × Value)}
    (unique : (entries.map Prod.fst).Nodup) {entry : Key × Value} (listed : entry ∈ entries) :
    entries.find? (fun other => other.1 = entry.1) = some entry := by
  induction entries with
  | nil => cases listed
  | cons first rest ih =>
      obtain ⟨fresh, later⟩ := List.nodup_cons.mp unique
      rcases List.mem_cons.mp listed with rfl | member
      · simp
      · have different : first.1 ≠ entry.1 := fun same =>
          fresh (same ▸ List.mem_map_of_mem member)
        rw [List.find?_cons_of_neg (by simpa using different)]
        exact ih later member

omit [ElfLoader Ctx] [LawfulElfLoader Ctx] in
theorem handleOf_of_order {view : ContextView} (unique : (view.order.map Prod.fst).Nodup)
    {entry : ModuleId × ModuleHandle} (listed : entry ∈ view.order) :
    view.handleOf entry.1 = some entry.2 := by
  rw [ContextView.handleOf_eq_order, find?_key unique listed, Option.map_some]

/-- The snapshot lists the ELF objects among the modules, in their order, and leases them. -/
theorem snapshotModules_entries {entries : List (ModuleId × ModuleHandle)} {manager : Manager Ctx}
    (found : ∀ entry ∈ entries, manager.view.handleOf entry.1 = some entry.2) :
    (manager.snapshotModules (entries.map Prod.fst)).1.map LibrarySnapshot.entry =
      (entries.filter fun entry => entry.2.elf.isSome).map (Prod.map some id) := by
  induction entries generalizing manager with
  | nil => rfl
  | cons entry rest ih =>
      have here := found entry List.mem_cons_self
      have later : ∀ other ∈ rest, manager.view.handleOf other.1 = some other.2 :=
        fun other member => found other (List.mem_cons_of_mem _ member)
      rw [List.map_cons, Manager.snapshotModules]
      rcases Manager.snapshotModule_inner here with ⟨taken, elf⟩ | ⟨skipped, plain⟩
      · obtain ⟨⟨snapshot, next⟩, taking, same⟩ := Option.map_eq_some_iff.mp taken
        obtain ⟨_, _, _, _, acquiring⟩ := Manager.snapshotModule_spec taking
        obtain ⟨inner, leased, named, _, _, issued, _⟩ := Manager.acquireModule_spec acquiring
        have handles : next.view.handleOf = manager.view.handleOf := by
          rw [issued]
          rfl
        have kept : entry.2.elf.isSome = true := Option.isSome_iff_ne_none.mpr elf
        have first : snapshot.entry = (some entry.1, entry.2) := by
          change snapshot.inner = entry.2 at same
          rw [LibrarySnapshot.entry, leased, same, ModuleLease.new, Option.map_some, named]
        rw [taking]
        simp only [List.map_cons, List.filter_cons, if_pos kept, first]
        rw [ih (handles ▸ later)]
        rfl
      · rw [skipped, List.filter_cons_of_neg (by simp [plain])]
        exact ih later

/-- A new snapshot holds a lease on every ELF object of the load order. -/
theorem librarySnapshot_entries {manager : Manager Ctx}
    (unique : (manager.view.order.map Prod.fst).Nodup) :
    manager.librarySnapshot.1.map LibrarySnapshot.entry =
      (manager.view.order.filter fun entry => entry.2.elf.isSome).map (Prod.map some id) := by
  have order : loadOrder manager.linkCtx = manager.view.order.map Prod.fst := by
    rw [ContextView.order, List.map_map]
    rfl
  rw [Manager.librarySnapshot, order]
  exact snapshotModules_entries fun entry listed => handleOf_of_order unique listed

theorem librarySnapshot_live {manager : Manager Ctx}
    (unique : (manager.view.order.map Prod.fst).Nodup) {snapshot : LibrarySnapshot}
    (listed : snapshot ∈ manager.librarySnapshot.1) :
    snapshot.Live manager.librarySnapshot.2.view := by
  obtain ⟨leases, mapped, outstanding, modules, _⟩ := Manager.snapshotModules_spec
    (show manager.snapshotModules _ = manager.librarySnapshot from rfl)
  have leased : snapshot.lease ∈ leases.map ModuleLease.new := mapped ▸ List.mem_map_of_mem listed
  obtain ⟨lease, taken, same⟩ := List.mem_map.mp leased
  refine ⟨lease, same.symm, outstanding.mem_iff.mpr (List.mem_append_left _ taken), ?_⟩
  have entered : snapshot.entry ∈ manager.librarySnapshot.1.map LibrarySnapshot.entry :=
    List.mem_map_of_mem listed
  rw [librarySnapshot_entries unique] at entered
  obtain ⟨entry, kept, equal⟩ := List.mem_map.mp entered
  have found := handleOf_of_order unique (List.mem_filter.mp kept).1
  have named : some entry.1 = some lease.id := by
    rw [LibrarySnapshot.entry, ← same] at equal
    exact congrArg Prod.fst equal
  have handle : entry.2 = snapshot.inner := congrArg Prod.snd equal
  have records : manager.librarySnapshot.2.view.modules = manager.view.modules := modules
  rw [ContextView.handleOf, ContextView.find, records]
  rw [Option.some.inj named, handle] at found
  exact found

end Snapshots

/-! ## Steps of the world -/

theorem World.act_iterations {before after : World Ctx} {action : Action Ctx}
    (other : action.ofWalk = false) (acted : before.act action = some (.ok after)) :
    after.iterations = before.iterations := by
  cases transition_of_act acted with
  | iteratePhdr taken => cases other
  | iterationEnded present => cases other
  | dropSnapshot present dropping => cases other
  | @openWith _ _ _ _ _ outcome _ opening =>
      cases outcome with
      | prepared flags pending => rfl
      | finished result =>
          cases result with
          | ok opened => rfl
          | error failure => rfl
  | _ => rfl

theorem lease_mem_of_iteration {world : World Ctx} {left : List LibrarySnapshot}
    {snapshot : LibrarySnapshot} (iterating : left ∈ world.iterations) (listed : snapshot ∈ left) :
    snapshot.lease ∈ world.leases := by
  simp only [World.leases, World.snapshotLeases, Multiset.mem_add, mem_holdings,
    Multiset.mem_singleton]
  exact .inl (.inl (.inr ⟨left, iterating, snapshot, listed, rfl⟩))

theorem StepEffect.released {before after : World Ctx} (effect : StepEffect before after) :
    before.view.released ⊆ after.view.released := by
  cases effect.leases with
  | gains leases grown outstanding held =>
      rw [grown.released]
      exact List.Subset.refl _
  | gives lease middle unloaded grown same gone held =>
      rw [gone.result, ← grown.released]
      exact List.subset_cons_self _ _

/-- As long as the lease is held, its module stays committed. -/
theorem LibrarySnapshot.Live.kept {before after : World Ctx} {snapshot : LibrarySnapshot}
    (live : snapshot.Live before.view) (effect : StepEffect before after)
    (conserved : Conserved after) (held : snapshot.lease ∈ after.leases) :
    snapshot.Live after.view := by
  obtain ⟨lease, leased, _, found⟩ := live
  obtain ⟨inner, same, outstanding⟩ := conserved.lease_live held
  rw [leased] at same
  cases same
  refine ⟨lease, leased, outstanding, ?_⟩
  cases effect.leases with
  | gains leases grown _ _ => exact grown.handleOf found
  | gives lost middle unloaded grown same gone _ =>
      exact gone.handleOf (grown.handleOf found) (.inl ⟨lease, outstanding, rfl⟩)

/-! ## One walk -/

namespace Walk

/-- Every report made so far, the one of the running callback included. -/
def visited (walk : Walk Failure) : List DlPhdrInfo :=
  match walk.stage with
  | .visiting _ => walk.calls.map Prod.fst
  | .calling info _ => walk.calls.map Prod.fst ++ [info]
  | .leaving _ => walk.calls.map Prod.fst

/-- The committed modules with program headers when the walk began, in load order. -/
def reportable (walk : Walk Failure) : List (Option ModuleId × ModuleHandle) :=
  (walk.entry.order.filter fun entry => hasPhdrs entry.2).map (Prod.map some id)

def reported (walk : Walk Failure) : List (Option ModuleId × ModuleHandle) :=
  walk.visited.map fun info => info.library.entry

/-- What the walk returns follows from what its callbacks returned. -/
def Settled (walk : Walk Failure) : Prop :=
  match walk.stage with
  | .visiting _ => ∀ call ∈ walk.calls, call.2 = .ok ()
  | .calling _ _ => ∀ call ∈ walk.calls, call.2 = .ok ()
  | .leaving (.ok _) => walk.reported = walk.reportable ∧ ∀ call ∈ walk.calls, call.2 = .ok ()
  | .leaving (.error failure) => ∃ early info, walk.calls = early ++ [(info, .error failure)] ∧
      ∀ call ∈ early, call.2 = .ok ()

/-- What is left of the loop. -/
def remaining (walk : Walk Failure) : List LibrarySnapshot :=
  match walk.stage with
  | .visiting rest => rest
  | .calling _ rest => rest
  | .leaving _ => []

/-- `passed` are the elements that the loop has taken. -/
structure Valid (walk : Walk Failure) : Prop where
  once : (walk.entry.order.map Prod.fst).Nodup
  listed : walk.libraries.map LibrarySnapshot.entry =
    (walk.entry.order.filter fun entry => entry.2.elf.isSome).map (Prod.map some id)
  passed : ∃ passed later, walk.libraries = passed ++ later ∧
    walk.visited.map (·.library) = passed.filter (fun snapshot => hasPhdrs snapshot.inner) ∧
    (walk.isLeaving = false → later = walk.remaining)
  settled : walk.Settled

theorem hasPhdrs_elf (handle : ModuleHandle) :
    (handle.elf.isSome && hasPhdrs handle) = hasPhdrs handle := by
  cases downcast : handle.elf with
  | none => simp [hasPhdrs, downcast]
  | some elf => simp

theorem Valid.libraries_reportable {walk : Walk Failure} (valid : walk.Valid) :
    (walk.libraries.filter fun snapshot => hasPhdrs snapshot.inner).map LibrarySnapshot.entry =
      walk.reportable := by
  have byEntry : (fun snapshot : LibrarySnapshot => hasPhdrs snapshot.inner) =
      (fun entry : Option ModuleId × ModuleHandle => hasPhdrs entry.2) ∘ LibrarySnapshot.entry :=
    rfl
  rw [byEntry, ← List.filter_map, valid.listed, List.filter_map, List.filter_filter, reportable]
  congr 2
  funext entry
  exact (Bool.and_comm _ _).trans (hasPhdrs_elf entry.2)

theorem Valid.reported_visited {walk : Walk Failure} (valid : walk.Valid) :
    walk.reported <+: walk.reportable := by
  obtain ⟨passed, later, split, visited, _⟩ := valid.passed
  rw [← valid.libraries_reportable, split, List.filter_append, List.map_append, ← visited,
    List.map_map]
  exact List.prefix_append _ _

theorem begin_valid [LawfulElfLoader Ctx] {manager : Manager Ctx}
    (unique : (manager.view.order.map Prod.fst).Nodup) :
    (begin_ manager : Walk Failure).Valid where
  once := unique
  listed := librarySnapshot_entries unique
  passed := ⟨[], manager.librarySnapshot.1, rfl, rfl, fun _ => rfl⟩
  settled := by
    intro call member
    cases member

theorem visit_cases {walk next : Walk Failure} {tlsDataPtr : Nat → Nat}
    (visited : walk.visit tlsDataPtr = some (.ok next)) :
    (walk.stage = .visiting [] ∧ next = { walk with stage := .leaving (.ok ()) }) ∨
    ∃ snapshot rest, walk.stage = .visiting (snapshot :: rest) ∧
      ((hasPhdrs snapshot.inner = false ∧ next = { walk with stage := .visiting rest }) ∨
        ∃ info, info.library = snapshot ∧ hasPhdrs snapshot.inner = true ∧
          next = { walk with stage := .calling info rest }) := by
  rw [visit] at visited
  split at visited
  · next stage =>
      cases visited
      exact .inl ⟨stage, rfl⟩
  · next snapshot rest stage =>
      refine .inr ⟨snapshot, rest, stage, ?_⟩
      obtain ⟨found, reporting, visited⟩ := bind_eq_ok.mp (Option.some.inj visited)
      rcases phdrInfo_spec reporting with ⟨rfl, without⟩ | ⟨info, rfl, same, withPhdrs⟩
      · cases visited
        exact .inl ⟨without, rfl⟩
      · cases visited
        exact .inr ⟨info, same, withPhdrs, rfl⟩
  · cases visited
  · cases visited

theorem visit_fixed {walk next : Walk Failure} {tlsDataPtr : Nat → Nat}
    (visited : walk.visit tlsDataPtr = some (.ok next)) :
    next.libraries = walk.libraries ∧ walk.isLeaving = false := by
  rcases visit_cases visited with ⟨stage, rfl⟩ | ⟨_, _, stage, ⟨_, rfl⟩ | ⟨_, _, _, rfl⟩⟩
  · exact ⟨rfl, by rw [isLeaving, stage]⟩
  · exact ⟨rfl, by rw [isLeaving, stage]⟩
  · exact ⟨rfl, by rw [isLeaving, stage]⟩

theorem visit_valid {walk next : Walk Failure} {tlsDataPtr : Nat → Nat} (valid : walk.Valid)
    (visiting : walk.visit tlsDataPtr = some (.ok next)) : next.Valid := by
  obtain ⟨once, listed, ⟨passed, later, split, visited, left⟩, settled⟩ := valid
  have whole := Valid.libraries_reportable
    ⟨once, listed, ⟨passed, later, split, visited, left⟩, settled⟩
  have fixed := (visit_fixed visiting).2
  rcases visit_cases visiting with ⟨stage, rfl⟩ | ⟨snapshot, rest, stage, step⟩
  · -- the loop has taken every element
    have rest : later = [] := (left fixed).trans (by rw [remaining, stage])
    subst rest
    rw [Walk.visited, stage] at visited
    rw [Settled, stage] at settled
    rw [List.append_nil] at split
    refine ⟨once, listed, ⟨passed, [], by simpa using split, visited, fun _ => rfl⟩, ?_, settled⟩
    change (walk.calls.map Prod.fst).map (fun info => info.library.entry) = walk.reportable
    rw [← whole, split, ← visited]
    simp
  · have more : later = snapshot :: rest := (left fixed).trans (by rw [remaining, stage])
    subst more
    rw [Walk.visited, stage] at visited
    rw [Settled, stage] at settled
    rcases step with ⟨without, rfl⟩ | ⟨info, same, withPhdrs, rfl⟩
    · refine ⟨once, listed,
        ⟨passed ++ [snapshot], rest, by simp [split], ?_, fun _ => rfl⟩, settled⟩
      change (walk.calls.map Prod.fst).map (·.library) = _
      simp [visited, without]
    · refine ⟨once, listed,
        ⟨passed ++ [snapshot], rest, by simp [split], ?_, fun _ => rfl⟩, settled⟩
      change (walk.calls.map Prod.fst ++ [info]).map (·.library) = _
      rw [List.map_append, visited, List.filter_append]
      simp [same, withPhdrs]

theorem answer_cases {walk next : Walk Failure} {result : Except Failure Unit}
    (answered : walk.answer result = some next) :
    ∃ info rest, walk.stage = .calling info rest ∧
      ((result = .ok () ∧ next = { walk with
          calls := walk.calls ++ [(info, .ok ())], stage := .visiting rest }) ∨
        ∃ failure, result = .error failure ∧ next = { walk with
          calls := walk.calls ++ [(info, .error failure)]
          stage := .leaving (.error failure) }) := by
  rw [answer] at answered
  split at answered
  · next info rest stage =>
      refine ⟨info, rest, stage, ?_⟩
      cases result with
      | ok _ =>
          cases answered
          exact .inl ⟨rfl, rfl⟩
      | error failure =>
          cases answered
          exact .inr ⟨failure, rfl, rfl⟩
  · cases answered
  · cases answered

theorem answer_fixed {walk next : Walk Failure} {result : Except Failure Unit}
    (answered : walk.answer result = some next) :
    next.libraries = walk.libraries ∧ walk.isLeaving = false := by
  obtain ⟨info, rest, stage, ⟨_, rfl⟩ | ⟨_, _, rfl⟩⟩ := answer_cases answered
  · exact ⟨rfl, by rw [isLeaving, stage]⟩
  · exact ⟨rfl, by rw [isLeaving, stage]⟩

theorem answer_valid {walk next : Walk Failure} {result : Except Failure Unit} (valid : walk.Valid)
    (answered : walk.answer result = some next) : next.Valid := by
  obtain ⟨once, listed, ⟨passed, later, split, visited, left⟩, settled⟩ := valid
  have fixed := (answer_fixed answered).2
  obtain ⟨info, rest, stage, step⟩ := answer_cases answered
  have more : later = rest := (left fixed).trans (by rw [remaining, stage])
  subst more
  rw [Walk.visited, stage] at visited
  rw [Settled, stage] at settled
  rcases step with ⟨_, rfl⟩ | ⟨failure, _, rfl⟩
  · refine ⟨once, listed, ⟨passed, later, split, ?_, fun _ => rfl⟩, ?_⟩
    · change ((walk.calls ++ [(info, Except.ok ())]).map Prod.fst).map DlPhdrInfo.library = _
      rw [List.map_append]
      exact visited
    · intro call member
      rcases List.mem_append.mp member with earlier | last
      · exact settled call earlier
      · cases List.mem_singleton.mp last
        rfl
  · refine ⟨once, listed, ⟨passed, later, split, ?_, fun stays => by cases stays⟩, ?_⟩
    · change ((walk.calls ++ [(info, Except.error failure)]).map Prod.fst).map
        DlPhdrInfo.library = _
      rw [List.map_append]
      exact visited
    · exact ⟨walk.calls, info, rfl, settled⟩

/-- The leases that the walk still holds are the last ones of its snapshot. -/
def Holds (view : ContextView) (walk : Walk Failure) (left : List LibrarySnapshot) : Prop :=
  ∃ dropped, walk.libraries = dropped ++ left ∧ (walk.isLeaving = false → dropped = []) ∧
    ∀ snapshot ∈ dropped, snapshot.Released view

end Walk

/-! ## All walks -/

structure Walking {Ctx : Type} [ElfLoader Ctx] (state : WalkWorld Ctx Failure) : Prop where
  valid : ∀ walk ∈ state.walks, walk.Valid
  live : ∀ left ∈ state.world.iterations, ∀ snapshot ∈ left, snapshot.Live state.view
  aligned : List.Forall₂ (Walk.Holds state.view) state.walks state.world.iterations

namespace WalkWorld

theorem withStep_eq {walks : List (Walk Failure)} {stepped : Option (Except Panic (World Ctx))}
    {next : WalkWorld Ctx Failure} (ran : withStep walks stepped = some (.ok next)) :
    stepped = some (.ok next.world) ∧ next.walks = walks := by
  obtain ⟨result, rfl, mapped⟩ := Option.map_eq_some_iff.mp ran
  cases result with
  | error panic => cases mapped
  | ok world =>
      cases mapped
      exact ⟨rfl, rfl⟩

theorem enter_cases {state next : WalkWorld Ctx Failure}
    (entered : state.act .enter = some (.ok next)) :
    state.world.act .iteratePhdr = some (.ok next.world) ∧
      next.walks = .begin_ state.world.manager :: state.walks :=
  withStep_eq entered

theorem run_cases {state next : WalkWorld Ctx Failure} {action : Action Ctx}
    (ran : state.act (.run action) = some (.ok next)) :
    action.ofWalk = false ∧ state.world.act action = some (.ok next.world) ∧
      next.walks = state.walks := by
  rw [act] at ran
  split at ran
  · cases ran
  · next other => exact ⟨by simpa using other, withStep_eq ran⟩

theorem visit_cases {state next : WalkWorld Ctx Failure} {tlsDataPtr : Nat → Nat}
    (visited : state.act (.visit tlsDataPtr) = some (.ok next)) :
    ∃ walk after outer, state.walks = walk :: outer ∧ walk.visit tlsDataPtr = some (.ok after) ∧
      next = { state with walks := after :: outer } := by
  rw [act] at visited
  split at visited
  · cases visited
  · next walk outer walks =>
      obtain ⟨result, visiting, mapped⟩ := Option.map_eq_some_iff.mp visited
      cases result with
      | error panic => cases mapped
      | ok after =>
          cases mapped
          exact ⟨walk, after, outer, walks, visiting, rfl⟩

theorem answer_cases {state next : WalkWorld Ctx Failure} {result : Except Failure Unit}
    (answered : state.act (.answer result) = some (.ok next)) :
    ∃ walk after outer, state.walks = walk :: outer ∧ walk.answer result = some after ∧
      next = { state with walks := after :: outer } := by
  rw [act] at answered
  split at answered
  · cases answered
  · next walk outer walks =>
      obtain ⟨after, answering, mapped⟩ := Option.map_eq_some_iff.mp answered
      cases mapped
      exact ⟨walk, after, outer, walks, answering, rfl⟩

theorem drop_cases {state next : WalkWorld Ctx Failure}
    (dropped : state.act .drop = some (.ok next)) :
    ∃ walk outer snapshot rest others, state.walks = walk :: outer ∧ walk.isLeaving = true ∧
      state.world.iterations = (snapshot :: rest) :: others ∧
      state.world.act (.dropSnapshot 0) = some (.ok next.world) ∧ next.walks = state.walks := by
  rw [act] at dropped
  split at dropped
  · next walk outer snapshot rest others walks iterations =>
      split at dropped
      · next leaving =>
          rw [← walks] at dropped
          exact ⟨walk, outer, snapshot, rest, others, walks, leaving, iterations,
            withStep_eq dropped⟩
      · cases dropped
  · cases dropped

theorem leave_cases {state next : WalkWorld Ctx Failure}
    (left : state.act .leave = some (.ok next)) :
    ∃ walk outer others, state.walks = walk :: outer ∧ walk.isLeaving = true ∧
      state.world.iterations = [] :: others ∧
      state.world.act (.dropSnapshot 0) = some (.ok next.world) ∧ next.walks = outer := by
  rw [act] at left
  split at left
  · next walk outer others walks iterations =>
      split at left
      · next leaving => exact ⟨walk, outer, others, walks, leaving, iterations, withStep_eq left⟩
      · cases left
  · cases left

/-- A step of the walks is a step of the world, or leaves it alone. -/
theorem act_world {state next : WalkWorld Ctx Failure} {action : WalkAction Ctx Failure}
    (acted : state.act action = some (.ok next)) :
    next.world = state.world ∨ ∃ step, state.world.act step = some (.ok next.world) := by
  cases action with
  | run action => exact .inr ⟨action, (run_cases acted).2.1⟩
  | enter => exact .inr ⟨.iteratePhdr, (enter_cases acted).1⟩
  | visit tlsDataPtr =>
      obtain ⟨_, _, _, _, _, rfl⟩ := visit_cases acted
      exact .inl rfl
  | answer result =>
      obtain ⟨_, _, _, _, _, rfl⟩ := answer_cases acted
      exact .inl rfl
  | drop =>
      obtain ⟨_, _, _, _, _, _, _, _, step, _⟩ := drop_cases acted
      exact .inr ⟨_, step⟩
  | leave =>
      obtain ⟨_, _, _, _, _, _, step, _⟩ := leave_cases acted
      exact .inr ⟨_, step⟩

theorem reachable_inductive :
    (system : TransitionSystem (WalkWorld Ctx Failure) _).Inductive fun state =>
      World.system.Reachable state.world where
  initially state fresh := by
    cases fresh
    exact .start rfl
  preserved before action after reachable step := by
    rcases act_world step with same | ⟨moved, stepped⟩
    · rw [same]
      exact reachable
    · exact reachable.next stepped

theorem dropSnapshot_cons {world after : World Ctx} {snapshot : LibrarySnapshot}
    {rest : List LibrarySnapshot} {others : List (List LibrarySnapshot)}
    (iterations : world.iterations = (snapshot :: rest) :: others)
    (acted : world.act (.dropSnapshot 0) = some (.ok after)) :
    ∃ manager, world.manager.dropLease snapshot.lease = .ok manager ∧
      after = { world with manager := manager, iterations := rest :: others } := by
  simp only [World.act, iterations, List.getElem?_cons_zero, List.set_cons_zero] at acted
  obtain ⟨manager, dropping, returned⟩ := bind_eq_ok.mp (Option.some.inj acted)
  cases returned
  exact ⟨manager, dropping, rfl⟩

theorem dropSnapshot_nil {world after : World Ctx} {others : List (List LibrarySnapshot)}
    (iterations : world.iterations = [] :: others)
    (acted : world.act (.dropSnapshot 0) = some (.ok after)) :
    after = { world with iterations := others } := by
  simp only [World.act, iterations, List.getElem?_cons_zero, List.eraseIdx_cons_zero] at acted
  cases acted
  rfl

end WalkWorld

section Runs

variable [LawfulElfLoader Ctx]

theorem unique_reachable {world : World Ctx} (reached : World.system.Reachable world) :
    (world.view.order.map Prod.fst).Nodup := by
  have inductive_ : (World.system : TransitionSystem (World Ctx) (Action Ctx)).Inductive
      fun world => (world.view.order.map Prod.fst).Nodup := by
    refine ⟨?_, fun before action after unique step => (RecordChange.of_act step).unique unique⟩
    intro world fresh
    obtain rfl : world = .new := fresh
    change ((ElfLoader.view (ElfLoader.new : Ctx)).order.map Prod.fst).Nodup
    rw [LawfulElfLoader.view_new]
    exact List.nodup_nil
  exact inductive_.reachable reached

namespace Walking

variable {state next : WalkWorld Ctx Failure}

omit [LawfulElfLoader Ctx] in
/-- What the walks hold is still held after a step of the world that takes nothing from
their iterations. -/
theorem live_step (walking : Walking state) {after : World Ctx}
    (effect : StepEffect state.world after) (conserved : Conserved after)
    {left kept : List LibrarySnapshot} (iterating : left ∈ state.world.iterations)
    (sublist : kept ⊆ left) (still : kept ∈ after.iterations) :
    ∀ snapshot ∈ kept, snapshot.Live after.view := by
  intro snapshot listed
  exact (walking.live left iterating snapshot (sublist listed)).kept effect conserved
    (lease_mem_of_iteration still listed)

omit [ElfLoader Ctx] [LawfulElfLoader Ctx] in
theorem holds_step {before after : ContextView} (released : before.released ⊆ after.released)
    {walks : List (Walk Failure)} {iterations : List (List LibrarySnapshot)}
    (aligned : List.Forall₂ (Walk.Holds before) walks iterations) :
    List.Forall₂ (Walk.Holds after) walks iterations := by
  refine aligned.imp ?_
  rintro walk left ⟨dropped, split, none, gone⟩
  refine ⟨dropped, split, none, fun snapshot member => ?_⟩
  obtain ⟨lease, leased, given⟩ := gone snapshot member
  exact ⟨lease, leased, released given⟩

omit [LawfulElfLoader Ctx] in
/-- A walk goes on without giving anything back. -/
theorem advance (walking : Walking state) {walk after : Walk Failure} {outer : List (Walk Failure)}
    (walks : state.walks = walk :: outer) (valid : after.Valid)
    (libraries : after.libraries = walk.libraries) (stays : walk.isLeaving = false) :
    Walking { state with walks := after :: outer } := by
  obtain ⟨validAll, live, aligned⟩ := walking
  rw [walks] at validAll aligned
  refine ⟨?_, live, ?_⟩
  · intro other member
    rcases List.mem_cons.mp member with rfl | old
    · exact valid
    · exact validAll other (List.mem_cons_of_mem _ old)
  · cases found : state.world.iterations with
    | nil =>
        rw [found] at aligned
        cases aligned
    | cons left others =>
        rw [found] at aligned
        cases aligned with
        | cons held rest =>
            obtain ⟨dropped, split, none, gone⟩ := held
            exact .cons ⟨dropped, libraries.trans split, fun _ => none stays, gone⟩ rest

omit [LawfulElfLoader Ctx] in
theorem run_step (walking : Walking state) {label : Action Ctx}
    (ran : state.act (.run label) = some (.ok next)) (effect : StepEffect state.world next.world)
    (conserved : Conserved next.world) : Walking next := by
  obtain ⟨other, moved, walks⟩ := WalkWorld.run_cases ran
  have iterations := World.act_iterations other moved
  refine ⟨walks ▸ walking.valid, ?_, ?_⟩
  · intro left iterating
    have before : left ∈ state.world.iterations := iterations ▸ iterating
    exact walking.live_step effect conserved before (List.Subset.refl _) iterating
  · rw [walks, iterations]
    exact holds_step effect.released walking.aligned

theorem enter_step (walking : Walking state)
    (unique : (state.world.view.order.map Prod.fst).Nodup)
    (entered : state.act .enter = some (.ok next)) (effect : StepEffect state.world next.world)
    (conserved : Conserved next.world) : Walking next := by
  obtain ⟨moved, walks⟩ := WalkWorld.enter_cases entered
  have result : { state.world with
      manager := state.world.manager.librarySnapshot.2
      iterations := state.world.manager.librarySnapshot.1 :: state.world.iterations } =
      next.world := Except.ok.inj (Option.some.inj moved)
  have iterations : next.world.iterations =
      state.world.manager.librarySnapshot.1 :: state.world.iterations := by rw [← result]
  refine ⟨?_, ?_, ?_⟩
  · intro walk member
    rw [walks] at member
    rcases List.mem_cons.mp member with rfl | old
    · exact Walk.begin_valid unique
    · exact walking.valid walk old
  · intro left iterating
    have member := iterating
    rw [iterations] at member
    rcases List.mem_cons.mp member with rfl | old
    · intro snapshot listed
      have live := librarySnapshot_live unique listed
      rw [WalkWorld.view, ← result]
      exact live
    · exact walking.live_step effect conserved old (List.Subset.refl _) iterating
  · rw [walks, iterations]
    refine .cons ⟨[], rfl, fun _ => rfl, fun snapshot member => by cases member⟩ ?_
    exact holds_step effect.released walking.aligned

theorem released_of_drop {manager after : Manager Ctx} {snapshot : LibrarySnapshot}
    {lease : NativeModuleLease} (leased : snapshot.lease = .new lease)
    (dropping : manager.dropLease snapshot.lease = .ok after) :
    after.view.released = lease :: manager.view.released := by
  rw [leased] at dropping
  obtain ⟨unloaded, releasing⟩ := Manager.dropLease_new_spec dropping
  rw [(Manager.release_spec releasing).1.result]
  rfl

theorem drop_step (walking : Walking state) (dropped : state.act .drop = some (.ok next))
    (effect : StepEffect state.world next.world) (conserved : Conserved next.world) :
    Walking next := by
  obtain ⟨walk, outer, snapshot, rest, others, walks, leaving, iterations, moved, same⟩ :=
    WalkWorld.drop_cases dropped
  obtain ⟨manager, dropping, result⟩ := WalkWorld.dropSnapshot_cons iterations moved
  obtain ⟨lease, leased, _, _⟩ :=
    walking.live _ (iterations ▸ List.mem_cons_self) snapshot List.mem_cons_self
  have left : next.world.iterations = rest :: others := by rw [result]
  refine ⟨same ▸ walking.valid, ?_, ?_⟩
  · intro kept iterating
    have member := iterating
    rw [left] at member
    rcases List.mem_cons.mp member with rfl | old
    · exact walking.live_step effect conserved (iterations ▸ List.mem_cons_self)
        (List.subset_cons_self _ _) iterating
    · exact walking.live_step effect conserved (iterations ▸ List.mem_cons_of_mem _ old)
        (List.Subset.refl _) iterating
  · have released : lease ∈ next.view.released := by
      rw [WalkWorld.view, result]
      change lease ∈ manager.view.released
      rw [released_of_drop leased dropping]
      exact List.mem_cons_self
    have aligned := walking.aligned
    rw [walks, iterations] at aligned
    obtain ⟨⟨gone, split, _, given⟩, outerHeld⟩ := List.forall₂_cons.mp aligned
    rw [same, walks, left]
    refine .cons ⟨gone ++ [snapshot], by simp [split], ?_, ?_⟩
      (holds_step effect.released outerHeld)
    · intro stays
      rw [leaving] at stays
      cases stays
    · intro other member
      rcases List.mem_append.mp member with old | last
      · obtain ⟨lost, taken, before⟩ := given other old
        exact ⟨lost, taken, effect.released before⟩
      · cases List.mem_singleton.mp last
        exact ⟨lease, leased, released⟩

omit [LawfulElfLoader Ctx] in
theorem leave_step (walking : Walking state) (left : state.act .leave = some (.ok next))
    (effect : StepEffect state.world next.world) (conserved : Conserved next.world) :
    Walking next := by
  obtain ⟨walk, outer, others, walks, leaving, iterations, moved, rest⟩ :=
    WalkWorld.leave_cases left
  have result := WalkWorld.dropSnapshot_nil iterations moved
  have after : next.world.iterations = others := by rw [result]
  refine ⟨?_, ?_, ?_⟩
  · intro other member
    rw [rest] at member
    exact walking.valid other (walks ▸ List.mem_cons_of_mem _ member)
  · intro kept iterating
    have member : kept ∈ others := after ▸ iterating
    exact walking.live_step effect conserved (iterations ▸ List.mem_cons_of_mem _ member)
      (List.Subset.refl _) iterating
  · have aligned := walking.aligned
    rw [walks, iterations] at aligned
    rw [rest, after]
    exact holds_step effect.released (List.forall₂_cons.mp aligned).2

theorem step {action : WalkAction Ctx Failure} (walking : Walking state)
    (reached : World.system.Reachable state.world) (acted : state.act action = some (.ok next)) :
    Walking next := by
  have conserved : Conserved state.world := conserved_inductive.reachable reached
  have stepped : ∀ {label : Action Ctx}, state.world.act label = some (.ok next.world) →
      StepEffect state.world next.world ∧ Conserved next.world := by
    intro label moved
    have effect := act_effect conserved moved
    exact ⟨effect, conserved_effect conserved effect⟩
  cases action with
  | run label =>
      obtain ⟨effect, after⟩ := stepped (WalkWorld.run_cases acted).2.1
      exact walking.run_step acted effect after
  | enter =>
      obtain ⟨effect, after⟩ := stepped (WalkWorld.enter_cases acted).1
      exact walking.enter_step (unique_reachable reached) acted effect after
  | visit tlsDataPtr =>
      obtain ⟨walk, after, outer, walks, visiting, rfl⟩ := WalkWorld.visit_cases acted
      obtain ⟨libraries, stays⟩ := Walk.visit_fixed visiting
      have valid := walking.valid walk (walks ▸ List.mem_cons_self)
      exact walking.advance walks (Walk.visit_valid valid visiting) libraries stays
  | answer result =>
      obtain ⟨walk, after, outer, walks, answering, rfl⟩ := WalkWorld.answer_cases acted
      obtain ⟨libraries, stays⟩ := Walk.answer_fixed answering
      have valid := walking.valid walk (walks ▸ List.mem_cons_self)
      exact walking.advance walks (Walk.answer_valid valid answering) libraries stays
  | drop =>
      obtain ⟨_, _, _, _, _, _, _, _, moved, _⟩ := WalkWorld.drop_cases acted
      obtain ⟨effect, after⟩ := stepped moved
      exact walking.drop_step acted effect after
  | leave =>
      obtain ⟨_, _, _, _, _, _, moved, _⟩ := WalkWorld.leave_cases acted
      obtain ⟨effect, after⟩ := stepped moved
      exact walking.leave_step acted effect after

theorem reachable (reached : WalkWorld.system.Reachable state) : Walking state := by
  have inductive_ : (WalkWorld.system : TransitionSystem (WalkWorld Ctx Failure) _).Inductive
      fun state => World.system.Reachable state.world ∧ Walking state := by
    refine ⟨?_, ?_⟩
    · intro state fresh
      refine ⟨WalkWorld.reachable_inductive.initially state fresh, ?_⟩
      cases fresh
      exact ⟨fun walk member => (by cases member), fun left member => (by cases member), .nil⟩
    · rintro before action after ⟨reachable, walking⟩ step
      exact ⟨WalkWorld.reachable_inductive.preserved before action after reachable step,
        walking.step reachable step⟩
  exact (inductive_.reachable reached).2

end Walking

end Runs

end DynLinker.Registry
