import DynLinker.Api.DlError

/-! The two error stores side by side, under any interleaving of threads that start, use
the store and exit. They agree as long as no thread gets a pointer under which an error is
still pending. -/

set_option autoImplicit false

namespace DynLinker.Api

open Lib

inductive ErrorEvent where
  | start (thread : Thread)
  | exit (thread : Thread)
  | clear (thread : Thread)
  | set (thread : Thread) (text : Bytes)
  | dlerror (thread : Thread)

/-- The live threads, the ids that were ever used, and both stores. -/
structure ErrorWorld where
  live : List Thread
  started : List Nat
  std : StdErrors
  noStd : NoStdErrors

namespace ErrorWorld

def initial : ErrorWorld := ⟨[], [], .initial, .initial⟩

/-- A new thread has a new id and a pointer that no live thread has. A thread that exits
takes its thread-local along, while the map does not hear of it. -/
def act (world : ErrorWorld) : ErrorEvent → Option ErrorWorld
  | .start thread =>
      if thread.id ∉ world.started ∧ ∀ other ∈ world.live, other.pointer ≠ thread.pointer then
        some { world with live := thread :: world.live, started := thread.id :: world.started }
      else none
  | .exit thread =>
      if thread ∈ world.live then some { world with live := world.live.erase thread } else none
  | .clear thread =>
      if thread ∈ world.live then
        some { world with std := world.std.clear thread, noStd := world.noStd.clear thread }
      else none
  | .set thread text =>
      if thread ∈ world.live then
        some { world with std := world.std.set thread text, noStd := world.noStd.set thread text }
      else none
  | .dlerror thread =>
      if thread ∈ world.live then
        some { world with std := (world.std.take thread).2, noStd := (world.noStd.take thread).2 }
      else none

def system : TransitionSystem ErrorWorld ErrorEvent where
  initial world := world = initial
  step world event next := world.act event = some next

end ErrorWorld

/-- No thread starts under a pointer with a pending error. -/
def CleanStart (world : ErrorWorld) : ErrorEvent → Prop
  | .start thread => world.noStd.pending thread.pointer = none
  | .exit _ => True
  | .clear _ => True
  | .set _ _ => True
  | .dlerror _ => True

instance (world : ErrorWorld) (event : ErrorEvent) : Decidable (CleanStart world event) :=
  match event with
  | .start thread =>
      inferInstanceAs (Decidable (world.noStd.pending thread.pointer = none))
  | .exit _ => .isTrue trivial
  | .clear _ => .isTrue trivial
  | .set _ _ => .isTrue trivial
  | .dlerror _ => .isTrue trivial

theorem NoStdErrors.take_fst (errors : NoStdErrors) (thread : Thread) :
    (errors.take thread).1 = errors.pending thread.pointer := by
  rw [take, pending]
  cases found : errors thread.pointer with
  | none => rfl
  | some state =>
      cases error : state.pending with
      | none => simp [DlErrorState.take, error]
      | some error => simp [DlErrorState.take, error]

theorem NoStdErrors.take_pending (errors : NoStdErrors) (thread : Thread) (pointer : Nat) :
    (errors.take thread).2.pending pointer =
      if pointer = thread.pointer then none else errors.pending pointer := by
  rw [take]
  cases found : errors thread.pointer with
  | none =>
      by_cases same : pointer = thread.pointer
      · simp [pending, same, found]
      · simp [same]
  | some state =>
      cases error : state.pending with
      | none =>
          by_cases same : pointer = thread.pointer
          · simp [DlErrorState.take, error, pending, same]
          · simp [DlErrorState.take, error, pending, same]
      | some error =>
          by_cases same : pointer = thread.pointer
          · simp [DlErrorState.take, error, pending, same]
          · simp [DlErrorState.take, error, pending, same]

/-- Both stores hold the same pending error for every live thread. -/
structure StoresAgree (world : ErrorWorld) : Prop where
  ids : ∀ left ∈ world.live, ∀ right ∈ world.live, left.id = right.id → left = right
  pointers : ∀ left ∈ world.live, ∀ right ∈ world.live, left.pointer = right.pointer → left = right
  known : ∀ thread ∈ world.live, thread.id ∈ world.started
  fresh : ∀ id ∉ world.started, world.std id = .new
  pending : ∀ thread ∈ world.live,
    (world.std thread.id).pending = world.noStd.pending thread.pointer

namespace StoresAgree

variable {world : ErrorWorld}

theorem initial : StoresAgree .initial where
  ids left member := by cases member
  pointers left member := by cases member
  known thread member := by cases member
  fresh _ _ := rfl
  pending thread member := by cases member

/-- A live thread changes its own entry, in both stores to the same pending error. -/
theorem update (agree : StoresAgree world) {thread : Thread} (live : thread ∈ world.live)
    {std : StdErrors} {noStd : NoStdErrors} {error : Option CString}
    (mine : (std thread.id).pending = error)
    (others : ∀ id, id ≠ thread.id → std id = world.std id)
    (keyed : ∀ pointer, noStd.pending pointer =
      if pointer = thread.pointer then error else world.noStd.pending pointer) :
    StoresAgree { world with std := std, noStd := noStd } where
  ids := agree.ids
  pointers := agree.pointers
  known := agree.known
  fresh id unused := by
    have different : id ≠ thread.id := by
      intro same
      exact unused (same ▸ agree.known thread live)
    exact (others id different).trans (agree.fresh id unused)
  pending other member := by
    change (std other.id).pending = noStd.pending other.pointer
    rw [keyed]
    by_cases same : other = thread
    · rw [same, if_pos rfl, mine]
    · have differentId : other.id ≠ thread.id := fun equal =>
        same (agree.ids other member thread live equal)
      have differentPointer : other.pointer ≠ thread.pointer := fun equal =>
        same (agree.pointers other member thread live equal)
      rw [others other.id differentId, if_neg differentPointer]
      exact agree.pending other member

theorem start (agree : StoresAgree world) {thread : Thread} (unused : thread.id ∉ world.started)
    (free : ∀ other ∈ world.live, other.pointer ≠ thread.pointer)
    (clean : world.noStd.pending thread.pointer = none) :
    StoresAgree { world with
      live := thread :: world.live, started := thread.id :: world.started } where
  ids left leftLive right rightLive same := by
    rcases List.mem_cons.mp leftLive with rfl | oldLeft
    · rcases List.mem_cons.mp rightLive with rfl | oldRight
      · rfl
      · exact absurd (agree.known right oldRight) (same ▸ unused)
    · rcases List.mem_cons.mp rightLive with rfl | oldRight
      · exact absurd (agree.known left oldLeft) (same ▸ unused)
      · exact agree.ids left oldLeft right oldRight same
  pointers left leftLive right rightLive same := by
    rcases List.mem_cons.mp leftLive with rfl | oldLeft
    · rcases List.mem_cons.mp rightLive with rfl | oldRight
      · rfl
      · exact absurd same.symm (free right oldRight)
    · rcases List.mem_cons.mp rightLive with rfl | oldRight
      · exact absurd same (free left oldLeft)
      · exact agree.pointers left oldLeft right oldRight same
  known other member := by
    rcases List.mem_cons.mp member with rfl | old
    · exact List.mem_cons_self
    · exact List.mem_cons_of_mem _ (agree.known other old)
  fresh id unusedId := agree.fresh id fun known => unusedId (List.mem_cons_of_mem _ known)
  pending other member := by
    rcases List.mem_cons.mp member with rfl | old
    · change (world.std other.id).pending = world.noStd.pending other.pointer
      rw [agree.fresh other.id unused, clean]
      rfl
    · exact agree.pending other old

theorem exit (agree : StoresAgree world) (thread : Thread) :
    StoresAgree { world with live := world.live.erase thread } where
  ids left leftLive right rightLive := agree.ids left (List.mem_of_mem_erase leftLive) right
    (List.mem_of_mem_erase rightLive)
  pointers left leftLive right rightLive := agree.pointers left (List.mem_of_mem_erase leftLive)
    right (List.mem_of_mem_erase rightLive)
  known other member := agree.known other (List.mem_of_mem_erase member)
  fresh := agree.fresh
  pending other member := agree.pending other (List.mem_of_mem_erase member)

theorem step (agree : StoresAgree world) {event : ErrorEvent} {next : ErrorWorld}
    (clean : CleanStart world event) (accepted : world.act event = some next) :
    StoresAgree next := by
  cases event with
  | start thread =>
      obtain ⟨⟨unused, free⟩, moved⟩ := Option.ite_none_right_eq_some.mp accepted
      cases moved
      exact agree.start unused free clean
  | exit thread =>
      obtain ⟨_, moved⟩ := Option.ite_none_right_eq_some.mp accepted
      cases moved
      exact agree.exit thread
  | clear thread =>
      obtain ⟨live, moved⟩ := Option.ite_none_right_eq_some.mp accepted
      cases moved
      refine @update _ agree thread live _ _ none ?_ ?_ ?_
      · simp [StdErrors.clear, DlErrorState.new]
      · intro id different
        exact Function.update_of_ne different _ _
      · intro pointer
        by_cases same : pointer = thread.pointer
        · simp [NoStdErrors.pending, NoStdErrors.clear, same]
        · simp [NoStdErrors.pending, NoStdErrors.clear, same]
  | set thread text =>
      obtain ⟨live, moved⟩ := Option.ite_none_right_eq_some.mp accepted
      cases moved
      refine @update _ agree thread live _ _ (some (errorMessage text)) ?_ ?_ ?_
      · simp [StdErrors.set, DlErrorState.withError]
      · intro id different
        exact Function.update_of_ne different _ _
      · intro pointer
        by_cases same : pointer = thread.pointer
        · simp [NoStdErrors.pending, NoStdErrors.set, DlErrorState.withError, same]
        · simp [NoStdErrors.pending, NoStdErrors.set, same]
  | dlerror thread =>
      obtain ⟨live, moved⟩ := Option.ite_none_right_eq_some.mp accepted
      cases moved
      refine @update _ agree thread live _ _ none ?_ ?_ ?_
      · simp [StdErrors.take, DlErrorState.take]
      · intro id different
        exact Function.update_of_ne different _ _
      · exact NoStdErrors.take_pending world.noStd thread

end StoresAgree

theorem storesAgree_inductive :
    (ErrorWorld.system.restrict CleanStart).Inductive StoresAgree where
  initially _ initial := initial ▸ .initial
  preserved _ _ _ agree step := agree.step step.1 step.2

/-- While no thread starts under a pointer with a pending error, `dlerror` answers the same
in both builds on every thread. Where one does, it answers with that error at once, instead
of null. -/
theorem error_stores_agree (world : ErrorWorld)
    (reached : (ErrorWorld.system.restrict CleanStart).Reachable world) :
    (∀ thread ∈ world.live, (world.noStd.take thread).1 = (world.std.take thread).1) ∧
    ∀ thread next, world.act (.start thread) = some next →
      (next.std.take thread).1 = none ∧
      ((next.noStd.take thread).1 = none ↔ CleanStart world (.start thread)) := by
  have agree := storesAgree_inductive.reachable reached
  constructor
  · intro thread live
    rw [NoStdErrors.take_fst]
    exact (agree.pending thread live).symm
  · intro thread next accepted
    obtain ⟨⟨unused, _⟩, moved⟩ := Option.ite_none_right_eq_some.mp accepted
    cases moved
    constructor
    · change (world.std thread.id).pending = none
      rw [agree.fresh thread.id unused]
      rfl
    · rw [NoStdErrors.take_fst]
      rfl

def firstThread : Thread := ⟨1, 0x7000⟩

/-- A later thread, on the cached stack of the first one. -/
def laterThread : Thread := ⟨2, 0x7000⟩

def cleanAct (world : ErrorWorld) (event : ErrorEvent) : Option ErrorWorld :=
  if CleanStart world event then world.act event else none

/-- The first thread reads its error before it exits. -/
theorem error_stores_agree_consumed :
    ∃ world, (ErrorWorld.system.restrict CleanStart).Reachable world ∧
      laterThread ∈ world.live ∧
      (world.noStd.take laterThread).1 = (world.std.take laterThread).1 := by
  have evaluated : (TransitionSystem.runLabels cleanAct .initial
      [.start firstThread, .set firstThread (ascii "missing"), .dlerror firstThread,
        .exit firstThread, .start laterThread]).map
      (fun world => decide (laterThread ∈ world.live)) = some true := by
    decide
  obtain ⟨world, ran, live⟩ := Option.map_eq_some_iff.mp evaluated
  have run : (ErrorWorld.system.restrict CleanStart).Run _ _ world :=
    TransitionSystem.Run.runGuarded (fun _ _ _ accepted => accepted) ran
  have reached : (ErrorWorld.system.restrict CleanStart).Reachable world :=
    ⟨.initial, _, rfl, run⟩
  exact ⟨world, reached, of_decide_eq_true live,
    (error_stores_agree world reached).1 laterThread (of_decide_eq_true live)⟩

/-- The first thread exits with an error pending, and the later one reads it. -/
theorem later_thread_reads_stale_error :
    ∃ world, ErrorWorld.system.Reachable world ∧ laterThread ∈ world.live ∧
      (world.noStd.take laterThread).1 = some (errorMessage (ascii "missing")) ∧
      (world.std.take laterThread).1 = none := by
  have evaluated : (TransitionSystem.runLabels ErrorWorld.act .initial
      [.start firstThread, .set firstThread (ascii "missing"), .exit firstThread,
        .start laterThread]).map (fun world => decide (laterThread ∈ world.live ∧
          (world.noStd.take laterThread).1 = some (errorMessage (ascii "missing")) ∧
          (world.std.take laterThread).1 = none)) = some true := by
    decide
  obtain ⟨world, ran, facts⟩ := Option.map_eq_some_iff.mp evaluated
  have run : ErrorWorld.system.Run .initial _ world :=
    TransitionSystem.Run.refl.runLabels (fun _ _ _ accepted => accepted) ran
  have reached : ErrorWorld.system.Reachable world := ⟨.initial, _, rfl, run⟩
  exact ⟨world, reached, of_decide_eq_true facts⟩

end DynLinker.Api
