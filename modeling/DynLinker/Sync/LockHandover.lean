import DynLinker.Lib.Simulation
import DynLinker.Sync.MutualExclusion

/-! The lock with the standard library loses no wake-up: whoever waits for it can always
still get it, and nobody has to be woken without a notification for that. -/

set_option autoImplicit false

namespace DynLinker.Sync

open Lib StdLockState

variable {Thread : Type} [DecidableEq Thread] {debugAssertions : Bool}

/-- While a thread waits for a free lock, another one is about to look at it. -/
def Served (state : StdLockState Thread) : Prop :=
  state.owner = none → ∀ sleeper, state.pc sleeper = .waiting →
    ∃ awake, state.pc awake = .lockState

theorem served_step {state next : StdLockState Thread} {thread : Thread}
    (owned : StdOwned state) (step : StdStep debugAssertions state thread next) :
    Served next := by
  have after := stdOwned_step owned step
  intro free sleeper asleep
  cases step with
  | lock _ => exact ⟨thread, setPc_pc_self _ _ _⟩
  | wait _ taken _ => cases taken.symm.trans free
  | wake _ => exact ⟨thread, setPc_pc_self _ _ _⟩
  | acquire _ _ _ => cases free
  | acquireOverflow _ _ _ => cases free
  | unlock _ _ =>
      have mine := after.threads thread
      rw [setPc_pc_self] at mine
      cases mine.1.symm.trans free
  | assertOwnerFailed at_ _ _ => cases (owned.releasing at_).1.symm.trans free
  | releaseUnderflow at_ _ _ => cases (owned.releasing at_).1.symm.trans free
  | release at_ _ _ => cases (owned.releasing at_).1.symm.trans free
  | @releaseLast woken at_ _ _ sleeping =>
      have different : woken ≠ thread := by
        rintro rfl
        cases at_.symm.trans sleeping
      exact ⟨woken, (setPc_pc_ne different).trans (setPc_pc_self _ _ _)⟩
  | releaseLastNone _ _ _ nobody =>
      by_cases same : sleeper = thread
      · subst same
        rw [setPc_pc_self] at asleep
        cases asleep
      · rw [setPc_pc_ne same] at asleep
        exact absurd asleep (nobody sleeper)

theorem served_inductive (debugAssertions : Bool) :
    (stdLockSystem Thread debugAssertions).Inductive
      fun state => StdOwned state ∧ Served state where
  initially state initial := by
    refine ⟨(stdOwned_inductive debugAssertions).initially state initial, ?_⟩
    subst initial
    intro _ sleeper asleep
    cases asleep
  preserved _ _ _ valid step := ⟨stdOwned_step valid.1 step, served_step valid.1 step⟩

/-! ## Handing the lock over -/

/-- A waiting thread does nothing by itself: it is only woken by a notification. -/
def Notified (state : StdLockState Thread) (thread : Thread) : Prop :=
  state.pc thread ≠ .waiting

section Handover

/-- Runs in which nobody is woken out of nothing. -/
abbrev notifiedSystem (Thread : Type) [DecidableEq Thread] (debugAssertions : Bool) :
    TransitionSystem (StdLockState Thread) Thread :=
  (stdLockSystem Thread debugAssertions).restrict Notified

/-- From this state the lock can become free with `target` about to take it. -/
def HandsOver (debugAssertions : Bool) (target : Thread) (state : StdLockState Thread) : Prop :=
  ∃ labels next, (notifiedSystem Thread debugAssertions).Run state labels next ∧
    StdOwned next ∧ next.owner = none ∧ next.pc target = .lockState

variable {state next : StdLockState Thread} {holder target : Thread}

theorem HandsOver.step (step : StdStep debugAssertions state holder next)
    (awake : state.pc holder ≠ .waiting) (later : HandsOver debugAssertions target next) :
    HandsOver debugAssertions target state := by
  obtain ⟨labels, finish, run, rest⟩ := later
  have first : (notifiedSystem Thread debugAssertions).Run state [holder] next :=
    .snoc .refl ⟨awake, step⟩
  exact ⟨[holder] ++ labels, finish, first.append run, rest⟩

/-- The last guard is dropped, and the notification reaches the waiting thread. -/
theorem handsOver_last (owned : StdOwned state) (at_ : state.pc holder = .unlockState)
    (last : state.guards holder = 0) (waits : state.pc target = .waiting) :
    HandsOver debugAssertions target state := by
  obtain ⟨taken, counted⟩ := owned.releasing at_
  rw [last] at counted
  have different : target ≠ holder := by
    rintro rfl
    cases at_.symm.trans waits
  have released : StdStep debugAssertions state holder _ :=
    .releaseLast at_ (fun _ => taken) counted waits
  refine .step released (by simp [at_]) ⟨[], _, .refl, stdOwned_step owned released, rfl, ?_⟩
  exact (setPc_pc_ne different).trans (setPc_pc_self _ _ _)

/-- The holder drops one guard after the other; the induction is on those that are left. -/
theorem handsOver_unlocking {count : Nat} (owned : StdOwned state)
    (at_ : state.pc holder = .unlockState) (left : state.guards holder = count)
    (waits : state.pc target = .waiting) : HandsOver debugAssertions target state := by
  induction count generalizing state with
  | zero => exact handsOver_last owned at_ left waits
  | succ count ih =>
      obtain ⟨taken, counted⟩ := owned.releasing at_
      rw [left] at counted
      have different : target ≠ holder := by
        rintro rfl
        cases at_.symm.trans waits
      have released : StdStep debugAssertions state holder
          ({ state with depth := count + 1 }.setPc holder .outside) :=
        .release at_ (fun _ => taken) counted
      have dropped : StdStep debugAssertions
          ({ state with depth := count + 1 }.setPc holder .outside) holder _ :=
        .unlock (setPc_pc_self _ _ _) left
      refine .step released (by simp [at_]) (.step dropped (by simp) (ih ?_ ?_ ?_ ?_))
      · exact stdOwned_step (stdOwned_step owned released) dropped
      · exact setPc_pc_self _ _ _
      · exact setGuards_guards_self _ _ _
      · exact (setPc_pc_ne different).trans ((setPc_pc_ne different).trans waits)

theorem handsOver_outside {count : Nat} (owned : StdOwned state)
    (at_ : state.pc holder = .outside) (held : state.guards holder = count + 1)
    (waits : state.pc target = .waiting) : HandsOver debugAssertions target state := by
  have different : target ≠ holder := by
    rintro rfl
    cases at_.symm.trans waits
  have dropped : StdStep debugAssertions state holder _ := .unlock at_ held
  refine .step dropped (by simp [at_]) (handsOver_unlocking (stdOwned_step owned dropped)
    (setPc_pc_self _ _ _) (setGuards_guards_self _ _ _) ?_)
  exact (setPc_pc_ne different).trans waits

/-- A thread that may take the lock takes it, and drops its guards again. -/
theorem handsOver_acquiring (owned : StdOwned state) (at_ : state.pc holder = .lockState)
    (permitted : ∀ other, state.owner = some other → other = holder)
    (room : state.depth + 1 < usizeCount) (waits : state.pc target = .waiting) :
    HandsOver debugAssertions target state := by
  have different : target ≠ holder := by
    rintro rfl
    cases at_.symm.trans waits
  have acquired : StdStep debugAssertions state holder _ :=
    .acquire at_ permitted (if_pos room)
  refine .step acquired (by simp [at_]) (handsOver_outside (stdOwned_step owned acquired)
    (setPc_pc_self _ _ _) (setGuards_guards_self _ _ _) ?_)
  exact (setPc_pc_ne different).trans waits

theorem handsOver (owned : StdOwned state) (served : Served state)
    (calm : ∀ thread, state.pc thread ≠ .panicked) (room : state.depth + 1 < usizeCount)
    (waits : state.pc target = .waiting) : HandsOver debugAssertions target state := by
  cases owner : state.owner with
  | none =>
      obtain ⟨awake, at_⟩ := served owner target waits
      refine handsOver_acquiring owned at_ ?_ room waits
      intro other named
      cases owner.symm.trans named
  | some holder =>
      have mine := owned.threads holder
      cases at_ : state.pc holder with
      | outside =>
          rw [at_] at mine
          rcases mine with ⟨_, foreign⟩ | ⟨held, _, _⟩
          · exact absurd owner foreign
          · obtain ⟨count, guards⟩ := Nat.exists_eq_add_of_le' held
            exact handsOver_outside owned at_ guards waits
      | lockState =>
          refine handsOver_acquiring owned at_ ?_ room waits
          intro other named
          exact Option.some.inj (named.symm.trans owner)
      | waiting =>
          rw [at_] at mine
          exact absurd owner mine.2
      | unlockState => exact handsOver_unlocking owned at_ rfl waits
      | panicked => exact absurd at_ (calm holder)

end Handover

/-- In every reachable state a waiting thread can still get the lock, by notifications
alone: the holder drops its guards, and the last one wakes it. The lock is never free
with every thread that wants it asleep. -/
theorem std_waiter_gets_lock (debugAssertions : Bool) (state : StdLockState Thread)
    (reached : (stdLockSystem Thread debugAssertions).Reachable state) (thread : Thread)
    (waits : state.pc thread = .waiting) :
    (state.owner = none → ∃ awake, state.pc awake = .lockState) ∧
      ((∀ other, state.pc other ≠ .panicked) → state.depth + 1 < usizeCount →
        ∃ labels next, (notifiedSystem Thread debugAssertions).Run state labels next ∧
          next.owner = some thread ∧ next.guards thread = 1 ∧ next.pc thread = .outside) := by
  obtain ⟨owned, served⟩ := (served_inductive debugAssertions).reachable reached
  refine ⟨fun free => served free thread waits, fun calm room => ?_⟩
  obtain ⟨labels, middle, run, middleOwned, free, at_⟩ :=
    @handsOver _ _ debugAssertions _ _ owned served calm room waits
  have depth := middleOwned.free free
  have unheld : middle.guards thread = 0 := by
    have mine := middleOwned.threads thread
    rw [at_, free] at mine
    rcases mine with ⟨unheld, _⟩ | ⟨_, impossible, _⟩
    · exact unheld
    · cases impossible
  have room : LockState.checkedIncrement middle.depth = some 1 := by
    rw [depth]
    exact if_pos one_lt_usizeCount
  have nobody : ∀ other, middle.owner = some other → other = thread := by
    intro other named
    cases free.symm.trans named
  have acquired : StdStep debugAssertions middle thread _ := .acquire at_ nobody room
  refine ⟨labels ++ [thread], _, run.snoc ⟨by simp [Notified, at_], acquired⟩, rfl, ?_, ?_⟩
  · simp [unheld]
  · exact setPc_pc_self _ _ _

/-- One thread holds the lock and another one waits for it. -/
theorem std_waiter_gets_lock_contended :
    ∃ state : StdLockState Bool, (stdLockSystem Bool false).Reachable state ∧
      state.owner = some true ∧ state.pc false = .waiting ∧
      ∃ labels next, (notifiedSystem Bool false).Run state labels next ∧
        next.owner = some false := by
  have step {state next : StdLockState Bool}
      (reached : (stdLockSystem Bool false).Reachable state) (thread : Bool)
      (taken : StdStep false state thread next) : (stdLockSystem Bool false).Reachable next :=
    reached.next taken
  have entered := step (.start rfl) true (.lock rfl)
  have acquired := step entered true (.acquire rfl (fun _ named => by cases named)
    (if_pos one_lt_usizeCount))
  have begun := step acquired false (.lock rfl)
  have asleep := step begun false (.wait rfl rfl (by decide))
  obtain ⟨labels, next, run, taken, _⟩ := (std_waiter_gets_lock false _ asleep false rfl).2
    (by decide) (by decide)
  exact ⟨_, asleep, rfl, rfl, labels, next, run, taken⟩

end DynLinker.Sync
