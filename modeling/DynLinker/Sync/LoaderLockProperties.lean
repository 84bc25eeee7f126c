import DynLinker.Sync.LoaderLock
import Mathlib.Tactic.SplitIfs

/-! Ownership and wake-up invariants of the loader lock. Ownership holds in
every run. The wake-up invariant needs that no thread goes to sleep on a free
lock, which a failed compare-exchange allows. -/

set_option autoImplicit false

namespace DynLinker.Sync

open Lib LockState

namespace LockState

variable (state : LockState) (thread other : ThreadId) (pc : Pc) (count : Nat)

@[simp] theorem setPc_owner : (state.setPc thread pc).owner = state.owner := rfl
@[simp] theorem setPc_depth : (state.setPc thread pc).depth = state.depth := rfl
@[simp] theorem setPc_guards : (state.setPc thread pc).guards = state.guards := rfl
@[simp] theorem setGuards_owner : (state.setGuards thread count).owner = state.owner := rfl
@[simp] theorem setGuards_depth : (state.setGuards thread count).depth = state.depth := rfl
@[simp] theorem setGuards_pc : (state.setGuards thread count).pc = state.pc := rfl

@[simp] theorem setPc_pc_self : (state.setPc thread pc).pc thread = pc := by
  simp [setPc]

theorem setPc_pc_ne {state : LockState} {thread other : ThreadId} {pc : Pc}
    (different : other ≠ thread) : (state.setPc thread pc).pc other = state.pc other := by
  simp [setPc, different]

@[simp] theorem setGuards_guards_self : (state.setGuards thread count).guards thread = count := by
  simp [setGuards]

theorem setGuards_guards_ne {state : LockState} {thread other : ThreadId} {count : Nat}
    (different : other ≠ thread) :
    (state.setGuards thread count).guards other = state.guards other := by
  simp [setGuards, different]

end LockState

theorem ThreadId.raw_injective {left right : ThreadId} (same : left.raw = right.raw) :
    left = right := by
  cases left
  cases right
  simpa using same

/-- What a thread's next access says about the lock words and its guards. -/
def ThreadOwnership (owner : UInt32) (depth guards : Nat) (raw : UInt32) : Pc → Prop
  | .outside | .lockLoad =>
      (guards = 0 ∧ owner ≠ raw) ∨ (0 < guards ∧ owner = raw ∧ depth = guards)
  | .lockFetchUpdate => 0 < guards ∧ owner = raw ∧ depth = guards
  | .lockCompareExchange | .lockFutexWait _ | .lockAsleep _ | .unlockFutexWake =>
      guards = 0 ∧ owner ≠ raw
  | .lockStoreDepth => guards = 0 ∧ owner = raw
  | .unlockStoreOwner => guards = 0 ∧ owner = raw ∧ depth = 0
  | .unlockAssertOwner | .unlockFetchSub => owner = raw ∧ depth = guards + 1
  | .panicked => 0 < guards ∧ owner = raw ∧ depth = guards

/-- The ownership invariant: the counter fits its word and every thread agrees
with the lock words. -/
structure Owned (state : LockState) : Prop where
  bounded : state.depth < usizeCount
  threads : ∀ thread, ThreadOwnership state.owner state.depth (state.guards thread) thread.raw
    (state.pc thread)

/-- A thread that does not own the lock does not read the depth, and any owner
other than itself leaves it where it was. -/
theorem ThreadOwnership.of_foreign {owner nextOwner : UInt32} {depth nextDepth guards : Nat}
    {raw : UInt32} {pc : Pc} (owned : ThreadOwnership owner depth guards raw pc)
    (before : owner ≠ raw) (after : nextOwner ≠ raw) :
    ThreadOwnership nextOwner nextDepth guards raw pc := by
  cases pc <;> simp_all [ThreadOwnership]

/-- A step of `thread` keeps the invariant if `thread` itself agrees with the new
words and either the words stay or both owners are foreign to every other thread. -/
theorem Owned.of_step {state next : LockState} {thread : ThreadId} (owned : Owned state)
    (bounded : next.depth < usizeCount)
    (self : ThreadOwnership next.owner next.depth (next.guards thread) thread.raw
      (next.pc thread))
    (pcs : ∀ other, other ≠ thread → next.pc other = state.pc other)
    (guards : ∀ other, other ≠ thread → next.guards other = state.guards other)
    (words : (next.owner = state.owner ∧ next.depth = state.depth) ∨
      ∀ other : ThreadId, other ≠ thread → state.owner ≠ other.raw ∧ next.owner ≠ other.raw) :
    Owned next := by
  refine ⟨bounded, fun other => ?_⟩
  by_cases same : other = thread
  · subst other
    exact self
  · rw [pcs other same, guards other same]
    rcases words with ⟨owner, depth⟩ | foreign
    · rw [owner, depth]
      exact owned.threads other
    · exact (owned.threads other).of_foreign (foreign other same).1 (foreign other same).2

/-- A step that moves only the program counter of its thread. -/
theorem Owned.setPc {state : LockState} {thread : ThreadId} {pc : Pc} (owned : Owned state)
    (self : ThreadOwnership state.owner state.depth (state.guards thread) thread.raw pc) :
    Owned (state.setPc thread pc) :=
  owned.of_step owned.bounded (by simpa using self) (fun _ => setPc_pc_ne)
    (fun _ _ => rfl) (.inl ⟨rfl, rfl⟩)

theorem raw_foreign {thread : ThreadId} {owner : UInt32} (mine : owner = thread.raw)
    (other : ThreadId) (different : other ≠ thread) : owner ≠ other.raw := by
  intro same
  exact different (ThreadId.raw_injective (same.symm.trans mine))

theorem zero_foreign (other : ThreadId) : (0 : UInt32) ≠ other.raw :=
  fun same => other.nonzero same.symm

theorem one_lt_usizeCount : 1 < usizeCount :=
  Nat.one_lt_two_pow (by decide)

theorem usizeCount_pos : 0 < usizeCount :=
  Nat.lt_trans Nat.zero_lt_one one_lt_usizeCount

theorem checkedIncrement_some {depth next : Nat} (accepted : checkedIncrement depth = some next) :
    next = depth + 1 := by
  unfold checkedIncrement at accepted
  split at accepted
  · exact (Option.some.inj accepted).symm
  · cases accepted

theorem wrappingDecrement_lt (depth : Nat) : wrappingDecrement depth < usizeCount := by
  unfold wrappingDecrement
  exact Nat.mod_lt _ usizeCount_pos

theorem wrappingDecrement_succ {depth : Nat} (bounded : depth + 1 < usizeCount) :
    wrappingDecrement (depth + 1) = depth := by
  have positive := usizeCount_pos
  have shifted : depth + 1 + (usizeCount - 1) = depth + usizeCount := by omega
  rw [wrappingDecrement, shifted, Nat.add_mod_right, Nat.mod_eq_of_lt (by omega)]

theorem owned_new : Owned .new where
  bounded := usizeCount_pos
  threads thread := .inl ⟨rfl, zero_foreign thread⟩

/-- Every atomic access of `lock` and `unlock` keeps ownership. -/
theorem owned_step {debugAssertions : Bool} {state next : LockState} {thread : ThreadId}
    (owned : Owned state) (step : Step debugAssertions state thread next) : Owned next := by
  have mine := owned.threads thread
  cases step with
  | lock at_ =>
      rw [at_] at mine
      exact owned.setPc mine
  | load at_ =>
      rw [at_] at mine
      apply owned.setPc
      unfold afterLoad
      split
      · next taken =>
          rcases mine with ⟨_, foreign⟩ | held
          · exact absurd taken foreign
          · exact held
      · next foreign =>
          have unheld : state.guards thread = 0 ∧ state.owner ≠ thread.raw := by
            rcases mine with unheld | ⟨_, taken, _⟩
            · exact unheld
            · exact absurd taken foreign
          split <;> exact unheld
  | @fetchUpdate depth at_ accepted =>
      rw [at_] at mine
      obtain ⟨held, taken, counted⟩ := mine
      have incremented := checkedIncrement_some accepted
      have foreign := raw_foreign taken
      refine owned.of_step ?_ ?_ (fun _ => setPc_pc_ne) (fun _ => setGuards_guards_ne)
        (.inr fun other different => ⟨foreign other different, foreign other different⟩)
      · unfold checkedIncrement at accepted
        split at accepted
        · next fits => simpa [incremented] using fits
        · cases accepted
      · simp [ThreadOwnership, taken, incremented, counted]
  | fetchUpdateOverflow at_ _ =>
      rw [at_] at mine
      exact owned.setPc mine
  | compareExchange at_ free =>
      rw [at_] at mine
      refine owned.of_step owned.bounded ?_ (fun _ => setPc_pc_ne) (fun _ _ => rfl)
        (.inr fun other different => ⟨?_, raw_foreign rfl other different⟩)
      · simpa [ThreadOwnership] using mine.1
      · rw [free]
        exact zero_foreign other
  | compareExchangeFailed at_ _ =>
      rw [at_] at mine
      exact owned.setPc mine
  | storeDepth at_ =>
      rw [at_] at mine
      obtain ⟨unheld, taken⟩ := mine
      have foreign := raw_foreign taken
      refine owned.of_step one_lt_usizeCount ?_ (fun _ => setPc_pc_ne)
        (fun _ => setGuards_guards_ne)
        (.inr fun other different => ⟨foreign other different, foreign other different⟩)
      simp [ThreadOwnership, unheld, taken]
  | futexWait at_ _ =>
      rw [at_] at mine
      exact owned.setPc mine
  | futexWaitAgain at_ _ =>
      rw [at_] at mine
      exact owned.setPc (.inl mine)
  | @unlock count at_ held =>
      rw [at_] at mine
      obtain ⟨taken, counted⟩ : state.owner = thread.raw ∧ state.depth = count + 1 := by
        rcases mine with ⟨unheld, _⟩ | ⟨_, taken, counted⟩
        · rw [held] at unheld
          cases unheld
        · exact ⟨taken, counted.trans held⟩
      refine owned.of_step owned.bounded ?_ (fun _ => setPc_pc_ne) (fun _ => setGuards_guards_ne)
        (.inl ⟨rfl, rfl⟩)
      cases debugAssertions <;> simp [ThreadOwnership, unlockEntry, taken, counted]
  | assertOwner at_ _ =>
      rw [at_] at mine
      exact owned.setPc mine
  | assertOwnerFailed at_ foreign =>
      rw [at_] at mine
      exact absurd mine.1 foreign
  | fetchSub at_ =>
      rw [at_] at mine
      obtain ⟨taken, counted⟩ := mine
      have decremented : wrappingDecrement state.depth = state.guards thread := by
        rw [counted]
        exact wrappingDecrement_succ (counted ▸ owned.bounded)
      have foreign := raw_foreign taken
      refine owned.of_step (wrappingDecrement_lt _) ?_ (fun _ => setPc_pc_ne) (fun _ _ => rfl)
        (.inr ?_)
      rotate_left
      · intro other different
        rw [setPc_owner]
        exact ⟨foreign other different, foreign other different⟩
      have nonzero : ¬ (debugAssertions = true ∧ state.depth = 0) := by omega
      rw [setPc_pc_self, if_neg nonzero]
      by_cases last : state.depth = 1
      · have unheld : state.guards thread = 0 := by omega
        rw [unheld] at decremented
        simp [ThreadOwnership, taken, unheld, last, last ▸ decremented]
      · have remaining : 0 < state.guards thread := by omega
        simp [ThreadOwnership, last, taken, remaining, decremented]
  | storeOwner at_ =>
      rw [at_] at mine
      obtain ⟨unheld, taken, _⟩ := mine
      refine owned.of_step owned.bounded ?_ (fun _ => setPc_pc_ne) (fun _ _ => rfl)
        (.inr fun other different => ⟨raw_foreign taken other different, zero_foreign other⟩)
      simpa [ThreadOwnership, unheld] using zero_foreign thread
  | @futexWake sleeper expected at_ sleeping =>
      rw [at_] at mine
      have asleep := owned.threads sleeper
      rw [sleeping] at asleep
      have woken : Owned (state.setPc sleeper .lockLoad) := owned.setPc (.inl asleep)
      exact woken.setPc (.inl mine)
  | futexWakeNone at_ _ =>
      rw [at_] at mine
      exact owned.setPc (.inl mine)

/-! ## Wake-ups -/

/-- Somebody is left to wake the sleepers of a free lock, or to take it. -/
def Attended (state : LockState) : Prop :=
  state.owner = 0 → (∃ sleeper, (state.pc sleeper).asleep = true) →
    ∃ other, (state.pc other).executing = true

theorem Attended.not_stranded {state : LockState} (attended : Attended state) :
    ¬ Stranded state := by
  rintro ⟨free, sleeper, asleep, quiet⟩
  obtain ⟨other, executing⟩ := attended free ⟨sleeper, asleep⟩
  have different : other ≠ sleeper := by
    rintro rfl
    cases at_ : state.pc other <;> simp [at_, Pc.asleep, Pc.executing] at asleep executing
  rw [quiet other different] at executing
  cases executing

theorem attended_of_executing {state : LockState} (thread : ThreadId)
    (executing : (state.pc thread).executing = true) : Attended state :=
  fun _ _ => ⟨thread, executing⟩

theorem attended_of_owner {state : LockState} {thread : ThreadId}
    (taken : state.owner = thread.raw) : Attended state :=
  fun free => absurd (taken.symm.trans free) thread.nonzero

theorem afterLoad_executing (state : LockState) (thread : ThreadId) :
    (state.afterLoad thread).executing = true := by
  unfold afterLoad
  split
  · rfl
  · split <;> rfl

/-- One step: the thread that moved still runs, or it owns the lock, or it has
just woken a sleeper. Only a sleep on a free lock is none of these. -/
theorem attended_step {debugAssertions : Bool} {state next : LockState} {thread : ThreadId}
    (owned : Owned state) (waits : WaitsOnOwner state thread)
    (step : Step debugAssertions state thread next) : Attended next := by
  have mine := owned.threads thread
  cases step with
  | lock _ | compareExchange _ _ | compareExchangeFailed _ _ | futexWaitAgain _ _
  | assertOwner _ _ | storeOwner _ =>
      exact attended_of_executing thread (by simp [Pc.executing])
  | load _ =>
      exact attended_of_executing thread (by simpa using afterLoad_executing state thread)
  | unlock _ _ =>
      apply attended_of_executing thread
      cases debugAssertions <;> simp [unlockEntry, Pc.executing]
  | fetchUpdate at_ _ | fetchUpdateOverflow at_ _ =>
      rw [at_] at mine
      exact attended_of_owner mine.2.1
  | storeDepth at_ =>
      rw [at_] at mine
      exact attended_of_owner mine.2
  | futexWait at_ same =>
      intro free
      have expectedZero := same.symm.trans free
      exact absurd ⟨expectedZero ▸ at_, free⟩ waits
  | assertOwnerFailed at_ foreign =>
      rw [at_] at mine
      exact absurd mine.1 foreign
  | fetchSub at_ =>
      rw [at_] at mine
      intro free
      rw [setPc_owner] at free
      exact absurd (mine.1.symm.trans free) thread.nonzero
  | @futexWake sleeper expected at_ sleeping =>
      have different : sleeper ≠ thread := by
        rintro rfl
        rw [at_] at sleeping
        cases sleeping
      apply attended_of_executing sleeper
      rw [setPc_pc_ne different, setPc_pc_self]
      rfl
  | futexWakeNone at_ quiet =>
      rintro _ ⟨sleeper, asleep⟩
      by_cases same : sleeper = thread
      · subst sleeper
        simp [Pc.asleep] at asleep
      · rw [setPc_pc_ne same, quiet sleeper] at asleep
        cases asleep

theorem attended_inductive (debugAssertions : Bool) :
    ((lockSystem debugAssertions).restrict WaitsOnOwner).Inductive
      fun state => Owned state ∧ Attended state where
  initially state initial := by
    subst initial
    exact ⟨owned_new, fun _ ⟨sleeper, asleep⟩ => by cases asleep⟩
  preserved state thread next valid step :=
    ⟨owned_step valid.1 step.2, attended_step valid.1 step.1 step.2⟩

/-- In every run in which no thread enters `FUTEX_WAIT` with the zero of a failed
compare-exchange while the lock is free again, no wake-up is lost. -/
theorem not_stranded_of_waits_on_owner (debugAssertions : Bool) (state : LockState)
    (reached : ((lockSystem debugAssertions).restrict WaitsOnOwner).Reachable state) :
    ¬ Stranded state :=
  ((attended_inductive debugAssertions).reachable reached).2.not_stranded

/-- The thread that goes to sleep in the runs below. -/
def waiter : ThreadId := ⟨1, by decide⟩

/-- The thread that takes the lock in the runs below. -/
def holder : ThreadId := ⟨2, by decide⟩

/-- The lost wake-up. `waiter` reads a free owner word, `holder` takes the lock
before the compare-exchange of `waiter` and gives it back after it, and `waiter`
then sleeps on the zero it still holds. Every other thread is outside. -/
theorem stranded_reachable :
    ∃ state, (lockSystem false).Reachable state ∧ Stranded state ∧
      ∀ other, other ≠ waiter → state.pc other = .outside := by
  have step {state next : LockState} (reached : (lockSystem false).Reachable state)
      (thread : ThreadId) (taken : Step false state thread next) :
      (lockSystem false).Reachable next := reached.next taken
  have begun := step (.start rfl) waiter (.lock rfl)
  have read := step begun waiter (.load rfl)
  have entered := step read holder (.lock rfl)
  have readToo := step entered holder (.load rfl)
  have exchanged := step readToo holder (.compareExchange rfl rfl)
  have acquired := step exchanged holder (.storeDepth rfl)
  have failed := step acquired waiter (.compareExchangeFailed rfl (by decide))
  have dropped := step failed holder (.unlock rfl rfl)
  have decremented := step dropped holder (.fetchSub rfl)
  have released := step decremented holder (.storeOwner rfl)
  have woke := step released holder (.futexWakeNone rfl (by
    intro other
    simp only [LockState.setPc, LockState.setGuards, LockState.new, Function.update_apply]
    split_ifs <;> rfl))
  have asleep := step woke waiter (.futexWait rfl rfl)
  refine ⟨_, asleep, ⟨rfl, waiter, rfl, ?_⟩, ?_⟩
  all_goals
    intro other different
    simp only [LockState.setPc, LockState.setGuards, LockState.new, Function.update_apply]
    split_ifs <;> first | rfl | contradiction

/-- The guarded runs include contention: `waiter` sleeps on the owner it read,
and the lock is not stranded. -/
theorem not_stranded_contended :
    ∃ state, ((lockSystem true).restrict WaitsOnOwner).Reachable state ∧
      (state.pc waiter).asleep = true ∧ ¬ Stranded state := by
  have step {state next : LockState}
      (reached : ((lockSystem true).restrict WaitsOnOwner).Reachable state)
      (thread : ThreadId) (condition : WaitsOnOwner state thread)
      (taken : Step true state thread next) :
      ((lockSystem true).restrict WaitsOnOwner).Reachable next :=
    reached.next ⟨condition, taken⟩
  have idle {state : LockState} {thread : ThreadId}
      (elsewhere : state.pc thread ≠ .lockFutexWait 0) : WaitsOnOwner state thread :=
    fun waiting => elsewhere waiting.1
  have entered := step (.start rfl) holder (idle (by decide)) (.lock rfl)
  have read := step entered holder (idle (by decide)) (.load rfl)
  have exchanged := step read holder (idle (by decide)) (.compareExchange rfl rfl)
  have acquired := step exchanged holder (idle (by decide)) (.storeDepth rfl)
  have begun := step acquired waiter (idle (by decide)) (.lock rfl)
  have readToo := step begun waiter (idle (by decide)) (.load rfl)
  have asleep := step readToo waiter (idle (by decide)) (.futexWait rfl rfl)
  exact ⟨_, asleep, rfl, not_stranded_of_waits_on_owner true _ asleep⟩

end DynLinker.Sync
