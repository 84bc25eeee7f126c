import DynLinker.Sync.LoaderLockProperties
import DynLinker.Sync.StdLoaderLock

/-! Both loader locks are re-entrant locks: one holder, an owner that is named exactly
while it holds the lock or passes through the windows of `lock` and `unlock`, and a
depth that counts its guards. -/

set_option autoImplicit false

namespace DynLinker.Sync

open Lib

/-! ## The lock with the standard library -/

section

variable {Thread : Type} [DecidableEq Thread]

namespace StdLockState

variable (state : StdLockState Thread) (thread other : Thread) (pc : StdPc) (count : Nat)

@[simp] theorem setPc_owner : (state.setPc thread pc).owner = state.owner := rfl
@[simp] theorem setPc_depth : (state.setPc thread pc).depth = state.depth := rfl
@[simp] theorem setPc_guards : (state.setPc thread pc).guards = state.guards := rfl
@[simp] theorem setGuards_pc : (state.setGuards thread count).pc = state.pc := rfl

@[simp] theorem setPc_pc_self : (state.setPc thread pc).pc thread = pc := by
  simp [setPc]

theorem setPc_pc_ne {state : StdLockState Thread} {thread other : Thread} {pc : StdPc}
    (different : other ≠ thread) : (state.setPc thread pc).pc other = state.pc other := by
  simp [setPc, different]

@[simp] theorem setGuards_guards_self : (state.setGuards thread count).guards thread = count := by
  simp [setGuards]

theorem setGuards_guards_ne {state : StdLockState Thread} {thread other : Thread} {count : Nat}
    (different : other ≠ thread) :
    (state.setGuards thread count).guards other = state.guards other := by
  simp [setGuards, different]

end StdLockState

open StdLockState

/-- What a thread's next critical section says about the lock and its guards. -/
def StdOwnership (owner : Option Thread) (depth guards : Nat) (thread : Thread) : StdPc → Prop
  | .outside | .lockState =>
      (guards = 0 ∧ owner ≠ some thread) ∨ (0 < guards ∧ owner = some thread ∧ depth = guards)
  | .waiting => guards = 0 ∧ owner ≠ some thread
  | .unlockState => owner = some thread ∧ depth = guards + 1
  | .panicked => 0 < guards ∧ owner = some thread ∧ depth = guards

structure StdOwned (state : StdLockState Thread) : Prop where
  free : state.owner = none → state.depth = 0
  threads : ∀ thread, StdOwnership state.owner state.depth (state.guards thread) thread
    (state.pc thread)

omit [DecidableEq Thread] in
theorem StdOwnership.of_foreign {owner nextOwner : Option Thread} {depth nextDepth guards : Nat}
    {thread : Thread} {pc : StdPc} (owned : StdOwnership owner depth guards thread pc)
    (before : owner ≠ some thread) (after : nextOwner ≠ some thread) :
    StdOwnership nextOwner nextDepth guards thread pc := by
  cases pc <;> simp_all [StdOwnership]

theorem StdOwned.of_step {state next : StdLockState Thread} {thread : Thread}
    (owned : StdOwned state) (free : next.owner = none → next.depth = 0)
    (self : StdOwnership next.owner next.depth (next.guards thread) thread (next.pc thread))
    (pcs : ∀ other, other ≠ thread → next.pc other = state.pc other)
    (guards : ∀ other, other ≠ thread → next.guards other = state.guards other)
    (words : (next.owner = state.owner ∧ next.depth = state.depth) ∨
      ∀ other, other ≠ thread → state.owner ≠ some other ∧ next.owner ≠ some other) :
    StdOwned next := by
  refine ⟨free, fun other => ?_⟩
  by_cases same : other = thread
  · subst other
    exact self
  · rw [pcs other same, guards other same]
    rcases words with ⟨owner, depth⟩ | foreign
    · rw [owner, depth]
      exact owned.threads other
    · exact (owned.threads other).of_foreign (foreign other same).1 (foreign other same).2

theorem StdOwned.setPc {state : StdLockState Thread} {thread : Thread} {pc : StdPc}
    (owned : StdOwned state)
    (self : StdOwnership state.owner state.depth (state.guards thread) thread pc) :
    StdOwned (state.setPc thread pc) :=
  owned.of_step owned.free (by simpa using self) (fun _ => setPc_pc_ne) (fun _ _ => rfl)
    (.inl ⟨rfl, rfl⟩)

omit [DecidableEq Thread] in
theorem some_foreign {thread : Thread} {owner : Option Thread} (mine : owner = some thread)
    (other : Thread) (different : other ≠ thread) : owner ≠ some other := by
  intro same
  exact different (Option.some.inj (same.symm.trans mine))

omit [DecidableEq Thread] in
/-- A thread that may take the lock holds it already, or nobody does. -/
theorem StdOwned.takeable {state : StdLockState Thread} {thread : Thread} (owned : StdOwned state)
    (at_ : state.pc thread = .lockState)
    (permitted : ∀ other, state.owner = some other → other = thread) :
    state.depth = state.guards thread ∧ (state.guards thread = 0 → state.depth = 0) ∧
      (0 < state.guards thread → state.owner = some thread) := by
  have mine := owned.threads thread
  rw [at_] at mine
  rcases mine with ⟨unheld, foreign⟩ | ⟨held, taken, counted⟩
  · have nobody : state.owner = none := by
      cases owner : state.owner with
      | none => rfl
      | some other => exact absurd (permitted other owner ▸ owner) foreign
    have free := owned.free nobody
    exact ⟨free.trans unheld.symm, fun _ => free, fun held => absurd unheld (Nat.ne_of_gt held)⟩
  · exact ⟨counted, fun unheld => absurd unheld (Nat.ne_of_gt held), fun _ => taken⟩

omit [DecidableEq Thread] in
theorem StdOwned.releasing {state : StdLockState Thread} {thread : Thread}
    (owned : StdOwned state) (at_ : state.pc thread = .unlockState) :
    state.owner = some thread ∧
      StdLockState.checkedDecrement state.depth = some (state.guards thread) := by
  have mine := owned.threads thread
  rw [at_] at mine
  obtain ⟨taken, counted⟩ := mine
  rw [counted]
  exact ⟨taken, rfl⟩

/-- The critical section of `unlock` that gives the lock back. -/
theorem StdOwned.freed {state : StdLockState Thread} {thread : Thread} (owned : StdOwned state)
    (at_ : state.pc thread = .unlockState) (unheld : state.guards thread = 0) :
    StdOwned ({ state with owner := none, depth := 0 }.setPc thread .outside) := by
  obtain ⟨taken, _⟩ := owned.releasing at_
  refine owned.of_step (fun _ => rfl) ?_ (fun _ => setPc_pc_ne) (fun _ _ => rfl) (.inr ?_)
  · simp only [StdLockState.setPc_pc_self, StdOwnership]
    refine .inl ⟨unheld, ?_⟩
    intro named
    cases named
  · intro other different
    refine ⟨some_foreign taken other different, ?_⟩
    intro named
    cases named

/-- Every critical section of `lock` and `unlock` keeps ownership. -/
theorem stdOwned_step {debugAssertions : Bool} {state next : StdLockState Thread}
    {thread : Thread} (owned : StdOwned state)
    (step : StdStep debugAssertions state thread next) : StdOwned next := by
  have mine := owned.threads thread
  cases step with
  | lock at_ =>
      rw [at_] at mine
      exact owned.setPc mine
  | @wait other at_ taken different =>
      rw [at_] at mine
      refine owned.setPc ?_
      rcases mine with unheld | ⟨_, own, _⟩
      · exact unheld
      · exact absurd own (some_foreign taken thread different.symm)
  | wake at_ =>
      rw [at_] at mine
      exact owned.setPc (.inl mine)
  | @acquire depth at_ permitted accepted =>
      obtain ⟨counted, _, _⟩ := owned.takeable at_ permitted
      have incremented := checkedIncrement_some accepted
      refine owned.of_step ?_ ?_ (fun _ => setPc_pc_ne) (fun _ => setGuards_guards_ne) (.inr ?_)
      · intro nobody
        cases nobody
      · simp only [StdLockState.setPc_pc_self, StdOwnership]
        refine .inr ⟨?_, rfl, ?_⟩
        · simp
        · simp only [setPc_guards, setGuards_guards_self, ← counted]
          exact incremented
      · intro other different
        refine ⟨?_, some_foreign rfl other different⟩
        intro taken
        exact different (permitted other taken)
  | acquireOverflow at_ permitted overflow =>
      obtain ⟨counted, free, own⟩ := owned.takeable at_ permitted
      have held : 0 < state.guards thread := by
        rcases Nat.eq_zero_or_pos (state.guards thread) with unheld | held
        · rw [free unheld] at overflow
          rw [LockState.checkedIncrement, if_pos one_lt_usizeCount] at overflow
          cases overflow
        · exact held
      have taken := own held
      refine owned.of_step ?_ ?_ (fun _ => setPc_pc_ne) (fun _ _ => rfl) (.inl ⟨taken.symm, rfl⟩)
      · intro nobody
        cases nobody
      · simp only [StdLockState.setPc_pc_self, StdOwnership]
        exact ⟨held, rfl, counted⟩
  | @unlock count at_ held =>
      rw [at_] at mine
      obtain ⟨taken, counted⟩ : state.owner = some thread ∧ state.depth = count + 1 := by
        rcases mine with ⟨unheld, _⟩ | ⟨_, taken, counted⟩
        · rw [held] at unheld
          cases unheld
        · exact ⟨taken, counted.trans held⟩
      refine owned.of_step owned.free ?_ (fun _ => setPc_pc_ne) (fun _ => setGuards_guards_ne)
        (.inl ⟨rfl, rfl⟩)
      simp only [StdLockState.setPc_pc_self, StdOwnership, setPc_guards, setGuards_guards_self]
      exact ⟨taken, counted⟩
  | assertOwnerFailed at_ _ foreign => exact absurd (owned.releasing at_).1 foreign
  | releaseUnderflow at_ _ underflow =>
      rw [(owned.releasing at_).2] at underflow
      cases underflow
  | @release depth at_ _ decremented =>
      obtain ⟨taken, counted⟩ := owned.releasing at_
      have remaining : state.guards thread = depth + 1 :=
        Option.some.inj (counted.symm.trans decremented)
      refine owned.of_step ?_ ?_ (fun _ => setPc_pc_ne) (fun _ _ => rfl) (.inr ?_)
      · intro nobody
        cases taken.symm.trans nobody
      · simp only [StdLockState.setPc_pc_self, StdOwnership]
        exact .inr ⟨by simp [remaining], taken, remaining.symm⟩
      · intro other different
        exact ⟨some_foreign taken other different, some_foreign taken other different⟩
  | @releaseLast sleeper at_ _ decremented sleeping =>
      have asleep := owned.threads sleeper
      rw [sleeping] at asleep
      have woken : StdOwned (state.setPc sleeper .lockState) := owned.setPc (.inl asleep)
      have different : thread ≠ sleeper := by
        rintro rfl
        cases at_.symm.trans sleeping
      have still : (state.setPc sleeper .lockState).pc thread = .unlockState := by
        rw [setPc_pc_ne different]
        exact at_
      have unheld := Option.some.inj ((owned.releasing at_).2.symm.trans decremented)
      exact woken.freed still unheld
  | releaseLastNone at_ _ decremented _ =>
      exact owned.freed at_ (Option.some.inj ((owned.releasing at_).2.symm.trans decremented))

theorem stdOwned_inductive (debugAssertions : Bool) :
    (stdLockSystem Thread debugAssertions).Inductive StdOwned where
  initially state initial := by
    subst initial
    refine ⟨fun _ => rfl, fun thread => .inl ⟨rfl, ?_⟩⟩
    intro named
    cases named
  preserved _ _ _ := stdOwned_step

end

/-! ## Both locks -/

/-- What a re-entrant lock promises in one state. `between` holds of a thread inside the
last steps of taking or releasing a guard. -/
structure Reentrant {Thread : Type} (owns between : Thread → Prop) (depth : Nat)
    (guards : Thread → Nat) : Prop where
  exclusive : ∀ left right, 0 < guards left → 0 < guards right → left = right
  owner : ∀ thread, owns thread ↔ 0 < guards thread ∨ between thread
  counted : ∀ thread, 0 < guards thread → ¬ between thread → depth = guards thread

/-- The windows between the owner word and the depth. -/
def Pc.between : Pc → Bool
  | .lockStoreDepth | .unlockAssertOwner | .unlockFetchSub | .unlockStoreOwner => true
  | .outside | .lockLoad | .lockFetchUpdate | .lockCompareExchange | .lockFutexWait _
  | .lockAsleep _ | .unlockFutexWake | .panicked => false

theorem owned_signal_inductive (debugAssertions : Bool) :
    (signalLockSystem debugAssertions).Inductive Owned where
  initially _ initial := initial ▸ owned_new
  preserved state thread next owned step := by
    cases step with
    | access step => exact owned_step owned step
    | interrupt sleeping =>
        have asleep := owned.threads thread
        rw [sleeping] at asleep
        exact owned.setPc (.inl asleep)

theorem ThreadOwnership.owner_iff {owner : UInt32} {depth guards : Nat} {raw : UInt32} {pc : Pc}
    (owned : ThreadOwnership owner depth guards raw pc) :
    owner = raw ↔ 0 < guards ∨ pc.between = true := by
  cases pc with
  | outside | lockLoad =>
      rcases owned with ⟨unheld, foreign⟩ | ⟨held, taken, _⟩
      · simp [unheld, foreign, Pc.between]
      · simp [held, taken]
  | lockFetchUpdate | panicked =>
      obtain ⟨held, taken, _⟩ := owned
      simp [held, taken]
  | lockCompareExchange | lockFutexWait expected | lockAsleep expected | unlockFutexWake =>
      obtain ⟨unheld, foreign⟩ := owned
      simp [unheld, foreign, Pc.between]
  | lockStoreDepth => simp [owned.2, Pc.between]
  | unlockStoreOwner => simp [owned.2.1, Pc.between]
  | unlockAssertOwner | unlockFetchSub => simp [owned.1, Pc.between]

theorem ThreadOwnership.counted {owner : UInt32} {depth guards : Nat} {raw : UInt32} {pc : Pc}
    (owned : ThreadOwnership owner depth guards raw pc) (held : 0 < guards)
    (settled : ¬ pc.between = true) : depth = guards := by
  cases pc with
  | outside | lockLoad =>
      rcases owned with ⟨unheld, _⟩ | ⟨_, _, counted⟩
      · exact absurd unheld (Nat.ne_of_gt held)
      · exact counted
  | lockFetchUpdate | panicked => exact owned.2.2
  | lockCompareExchange | lockFutexWait expected | lockAsleep expected | unlockFutexWake =>
      exact absurd owned.1 (Nat.ne_of_gt held)
  | lockStoreDepth | unlockStoreOwner | unlockAssertOwner | unlockFetchSub =>
      exact absurd rfl settled

theorem Owned.reentrant {state : LockState} (owned : Owned state) :
    Reentrant (fun thread : ThreadId => state.owner = thread.raw)
      (fun thread => (state.pc thread).between = true) state.depth state.guards where
  exclusive left right leftHeld rightHeld := by
    have leftOwner := (owned.threads left).owner_iff.mpr (.inl leftHeld)
    have rightOwner := (owned.threads right).owner_iff.mpr (.inl rightHeld)
    exact ThreadId.raw_injective (leftOwner.symm.trans rightOwner)
  owner thread := (owned.threads thread).owner_iff
  counted thread := (owned.threads thread).counted

/-- `unlock` finds a guard to count down, and a thread whose last guard is dropped goes
on, at each of its steps, until the owner word is zero. -/
structure FreesLock (debugAssertions : Bool) (state : LockState) : Prop where
  nonzero : ∀ thread, state.pc thread = .unlockFetchSub → 0 < state.depth
  asserted : ∀ thread next, SignalStep debugAssertions state thread next →
    state.pc thread = .unlockAssertOwner → next.pc thread = .unlockFetchSub
  counted : ∀ thread next, SignalStep debugAssertions state thread next →
    state.pc thread = .unlockFetchSub → state.guards thread = 0 →
    next.pc thread = .unlockStoreOwner ∧ next.depth = 0
  freed : ∀ thread next, SignalStep debugAssertions state thread next →
    state.pc thread = .unlockStoreOwner → next.owner = 0 ∧ next.depth = 0
  moves : ∀ thread, state.pc thread = .unlockAssertOwner ∨ state.pc thread = .unlockFetchSub ∨
    state.pc thread = .unlockStoreOwner → ∃ next, SignalStep debugAssertions state thread next

theorem Owned.freesLock {debugAssertions : Bool} {state : LockState} (owned : Owned state) :
    FreesLock debugAssertions state where
  nonzero thread at_ := by
    have mine := owned.threads thread
    rw [at_] at mine
    exact mine.2 ▸ Nat.succ_pos _
  asserted thread next step at_ := by
    have mine := owned.threads thread
    rw [at_] at mine
    cases step with
    | interrupt sleeping => cases at_.symm.trans sleeping
    | access step =>
        cases step with
        | assertOwner _ _ => simp
        | assertOwnerFailed _ foreign => exact absurd mine.1 foreign
        | _ => simp_all
  counted thread next step at_ unheld := by
    have mine := owned.threads thread
    rw [at_, unheld] at mine
    obtain ⟨_, counted⟩ := mine
    cases step with
    | interrupt sleeping => cases at_.symm.trans sleeping
    | access step =>
        cases step with
        | fetchSub _ =>
            refine ⟨?_, ?_⟩
            · simp [counted]
            · rw [LockState.setPc_depth]
              change LockState.wrappingDecrement state.depth = 0
              rw [counted]
              exact wrappingDecrement_succ (counted ▸ owned.bounded)
        | _ => simp_all
  freed thread next step at_ := by
    have mine := owned.threads thread
    rw [at_] at mine
    cases step with
    | interrupt sleeping => cases at_.symm.trans sleeping
    | access step =>
        cases step with
        | storeOwner _ => exact ⟨rfl, mine.2.2⟩
        | _ => simp_all
  moves thread at_ := by
    rcases at_ with at_ | at_ | at_
    · have mine := owned.threads thread
      rw [at_] at mine
      exact ⟨_, .access (.assertOwner at_ mine.1)⟩
    · exact ⟨_, .access (.fetchSub at_)⟩
    · exact ⟨_, .access (.storeOwner at_)⟩

section

variable {Thread : Type}

theorem StdOwnership.owner_iff {owner : Option Thread} {depth guards : Nat} {thread : Thread}
    {pc : StdPc} (owned : StdOwnership owner depth guards thread pc) :
    owner = some thread ↔ 0 < guards ∨ pc = .unlockState := by
  cases pc with
  | outside | lockState =>
      rcases owned with ⟨unheld, foreign⟩ | ⟨held, taken, _⟩
      · simp [unheld, foreign]
      · simp [held, taken]
  | waiting =>
      obtain ⟨unheld, foreign⟩ := owned
      simp [unheld, foreign]
  | unlockState => simp [owned.1]
  | panicked => simp [owned.1, owned.2.1]

theorem StdOwnership.counted {owner : Option Thread} {depth guards : Nat} {thread : Thread}
    {pc : StdPc} (owned : StdOwnership owner depth guards thread pc) (held : 0 < guards)
    (settled : ¬ pc = .unlockState) : depth = guards := by
  cases pc with
  | outside | lockState =>
      rcases owned with ⟨unheld, _⟩ | ⟨_, _, counted⟩
      · exact absurd unheld (Nat.ne_of_gt held)
      · exact counted
  | waiting => exact absurd owned.1 (Nat.ne_of_gt held)
  | unlockState => exact absurd rfl settled
  | panicked => exact owned.2.2

theorem StdOwned.reentrant {state : StdLockState Thread} (owned : StdOwned state) :
    Reentrant (fun thread => state.owner = some thread)
      (fun thread => state.pc thread = .unlockState) state.depth state.guards where
  exclusive left right leftHeld rightHeld := by
    have leftOwner := (owned.threads left).owner_iff.mpr (.inl leftHeld)
    have rightOwner := (owned.threads right).owner_iff.mpr (.inl rightHeld)
    exact Option.some.inj (leftOwner.symm.trans rightOwner)
  owner thread := (owned.threads thread).owner_iff
  counted thread := (owned.threads thread).counted

variable [DecidableEq Thread]

/-- The same for the critical section of `unlock`. -/
structure FreesStdLock (debugAssertions : Bool) (state : StdLockState Thread) : Prop where
  nonzero : ∀ thread, state.pc thread = .unlockState → 0 < state.depth
  freed : ∀ thread next, StdStep debugAssertions state thread next →
    state.pc thread = .unlockState → state.guards thread = 0 →
    next.owner = none ∧ next.depth = 0
  moves : ∀ thread, state.pc thread = .unlockState →
    ∃ next, StdStep debugAssertions state thread next

theorem StdOwned.freesStdLock {debugAssertions : Bool} {state : StdLockState Thread}
    (owned : StdOwned state) : FreesStdLock debugAssertions state where
  nonzero thread at_ := by
    have mine := owned.threads thread
    rw [at_] at mine
    exact mine.2 ▸ Nat.succ_pos _
  freed thread next step at_ unheld := by
    obtain ⟨taken, counted⟩ := owned.releasing at_
    rw [unheld] at counted
    cases step with
    | assertOwnerFailed _ _ foreign => exact absurd taken foreign
    | releaseUnderflow _ _ underflow => cases counted.symm.trans underflow
    | release _ _ decremented => cases counted.symm.trans decremented
    | releaseLast _ _ _ _ => exact ⟨rfl, rfl⟩
    | releaseLastNone _ _ _ _ => exact ⟨rfl, rfl⟩
    | _ => simp_all
  moves thread at_ := by
    obtain ⟨taken, counted⟩ := owned.releasing at_
    cases remaining : state.guards thread with
    | zero =>
        rw [remaining] at counted
        by_cases waiting : ∃ sleeper, state.pc sleeper = .waiting
        · obtain ⟨sleeper, sleeping⟩ := waiting
          exact ⟨_, .releaseLast at_ (fun _ => taken) counted sleeping⟩
        · exact ⟨_, .releaseLastNone at_ (fun _ => taken) counted
            fun other sleeping => waiting ⟨other, sleeping⟩⟩
    | succ left =>
        rw [remaining] at counted
        exact ⟨_, .release at_ (fun _ => taken) counted⟩

end

/-- Both locks, with and without debug assertions, for any number of threads. -/
theorem loader_lock_reentrant (debugAssertions : Bool) (Thread : Type) [DecidableEq Thread] :
    (∀ state, (signalLockSystem debugAssertions).Reachable state →
      Reentrant (fun thread : ThreadId => state.owner = thread.raw)
        (fun thread => (state.pc thread).between = true) state.depth state.guards ∧
      FreesLock debugAssertions state) ∧
    ∀ state, (stdLockSystem Thread debugAssertions).Reachable state →
      Reentrant (fun thread => state.owner = some thread)
        (fun thread => state.pc thread = .unlockState) state.depth state.guards ∧
      FreesStdLock debugAssertions state := by
  constructor
  · intro state reached
    have owned := (owned_signal_inductive debugAssertions).reachable reached
    exact ⟨owned.reentrant, owned.freesLock⟩
  · intro state reached
    have owned := (stdOwned_inductive debugAssertions).reachable reached
    exact ⟨owned.reentrant, owned.freesStdLock⟩

/-- `holder` takes each lock twice: it owns them, and no other thread holds a guard. -/
theorem loader_lock_reentrant_nested :
    (∃ state, (signalLockSystem true).Reachable state ∧ state.guards holder = 2 ∧
      state.owner = holder.raw ∧ ∀ other, 0 < state.guards other → other = holder) ∧
    ∃ state, (stdLockSystem ThreadId true).Reachable state ∧ state.guards holder = 2 ∧
      state.depth = 2 ∧ ∀ other, 0 < state.guards other → other = holder := by
  constructor
  · have step {state next : LockState} (reached : (signalLockSystem true).Reachable state)
        (taken : Step true state holder next) : (signalLockSystem true).Reachable next :=
      reached.next (.access taken)
    have entered := step (.start rfl) (.lock rfl)
    have read := step entered (.load rfl)
    have exchanged := step read (.compareExchange rfl rfl)
    have acquired := step exchanged (.storeDepth rfl)
    have again := step acquired (.lock rfl)
    have readAgain := step again (.load rfl)
    have twice := step readAgain (.fetchUpdate rfl rfl)
    have promised := (loader_lock_reentrant true ThreadId).1 _ twice
    refine ⟨_, twice, rfl, rfl, fun other held => ?_⟩
    exact promised.1.exclusive other holder held (by decide)
  · have step {state next : StdLockState ThreadId}
        (reached : (stdLockSystem ThreadId true).Reachable state)
        (taken : StdStep true state holder next) :
        (stdLockSystem ThreadId true).Reachable next := reached.next taken
    have free : ∀ other, (none : Option ThreadId) = some other → other = holder := by
      intro other named
      cases named
    have own : ∀ other, some holder = some other → other = holder := by
      intro other named
      exact (Option.some.inj named).symm
    have entered := step (.start rfl) (.lock rfl)
    have acquired := step entered (.acquire rfl free rfl)
    have again := step acquired (.lock rfl)
    have twice := step again (.acquire rfl own rfl)
    have promised := (loader_lock_reentrant true ThreadId).2 _ twice
    refine ⟨_, twice, rfl, ?_, fun other held => ?_⟩
    · exact promised.1.counted holder (by decide) (by decide)
    · exact promised.1.exclusive other holder held (by decide)

end DynLinker.Sync
