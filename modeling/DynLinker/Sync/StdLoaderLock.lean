import DynLinker.Sync.LoaderLock

/-! The loader lock of the build with the standard library (`registry/loader_lock.rs`):
the owner and the depth behind a mutex, and a condition variable for the threads that
have to wait. One critical section of the mutex is one step. -/

set_option autoImplicit false

namespace DynLinker.Sync

open Lib

/-- The next critical section of a thread. `waiting` is inside `Condvar::wait`. -/
inductive StdPc where
  | outside
  | lockState
  | waiting
  | unlockState
  | panicked
deriving DecidableEq

structure StdLockState (Thread : Type) where
  owner : Option Thread
  depth : Nat
  pc : Thread → StdPc
  guards : Thread → Nat

namespace StdLockState

variable {Thread : Type}

/-- `LockState::default` and no thread inside. -/
def new : StdLockState Thread where
  owner := none
  depth := 0
  pc := fun _ => .outside
  guards := fun _ => 0

/-- What `depth.checked_sub(1)` returns. -/
def checkedDecrement : Nat → Option Nat
  | 0 => none
  | depth + 1 => some depth

variable [DecidableEq Thread]

def setPc (state : StdLockState Thread) (thread : Thread) (pc : StdPc) : StdLockState Thread :=
  { state with pc := Function.update state.pc thread pc }

def setGuards (state : StdLockState Thread) (thread : Thread) (count : Nat) :
    StdLockState Thread :=
  { state with guards := Function.update state.guards thread count }

end StdLockState

open StdLockState

/-- One step of one thread. -/
inductive StdStep {Thread : Type} [DecidableEq Thread] (debugAssertions : Bool) :
    StdLockState Thread → Thread → StdLockState Thread → Prop where
  | lock {state : StdLockState Thread} {thread : Thread} :
      state.pc thread = .outside →
      StdStep debugAssertions state thread (state.setPc thread .lockState)
  | wait {state : StdLockState Thread} {thread other : Thread} :
      state.pc thread = .lockState → state.owner = some other → other ≠ thread →
      StdStep debugAssertions state thread (state.setPc thread .waiting)
  -- A waiting thread is also woken without a notification.
  | wake {state : StdLockState Thread} {thread : Thread} :
      state.pc thread = .waiting →
      StdStep debugAssertions state thread (state.setPc thread .lockState)
  | acquire {state : StdLockState Thread} {thread : Thread} {depth : Nat} :
      state.pc thread = .lockState → (∀ other, state.owner = some other → other = thread) →
      LockState.checkedIncrement state.depth = some depth →
      StdStep debugAssertions state thread
        (({ state with owner := some thread, depth := depth }.setGuards thread
          (state.guards thread + 1)).setPc thread .outside)
  | acquireOverflow {state : StdLockState Thread} {thread : Thread} :
      state.pc thread = .lockState → (∀ other, state.owner = some other → other = thread) →
      LockState.checkedIncrement state.depth = none →
      StdStep debugAssertions state thread
        ({ state with owner := some thread }.setPc thread .panicked)
  | unlock {state : StdLockState Thread} {thread : Thread} {count : Nat} :
      state.pc thread = .outside → state.guards thread = count + 1 →
      StdStep debugAssertions state thread
        ((state.setGuards thread count).setPc thread .unlockState)
  | assertOwnerFailed {state : StdLockState Thread} {thread : Thread} :
      state.pc thread = .unlockState → debugAssertions = true → state.owner ≠ some thread →
      StdStep debugAssertions state thread (state.setPc thread .panicked)
  | releaseUnderflow {state : StdLockState Thread} {thread : Thread} :
      state.pc thread = .unlockState → (debugAssertions = true → state.owner = some thread) →
      checkedDecrement state.depth = none →
      StdStep debugAssertions state thread (state.setPc thread .panicked)
  | release {state : StdLockState Thread} {thread : Thread} {depth : Nat} :
      state.pc thread = .unlockState → (debugAssertions = true → state.owner = some thread) →
      checkedDecrement state.depth = some (depth + 1) →
      StdStep debugAssertions state thread
        ({ state with depth := depth + 1 }.setPc thread .outside)
  | releaseLast {state : StdLockState Thread} {thread sleeper : Thread} :
      state.pc thread = .unlockState → (debugAssertions = true → state.owner = some thread) →
      checkedDecrement state.depth = some 0 → state.pc sleeper = .waiting →
      StdStep debugAssertions state thread
        (({ state with owner := none, depth := 0 }.setPc sleeper .lockState).setPc thread .outside)
  | releaseLastNone {state : StdLockState Thread} {thread : Thread} :
      state.pc thread = .unlockState → (debugAssertions = true → state.owner = some thread) →
      checkedDecrement state.depth = some 0 → (∀ other, state.pc other ≠ .waiting) →
      StdStep debugAssertions state thread
        ({ state with owner := none, depth := 0 }.setPc thread .outside)

def stdLockSystem (Thread : Type) [DecidableEq Thread] (debugAssertions : Bool) :
    TransitionSystem (StdLockState Thread) Thread where
  initial state := state = .new
  step := StdStep debugAssertions

/-- `FUTEX_WAIT` may also end by a signal. -/
inductive SignalStep (debugAssertions : Bool) : LockState → ThreadId → LockState → Prop where
  | access {state next : LockState} {thread : ThreadId} :
      Step debugAssertions state thread next → SignalStep debugAssertions state thread next
  | interrupt {state : LockState} {thread : ThreadId} {expected : UInt32} :
      state.pc thread = .lockAsleep expected →
      SignalStep debugAssertions state thread (state.setPc thread .lockLoad)

/-- The lock without the standard library, with sleepers that signals may wake. -/
def signalLockSystem (debugAssertions : Bool) : TransitionSystem LockState ThreadId where
  initial state := state = .new
  step := SignalStep debugAssertions

end DynLinker.Sync
