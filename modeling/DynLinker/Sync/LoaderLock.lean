import DynLinker.Lib.TransitionSystem
import Mathlib.Algebra.Group.Nat.Defs

/-! The re-entrant loader lock of the build without the standard library
(`registry/loader_lock.rs`). Every atomic access of `lock` and `unlock` and
every futex call is one step; a branch on a value already read belongs to the
step that read it. -/

set_option autoImplicit false

namespace DynLinker.Sync

open Lib

/-- A kernel thread identifier. `LoaderLock::current_thread` asserts that it is
not zero, the value of the owner word of a free lock. -/
structure ThreadId where
  raw : UInt32
  nonzero : raw ≠ 0
deriving DecidableEq

/-- The number of values of the `depth` counter, a 64-bit `usize`. -/
def usizeCount : Nat := 2 ^ 64

/-- The next atomic access of a thread. -/
inductive Pc where
  | outside
  | lockLoad
  | lockFetchUpdate
  | lockCompareExchange
  | lockStoreDepth
  | lockFutexWait (expected : UInt32)
  | lockAsleep (expected : UInt32)
  | unlockAssertOwner
  | unlockFetchSub
  | unlockStoreOwner
  | unlockFutexWake
  | panicked
deriving DecidableEq

/-- The thread runs code of `lock` or `unlock`. A sleeper does not run. -/
def Pc.executing : Pc → Bool
  | .outside | .lockAsleep _ | .panicked => false
  | .lockLoad | .lockFetchUpdate | .lockCompareExchange | .lockStoreDepth | .lockFutexWait _
  | .unlockAssertOwner | .unlockFetchSub | .unlockStoreOwner | .unlockFutexWake => true

def Pc.asleep : Pc → Bool
  | .lockAsleep _ => true
  | .outside | .lockLoad | .lockFetchUpdate | .lockCompareExchange | .lockStoreDepth
  | .lockFutexWait _ | .unlockAssertOwner | .unlockFetchSub | .unlockStoreOwner
  | .unlockFutexWake | .panicked => false

/-- The two words of the lock, and for each thread its next access and the
number of its `LoaderGuard`s. A guard is counted from the end of `lock` to the
start of `unlock`. -/
structure LockState where
  owner : UInt32
  depth : Nat
  pc : ThreadId → Pc
  guards : ThreadId → Nat

namespace LockState

def new : LockState where
  owner := 0
  depth := 0
  pc := fun _ => .outside
  guards := fun _ => 0

def setPc (state : LockState) (thread : ThreadId) (pc : Pc) : LockState :=
  { state with pc := Function.update state.pc thread pc }

def setGuards (state : LockState) (thread : ThreadId) (count : Nat) : LockState :=
  { state with guards := Function.update state.guards thread count }

def afterLoad (state : LockState) (thread : ThreadId) : Pc :=
  if state.owner = thread.raw then .lockFetchUpdate
  else if state.owner = 0 then .lockCompareExchange
  else .lockFutexWait state.owner

/-- The first access of `unlock`: the owner assertion exists in debug builds only. -/
def unlockEntry (debugAssertions : Bool) : Pc :=
  if debugAssertions then .unlockAssertOwner else .unlockFetchSub

def checkedIncrement (depth : Nat) : Option Nat :=
  if depth + 1 < usizeCount then some (depth + 1) else none

def wrappingDecrement (depth : Nat) : Nat :=
  (depth + (usizeCount - 1)) % usizeCount

end LockState

open LockState

inductive Step (debugAssertions : Bool) : LockState → ThreadId → LockState → Prop where
  | lock {state : LockState} {thread : ThreadId} :
      state.pc thread = .outside →
      Step debugAssertions state thread (state.setPc thread .lockLoad)
  | load {state : LockState} {thread : ThreadId} :
      state.pc thread = .lockLoad →
      Step debugAssertions state thread (state.setPc thread (state.afterLoad thread))
  | fetchUpdate {state : LockState} {thread : ThreadId} {depth : Nat} :
      state.pc thread = .lockFetchUpdate → checkedIncrement state.depth = some depth →
      Step debugAssertions state thread
        (({ state with depth := depth }.setGuards thread (state.guards thread + 1)).setPc
          thread .outside)
  | fetchUpdateOverflow {state : LockState} {thread : ThreadId} :
      state.pc thread = .lockFetchUpdate → checkedIncrement state.depth = none →
      Step debugAssertions state thread (state.setPc thread .panicked)
  | compareExchange {state : LockState} {thread : ThreadId} :
      state.pc thread = .lockCompareExchange → state.owner = 0 →
      Step debugAssertions state thread
        ({ state with owner := thread.raw }.setPc thread .lockStoreDepth)
  | compareExchangeFailed {state : LockState} {thread : ThreadId} :
      state.pc thread = .lockCompareExchange → state.owner ≠ 0 →
      -- The wait is still passed the zero that the load returned.
      Step debugAssertions state thread (state.setPc thread (.lockFutexWait 0))
  | storeDepth {state : LockState} {thread : ThreadId} :
      state.pc thread = .lockStoreDepth →
      Step debugAssertions state thread
        (({ state with depth := 1 }.setGuards thread (state.guards thread + 1)).setPc
          thread .outside)
  | futexWait {state : LockState} {thread : ThreadId} {expected : UInt32} :
      state.pc thread = .lockFutexWait expected → state.owner = expected →
      Step debugAssertions state thread (state.setPc thread (.lockAsleep expected))
  | futexWaitAgain {state : LockState} {thread : ThreadId} {expected : UInt32} :
      state.pc thread = .lockFutexWait expected → state.owner ≠ expected →
      Step debugAssertions state thread (state.setPc thread .lockLoad)
  | unlock {state : LockState} {thread : ThreadId} {count : Nat} :
      state.pc thread = .outside → state.guards thread = count + 1 →
      Step debugAssertions state thread
        ((state.setGuards thread count).setPc thread (unlockEntry debugAssertions))
  | assertOwner {state : LockState} {thread : ThreadId} :
      state.pc thread = .unlockAssertOwner → state.owner = thread.raw →
      Step debugAssertions state thread (state.setPc thread .unlockFetchSub)
  | assertOwnerFailed {state : LockState} {thread : ThreadId} :
      state.pc thread = .unlockAssertOwner → state.owner ≠ thread.raw →
      Step debugAssertions state thread (state.setPc thread .panicked)
  | fetchSub {state : LockState} {thread : ThreadId} :
      state.pc thread = .unlockFetchSub →
      Step debugAssertions state thread
        ({ state with depth := wrappingDecrement state.depth }.setPc thread
          (if debugAssertions = true ∧ state.depth = 0 then .panicked
           else if state.depth = 1 then .unlockStoreOwner else .outside))
  | storeOwner {state : LockState} {thread : ThreadId} :
      state.pc thread = .unlockStoreOwner →
      Step debugAssertions state thread
        ({ state with owner := 0 }.setPc thread .unlockFutexWake)
  | futexWake {state : LockState} {thread sleeper : ThreadId} {expected : UInt32} :
      state.pc thread = .unlockFutexWake → state.pc sleeper = .lockAsleep expected →
      Step debugAssertions state thread
        ((state.setPc sleeper .lockLoad).setPc thread .outside)
  | futexWakeNone {state : LockState} {thread : ThreadId} :
      state.pc thread = .unlockFutexWake → (∀ other, (state.pc other).asleep = false) →
      Step debugAssertions state thread (state.setPc thread .outside)

def lockSystem (debugAssertions : Bool) : TransitionSystem LockState ThreadId where
  initial state := state = .new
  step := Step debugAssertions

/-- The lock is free, a thread sleeps in `lock`, and no other thread runs `lock`
or `unlock`: nothing is left that could wake the sleeper. -/
def Stranded (state : LockState) : Prop :=
  state.owner = 0 ∧ ∃ sleeper, (state.pc sleeper).asleep = true ∧
    ∀ other, other ≠ sleeper → (state.pc other).executing = false

/-- The thread is not about to enter `FUTEX_WAIT` with the zero of a failed
compare-exchange while the owner word is zero again. -/
def WaitsOnOwner (state : LockState) (thread : ThreadId) : Prop :=
  ¬ (state.pc thread = .lockFutexWait 0 ∧ state.owner = 0)

end DynLinker.Sync
