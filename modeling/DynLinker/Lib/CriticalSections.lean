import DynLinker.Lib.TransitionSystem
import Mathlib.Data.List.Induction

/-! Data that threads access only while they hold a guard of a lock. Whatever the steps of
the lock interleave with, the accesses are those of whole critical sections, one section
after the other in the order in which the lock was taken. -/

set_option autoImplicit false

namespace DynLinker.Lib

universe u v w x

/-- A lock as a transition system over threads, with the number of guards of each. -/
structure GuardedLock (Lock : Type u) (Thread : Type v) where
  system : TransitionSystem Lock Thread
  guards : Lock → Thread → Nat

namespace GuardedLock

variable {Lock : Type u} {Thread : Type v}

/-- A step changes the guards of its own thread only, and one thread at most has any. -/
structure Exclusive (lock : GuardedLock Lock Thread) : Prop where
  fresh : ∀ state, lock.system.initial state → ∀ thread, lock.guards state thread = 0
  own : ∀ state thread next, lock.system.step state thread next → ∀ other, other ≠ thread →
    lock.guards next other = lock.guards state other
  exclusive : ∀ state, lock.system.Reachable state → ∀ left right,
    0 < lock.guards state left → 0 < lock.guards state right → left = right

end GuardedLock

/-- What the lock protects. `idle` says of a thread that nothing of the data outlives its
guards: whoever drops the last one is idle. -/
structure Protected (Data : Type w) (Thread : Type v) (Access : Type x) where
  system : TransitionSystem Data (Thread × Access)
  idle : Data → Thread → Prop

namespace Protected

variable {Data : Type w} {Thread : Type v} {Access : Type x}

/-- An access leaves the other threads idle. -/
structure Local (data : Protected Data Thread Access) : Prop where
  fresh : ∀ state, data.system.initial state → ∀ thread, data.idle state thread
  other : ∀ state thread access next, data.system.step state (thread, access) next →
    ∀ other, other ≠ thread → data.idle state other → data.idle next other

end Protected

/-- The lock, the data, the threads that have taken the lock and the accesses so far. -/
structure Session (Lock : Type u) (Data : Type w) (Thread : Type v) (Access : Type x) where
  lock : Lock
  data : Data
  taken : List Thread
  accesses : List (Thread × Access)

namespace Session

variable {Lock : Type u} {Data : Type w} {Thread : Type v} {Access : Type x}

/-- One step of a thread: a step of the lock, or an access under a guard. -/
inductive Step (lock : GuardedLock Lock Thread) (data : Protected Data Thread Access) :
    Session Lock Data Thread Access → Thread → Session Lock Data Thread Access → Prop where
  | take {session : Session Lock Data Thread Access} {next : Lock} (thread : Thread) :
      lock.system.step session.lock thread next →
      lock.guards session.lock thread = 0 → 0 < lock.guards next thread →
      Step lock data session thread
        { session with lock := next, taken := session.taken ++ [thread] }
  | turn {session : Session Lock Data Thread Access} {next : Lock} (thread : Thread) :
      lock.system.step session.lock thread next →
      (0 < lock.guards next thread → 0 < lock.guards session.lock thread) →
      (lock.guards next thread = 0 → data.idle session.data thread) →
      Step lock data session thread { session with lock := next }
  | access {session : Session Lock Data Thread Access} {access : Access} {next : Data}
      (thread : Thread) :
      0 < lock.guards session.lock thread →
      data.system.step session.data (thread, access) next →
      Step lock data session thread
        { session with data := next, accesses := session.accesses ++ [(thread, access)] }

def system (lock : GuardedLock Lock Thread) (data : Protected Data Thread Access) :
    TransitionSystem (Session Lock Data Thread Access) Thread where
  initial session := lock.system.initial session.lock ∧ data.system.initial session.data ∧
    session.taken = [] ∧ session.accesses = []
  step := Step lock data

/-- The accesses of whole critical sections, one after the other. -/
def inOrder (sections : List (Thread × List Access)) : List (Thread × Access) :=
  sections.flatMap fun part => part.2.map (part.1, ·)

@[simp] theorem inOrder_nil : inOrder ([] : List (Thread × List Access)) = [] := rfl

@[simp] theorem inOrder_append (early late : List (Thread × List Access)) :
    inOrder (early ++ late) = inOrder early ++ inOrder late := by
  simp [inOrder]

@[simp] theorem inOrder_single (thread : Thread) (body : List Access) :
    inOrder [(thread, body)] = body.map (thread, ·) := by
  simp [inOrder]

/-- One section for each time the lock was taken, in that order. Only the thread of the
last section can hold the lock, so what is accessed next belongs to that section. -/
structure Serial (lock : GuardedLock Lock Thread) (data : Protected Data Thread Access)
    (session : Session Lock Data Thread Access) : Prop where
  locked : lock.system.Reachable session.lock
  ran : ∃ start, data.system.initial start ∧
    data.system.Run start session.accesses session.data
  ordered : ∃ sections : List (Thread × List Access),
    sections.map Prod.fst = session.taken ∧ inOrder sections = session.accesses
  last : ∀ thread, 0 < lock.guards session.lock thread → session.taken.getLast? = some thread
  idle : ∀ thread, lock.guards session.lock thread = 0 → data.idle session.data thread

variable {lock : GuardedLock Lock Thread} {data : Protected Data Thread Access}
variable {session next : Session Lock Data Thread Access} {thread : Thread}

/-- An access of the last section's thread extends that section. -/
theorem ordered_access {taken : List Thread} {accesses : List (Thread × Access)}
    (ordered : ∃ sections : List (Thread × List Access),
      sections.map Prod.fst = taken ∧ inOrder sections = accesses)
    (last : taken.getLast? = some thread) (access : Access) :
    ∃ sections : List (Thread × List Access),
      sections.map Prod.fst = taken ∧ inOrder sections = accesses ++ [(thread, access)] := by
  obtain ⟨sections, threads, whole⟩ := ordered
  cases sections using List.reverseRecOn with
  | nil =>
      subst threads
      cases last
  | append_singleton early final =>
      obtain ⟨owner, body⟩ := final
      have same : owner = thread := by
        subst threads
        simpa using last
      subst same
      refine ⟨early ++ [(owner, body ++ [access])], ?_, ?_⟩
      · simpa using threads
      · rw [← whole]
        simp

theorem Serial.step (exclusive : lock.Exclusive) (local_ : data.Local)
    (serial : Serial lock data session) (step : Step lock data session thread next) :
    Serial lock data next := by
  cases step with
  | take _ moved free held =>
      have reached := serial.locked.next moved
      obtain ⟨sections, threads, whole⟩ := serial.ordered
      refine ⟨reached, serial.ran, ⟨sections ++ [(thread, [])], ?_, ?_⟩, ?_, ?_⟩
      · simp [threads]
      · simp [whole]
      · intro other holds
        have same := exclusive.exclusive _ reached other thread holds held
        simp [same]
      · intro other unheld
        have different : other ≠ thread := by
          intro same
          subst same
          exact absurd unheld (Nat.ne_of_gt held)
        rw [exclusive.own _ _ _ moved other different] at unheld
        exact serial.idle other unheld
  | turn _ moved kept leaves =>
      refine ⟨serial.locked.next moved, serial.ran, serial.ordered, ?_, ?_⟩
      · intro other holds
        by_cases same : other = thread
        · subst same
          exact serial.last other (kept holds)
        · rw [exclusive.own _ _ _ moved other same] at holds
          exact serial.last other holds
      · intro other unheld
        by_cases same : other = thread
        · subst same
          exact leaves unheld
        · rw [exclusive.own _ _ _ moved other same] at unheld
          exact serial.idle other unheld
  | access _ held changed =>
      obtain ⟨start, initial, run⟩ := serial.ran
      refine ⟨serial.locked, ⟨start, initial, run.snoc changed⟩,
        ordered_access serial.ordered (serial.last thread held) _, serial.last, ?_⟩
      intro other unheld
      have different : other ≠ thread := by
        intro same
        subst same
        exact absurd unheld (Nat.ne_of_gt held)
      exact local_.other _ _ _ _ changed other different (serial.idle other unheld)

theorem serial_inductive (exclusive : lock.Exclusive) (local_ : data.Local) :
    (system lock data).Inductive (Serial lock data) where
  initially session initial := by
    obtain ⟨locked, fresh, taken, accesses⟩ := initial
    refine ⟨.start locked, ⟨session.data, fresh, ?_⟩, ⟨[], ?_, ?_⟩, ?_, ?_⟩
    · rw [accesses]
      exact .refl
    · simp [taken]
    · simp [accesses]
    · intro thread held
      exact absurd (exclusive.fresh _ locked thread) (Nat.ne_of_gt held)
    · intro thread _
      exact local_.fresh _ fresh thread
  preserved _ _ _ serial step := serial.step exclusive local_ step

/-- Only the holder of the lock is ever not idle. -/
theorem Serial.holder (serial : Serial lock data session)
    (busy : ¬ data.idle session.data thread) : 0 < lock.guards session.lock thread := by
  rcases Nat.eq_zero_or_pos (lock.guards session.lock thread) with unheld | held
  · exact absurd (serial.idle thread unheld) busy
  · exact held

end Session

end DynLinker.Lib
