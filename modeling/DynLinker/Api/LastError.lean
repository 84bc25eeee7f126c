import DynLinker.Api.DlError
import DynLinker.Error

/-! What `dlerror` tells about the last call (`api/dlopen.rs`, `api/dlsym.rs`,
`api/mod.rs`). A call clears the pending error when it is entered and sets it when it
fails; constructors, finalizers and resolvers run in between, on the same thread, and make
calls of their own. -/

set_option autoImplicit false

namespace DynLinker.Api

open Lib

/-- A call with the arguments that its messages depend on. A name is what the C string
holds, and a missing name is the null pointer. -/
inductive Call where
  | dlopen (filename : Option Bytes)
  | dlsym (symbolName : Option Bytes)
  | dlclose (handle : Nat)
deriving DecidableEq

/-- What the registry answered: `open_main` or `open_file`, one of the symbol searches, or
`release_handle`. -/
inductive Answer where
  | opened (result : Except Error Unit)
  | found (symbol : Option Nat)
  | released (known : Bool)

namespace Answer

def failed : Answer → Bool
  | .opened (.error _) => true
  | .opened (.ok _) => false
  | .found symbol => symbol.isNone
  | .released known => !known

end Answer

namespace Call

/-- The message of a call that fails before it reaches the registry. -/
def refused : Call → Option Bytes
  | .dlopen none => none
  | .dlopen (some filename) =>
      if utf8Valid filename then none else some (ascii "library name is not valid UTF-8")
  | .dlsym none => some (ascii "symbol name is null")
  | .dlsym (some name) =>
      if utf8Valid name then none else some (ascii "symbol name is not valid UTF-8")
  | .dlclose handle => if handle = 0 then some (ascii "invalid library handle") else none

/-- The message that a call ends with, if it fails. `open_main` has no error, and an answer
of another kind ends nothing. -/
def finish : Call → Answer → Option (Option Bytes)
  | .dlopen _, .opened (.ok _) => some none
  | .dlopen (some _), .opened (.error error) => some (some error.display.toUTF8.data.toList)
  | .dlsym (some _), .found (some _) => some none
  | .dlsym (some name), .found none => some (some (ascii "can not find symbol:" ++ name))
  | .dlclose _, .released true => some none
  | .dlclose _, .released false => some (some (ascii "invalid library handle"))
  | _, _ => none

end Call

inductive CallEvent where
  | enter (thread : Thread) (call : Call)
  | leave (thread : Thread) (answer : Answer)
  | dlerror (thread : Thread)

namespace CallEvent

def thread : CallEvent → Thread
  | .enter thread _ => thread
  | .leave thread _ => thread
  | .dlerror thread => thread

/-- The event is a call that returns failure. -/
def fails : CallEvent → Bool
  | .enter _ call => call.refused.isSome
  | .leave _ answer => answer.failed
  | .dlerror _ => false

/-- The event is a call that returns success. -/
def succeeds : CallEvent → Bool
  | .enter _ _ => false
  | .leave _ answer => !answer.failed
  | .dlerror _ => false

end CallEvent

/-- The pending errors, and the calls that each thread is in, the innermost first. -/
structure CallWorld where
  errors : StdErrors
  frames : Nat → List Call

namespace CallWorld

def initial : CallWorld := ⟨.initial, fun _ => []⟩

def enter (world : CallWorld) (thread : Thread) (call : Call) : CallWorld :=
  let errors := world.errors.clear thread
  match call.refused with
  | some text => { world with errors := errors.set thread text }
  | none =>
      { errors := errors
        frames := Function.update world.frames thread.id (call :: world.frames thread.id) }

/-- A call that succeeds leaves the pending error as it is. -/
def report (world : CallWorld) (thread : Thread) : Option Bytes → StdErrors
  | none => world.errors
  | some text => world.errors.set thread text

def leave (world : CallWorld) (thread : Thread) (answer : Answer) : Option CallWorld :=
  match world.frames thread.id with
  | [] => none
  | call :: outer => (call.finish answer).map fun message =>
      { errors := world.report thread message
        frames := Function.update world.frames thread.id outer }

def act (world : CallWorld) : CallEvent → Option CallWorld
  | .enter thread call => some (world.enter thread call)
  | .leave thread answer => world.leave thread answer
  | .dlerror thread => some { world with errors := (world.errors.take thread).2 }

/-- The threads take their events in any order. -/
def system : TransitionSystem CallWorld CallEvent where
  initial world := world = initial
  step world event next := world.act event = some next

/-- What `dlerror` answers. -/
def told (world : CallWorld) (thread : Thread) : Option CString := (world.errors.take thread).1

/-- The thread that returns from a call with this event, and the message if it fails. -/
def returned (world : CallWorld) : CallEvent → Option (Thread × Option CString)
  | .enter thread call => call.refused.map fun text => (thread, some (errorMessage text))
  | .leave thread answer =>
      (world.frames thread.id).head?.bind fun call =>
        (call.finish answer).map fun message => (thread, message.map errorMessage)
  | .dlerror _ => none

/-- The next `dlerror` of the thread answers this message and the one after it null,
whatever other threads do in between. -/
def Describes (world : CallWorld) (thread : Thread) (message : Option CString) : Prop :=
  ∀ between settled, system.Run world between settled →
    (∀ event ∈ between, event.thread.id ≠ thread.id) →
    settled.told thread = message ∧
    ∀ read later finish, settled.act (.dlerror thread) = some read →
      system.Run read later finish → (∀ event ∈ later, event.thread.id ≠ thread.id) →
      finish.told thread = none

end CallWorld

/-- Apart from the calls that returned success, the last thing that the thread did was a
call that failed. -/
def lastFailed (thread : Thread) (history : List CallEvent) : Bool :=
  (history.filter fun event =>
    event.thread.id = thread.id ∧ event.succeeds = false).getLast?.any CallEvent.fails

theorem lastFailed_snoc_own {thread : Thread} {history : List CallEvent} {event : CallEvent}
    (own : event.thread.id = thread.id) (notSuccess : event.succeeds = false) :
    lastFailed thread (history ++ [event]) = event.fails := by
  simp [lastFailed, own, notSuccess]

theorem lastFailed_snoc_success {thread : Thread} {history : List CallEvent} {event : CallEvent}
    (success : event.succeeds = true) :
    lastFailed thread (history ++ [event]) = lastFailed thread history := by
  simp [lastFailed, success]

theorem lastFailed_snoc_other {thread : Thread} {history : List CallEvent} {event : CallEvent}
    (other : event.thread.id ≠ thread.id) :
    lastFailed thread (history ++ [event]) = lastFailed thread history := by
  simp [lastFailed, other]

namespace Call

theorem finish_failed {call : Call} {answer : Answer} {message : Option Bytes}
    (finished : call.finish answer = some message) : answer.failed = message.isSome := by
  rw [finish.eq_def] at finished
  split at finished
  all_goals
    cases finished
    try rfl

end Call

namespace CallWorld

variable {world after : CallWorld} {event : CallEvent} {thread : Thread}

theorem told_eq (world : CallWorld) (thread : Thread) :
    world.told thread = (world.errors thread.id).pending :=
  rfl

theorem leave_cases {answer : Answer} (left : world.leave thread answer = some after) :
    ∃ call outer message, world.frames thread.id = call :: outer ∧
      call.finish answer = some message ∧ after.errors = world.report thread message := by
  rw [leave] at left
  split at left
  · cases left
  · next call outer active =>
      obtain ⟨message, finished, rfl⟩ := Option.map_eq_some_iff.mp left
      exact ⟨call, outer, message, active, finished, rfl⟩

/-- An event changes nothing but the error of its own thread. -/
theorem act_other (acted : world.act event = some after) (other : event.thread.id ≠ thread.id) :
    after.told thread = world.told thread := by
  rw [told_eq, told_eq]
  have different : thread.id ≠ event.thread.id := fun same => other same.symm
  cases event with
  | enter owner call =>
      cases acted
      have mine : thread.id ≠ owner.id := different
      rw [enter]
      split
      · simp [StdErrors.set, StdErrors.clear, mine]
      · simp [StdErrors.clear, mine]
  | leave owner answer =>
      obtain ⟨call, outer, message, _, _, reported⟩ := leave_cases acted
      have mine : thread.id ≠ owner.id := different
      rw [reported]
      cases message with
      | none => rfl
      | some text => simp [report, StdErrors.set, mine]
  | dlerror owner =>
      cases acted
      have mine : thread.id ≠ owner.id := different
      simp [StdErrors.take, mine]

theorem run_other {between : List CallEvent} (run : system.Run world between after)
    (others : ∀ event ∈ between, event.thread.id ≠ thread.id) :
    after.told thread = world.told thread := by
  induction run with
  | refl => rfl
  | snoc _ step ih =>
      rw [act_other step (others _ (by simp))]
      exact ih fun event member => others event (List.mem_append_left _ member)

theorem dlerror_told (acted : world.act (.dlerror thread) = some after) :
    after.told thread = none := by
  cases acted
  simp [told_eq, StdErrors.take, DlErrorState.take]

/-- Only the state right after the return matters. -/
theorem describes_iff {message : Option CString} :
    world.Describes thread message ↔ world.told thread = message := by
  constructor
  · intro describes
    exact (describes [] world .refl (by simp)).1
  · intro told between settled run others
    refine ⟨(run_other run others).trans told, ?_⟩
    intro read later finish acted run others
    exact (run_other run others).trans (dlerror_told acted)

/-- A call that is entered without being refused leaves no error pending. -/
theorem enter_told (call : Call) :
    (world.enter thread call).told thread = call.refused.map errorMessage := by
  rw [enter]
  cases refused : call.refused with
  | none => simp [told_eq, StdErrors.clear, DlErrorState.new]
  | some text => simp [told_eq, StdErrors.set, DlErrorState.withError]

theorem report_pending (world : CallWorld) (thread : Thread) (message : Option Bytes) :
    (world.report thread message thread.id).pending =
      (message.map errorMessage).or (world.told thread) := by
  cases message with
  | none => rfl
  | some text => simp [report, StdErrors.set, DlErrorState.withError]

/-- A successful call leaves its thread's error as it is; after any other event there is one
exactly if the event is a failed call. -/
theorem act_own (acted : world.act event = some after) :
    (after.told event.thread).isSome =
      if event.succeeds then (world.told event.thread).isSome else event.fails := by
  cases event with
  | enter owner call =>
      cases acted
      change ((world.enter owner call).told owner).isSome = call.refused.isSome
      rw [enter_told, Option.isSome_map]
  | leave owner answer =>
      obtain ⟨call, outer, message, _, finished, reported⟩ := leave_cases acted
      have failed := Call.finish_failed finished
      rw [told_eq, reported]
      change (world.report owner message owner.id).pending.isSome = _
      rw [report_pending]
      cases message with
      | none => simp [CallEvent.succeeds, CallEvent.thread, failed]
      | some text => simp [CallEvent.succeeds, CallEvent.fails, failed]
  | dlerror owner =>
      change (after.told owner).isSome = false
      rw [dlerror_told acted]
      rfl

/-- An error is pending exactly when the last thing that its thread did, apart from
successful calls, was to fail. -/
theorem told_isSome {history : List CallEvent} (run : system.Run initial history world)
    (thread : Thread) : (world.told thread).isSome = lastFailed thread history := by
  induction run with
  | refl => rfl
  | @snoc before after history event _ step ih =>
      by_cases own : event.thread.id = thread.id
      · have entry : ∀ world : CallWorld, world.told thread = world.told event.thread := by
          intro world
          rw [told_eq, told_eq, own]
        rw [entry after, act_own step, ← entry before, ih]
        cases success : event.succeeds with
        | true => exact (lastFailed_snoc_success success).symm
        | false => exact (lastFailed_snoc_own own success).symm
      · rw [act_other step own, lastFailed_snoc_other own]
        exact ih

/-- A call that fails tells its own message; one that succeeds leaves what was pending. -/
theorem returned_told {message : Option CString} (step : world.act event = some after)
    (returned : world.returned event = some (thread, message)) :
    after.told thread = message.or (world.told thread) := by
  cases event with
  | enter owner call =>
      obtain ⟨text, refused, same⟩ := Option.map_eq_some_iff.mp returned
      cases same
      cases step
      rw [enter_told, refused]
      rfl
  | leave owner answer =>
      obtain ⟨call, outer, message, active, finished, reported⟩ := leave_cases step
      rw [CallWorld.returned, active] at returned
      simp only [List.head?_cons, Option.bind_some, finished, Option.map_some,
        Option.some.injEq, Prod.mk.injEq] at returned
      obtain ⟨rfl, rfl⟩ := returned
      rw [told_eq, reported, report_pending]
  | dlerror owner => cases returned

end CallWorld

open CallWorld

/-- In every run, a call that returns failure is described by its own message, and a call
that returns success is described by null exactly when no call that failed inside it was
the last thing its thread did. -/
theorem dlerror_describes_iff {history : List CallEvent} {world after : CallWorld}
    {event : CallEvent} {thread : Thread} {message : Option CString}
    (run : system.Run initial history world) (step : system.step world event after)
    (returned : world.returned event = some (thread, message)) :
    after.Describes thread message ↔ (message = none → lastFailed thread history = false) := by
  rw [describes_iff, returned_told step returned, ← told_isSome run thread]
  cases message with
  | none => simp
  | some error => simp

/-- A constructor looks for a symbol that does not exist while its library is opened. -/
def failsInside (thread : Thread) : List CallEvent :=
  [.enter thread (.dlopen (some (ascii "libplugin.so"))),
   .enter thread (.dlsym (some (ascii "missing"))), .leave thread (.found none)]

def mainThread : Thread := ⟨1, 0x1000⟩

def opens (thread : Thread) : CallEvent := .leave thread (.opened (.ok ()))

/-- The world after a history, with what the end of the open returns and leaves pending. -/
theorem opens_of_evaluated (history : List CallEvent)
    (answer : Option (Thread × Option CString) × Option (Option CString))
    (evaluated : (TransitionSystem.runLabels act initial history).map (fun world =>
      (world.returned (opens mainThread),
        (world.act (opens mainThread)).map fun after => after.told mainThread)) = some answer) :
    ∃ world, system.Run initial history world ∧
      world.returned (opens mainThread) = answer.1 ∧
      (world.act (opens mainThread)).map (fun after => after.told mainThread) = answer.2 := by
  obtain ⟨world, ran, rfl⟩ := Option.map_eq_some_iff.mp evaluated
  have run : system.Run initial ([] ++ history) world :=
    TransitionSystem.Run.runLabels (fun _ _ _ acted => acted) .refl ran
  exact ⟨world, run, rfl, rfl⟩

/-- The constructor reads the error itself. -/
theorem dlerror_describes_iff_read :
    ∃ world after,
      system.Run initial (failsInside mainThread ++ [.dlerror mainThread]) world ∧
      world.act (opens mainThread) = some after ∧
      world.returned (opens mainThread) = some (mainThread, none) ∧
      after.Describes mainThread none := by
  obtain ⟨world, run, returned, acted⟩ :=
    opens_of_evaluated
      (failsInside mainThread ++ [.dlerror mainThread]) (some (mainThread, none), some none)
      (by decide +kernel)
  obtain ⟨after, step, _⟩ := Option.map_eq_some_iff.mp acted
  exact ⟨world, after, run, step, returned,
    (dlerror_describes_iff run step returned).mpr fun _ => by decide +kernel⟩

/-- The open succeeds and `dlerror` tells what the constructor missed. -/
theorem nested_failure_outlives_open :
    ∃ world after, system.Run initial (failsInside mainThread) world ∧
      world.act (opens mainThread) = some after ∧
      world.returned (opens mainThread) = some (mainThread, none) ∧
      after.told mainThread = some (errorMessage (ascii "can not find symbol:missing")) ∧
      ¬ after.Describes mainThread none := by
  obtain ⟨world, run, returned, acted⟩ :=
    opens_of_evaluated (failsInside mainThread)
      (some (mainThread, none), some (some (errorMessage (ascii "can not find symbol:missing"))))
      (by decide +kernel)
  obtain ⟨after, step, told⟩ := Option.map_eq_some_iff.mp acted
  refine ⟨world, after, run, step, returned, told, ?_⟩
  rw [describes_iff, told]
  simp

end DynLinker.Api
