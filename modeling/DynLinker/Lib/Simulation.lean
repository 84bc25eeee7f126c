import DynLinker.Lib.Outcome
import DynLinker.Lib.TransitionSystem

/-! Programs that a labelled transition system follows. A relation ties the states of the
system to those of the program; a program is followed when each of its completed
executions is matched by a run of the system. The rules compose such facts along the
structure of a program. -/

set_option autoImplicit false

namespace DynLinker.Lib

namespace TransitionSystem

variable {State Label : Type} {system : TransitionSystem State Label}

theorem Run.append {start middle finish : State} {early late : List Label}
    (first : system.Run start early middle) (second : system.Run middle late finish) :
    system.Run start (early ++ late) finish := by
  induction second with
  | refl =>
      rw [List.append_nil]
      exact first
  | snoc _ step ih =>
      rw [← List.append_assoc]
      exact ih.snoc step

variable {Process Failure Answer Next : Type}

/-- A run from this state ends where the relation holds. -/
def Later (system : TransitionSystem State Label) (related : State → Process → Prop)
    (state : State) (process : Process) : Prop :=
  ∃ labels next, system.Run state labels next ∧ related next process

/-- Whatever the program does from a process that is related to a state, a run from that
state does as well. -/
def Follows (system : TransitionSystem State Label) (before : State → Process → Prop)
    (program : StateT Process (Except Failure) Answer)
    (after : Answer → State → Process → Prop) : Prop :=
  ∀ state process answer final, before state process → program process = .ok (answer, final) →
    system.Later (after answer) state final

namespace Later

variable {related other : State → Process → Prop} {state : State} {process : Process}

theorem now (holds : related state process) : system.Later related state process :=
  ⟨[], state, .refl, holds⟩

theorem step {label : Label} {next : State} (taken : system.step state label next)
    (later : system.Later related next process) : system.Later related state process := by
  obtain ⟨labels, final, run, holds⟩ := later
  exact ⟨[label] ++ labels, final, Run.append (Run.snoc .refl taken) run, holds⟩

theorem mono (implied : ∀ state, related state process → other state process)
    (later : system.Later related state process) : system.Later other state process := by
  obtain ⟨labels, next, run, holds⟩ := later
  exact ⟨labels, next, run, implied next holds⟩

theorem bind {process' : Process} (later : system.Later related state process)
    (continued : ∀ next, related next process → system.Later other next process') :
    system.Later other state process' := by
  obtain ⟨labels, next, run, holds⟩ := later
  obtain ⟨late, final, rest, ends⟩ := continued next holds
  exact ⟨labels ++ late, final, run.append rest, ends⟩

end Later

namespace Follows

variable {before middle : State → Process → Prop}
  {program : StateT Process (Except Failure) Answer}

theorem pure {after : Answer → State → Process → Prop} (answer : Answer)
    (implied : ∀ state process, before state process → after answer state process) :
    system.Follows before
      (Pure.pure answer : StateT Process (Except Failure) Answer) after := by
  intro state process _ final related ran
  cases ran
  exact .now (implied state process related)

/-- Between the two programs the system may be behind. -/
theorem bind {between : Answer → State → Process → Prop} {after : Next → State → Process → Prop}
    {rest : Answer → StateT Process (Except Failure) Next}
    (early : system.Follows before program between)
    (late : ∀ answer, system.Follows (between answer) (rest answer) after) :
    system.Follows before (program >>= rest) after := by
  intro state process answer final related ran
  change (program process >>= fun result => rest result.1 result.2) = _ at ran
  obtain ⟨⟨value, reached⟩, first, second⟩ := bind_eq_ok.mp ran
  exact (early state process value reached related first).bind fun next holds =>
    late value next reached answer final holds second

/-- The same, where the relation between the two programs has to be said. -/
theorem through (between : Answer → State → Process → Prop)
    {after : Next → State → Process → Prop}
    {rest : Answer → StateT Process (Except Failure) Next}
    (early : system.Follows before program between)
    (late : ∀ answer, system.Follows (between answer) (rest answer) after) :
    system.Follows before (program >>= rest) after :=
  early.bind late

theorem weaken {after other : Answer → State → Process → Prop} {stronger : State → Process → Prop}
    (followed : system.Follows before program after)
    (enough : ∀ state process, stronger state process → before state process)
    (implied : ∀ answer state process, after answer state process → other answer state process) :
    system.Follows stronger program other := by
  intro state process answer final related ran
  exact (followed state process answer final (enough state process related) ran).mono
    fun next => implied answer next final

/-- The program may look at the state before it decides what to do. -/
theorem choose {after : Answer → State → Process → Prop}
    {choice : Process → StateT Process (Except Failure) Answer}
    (each : ∀ seen, system.Follows (fun state process => before state process ∧ process = seen)
      (choice seen) after) :
    system.Follows before (fun process => choice process process) after := by
  intro state process answer final related ran
  exact each process state process answer final ⟨related, rfl⟩ ran

/-- The program changes nothing that the relation reads. -/
theorem stays (same : ∀ state process answer final, before state process →
      program process = .ok (answer, final) → before state final) :
    system.Follows before program (fun _ => before) := by
  intro state process answer final related ran
  exact .now (same state process answer final related ran)

end Follows

end TransitionSystem

end DynLinker.Lib
