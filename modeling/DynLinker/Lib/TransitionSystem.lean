import Mathlib.Logic.Function.Basic
import Mathlib.Logic.Relation

/-! Labelled transition systems, their runs, and the invariant rule. A run is
kept with the list of its labels, so a property of whole runs can count or
restrict the steps that were taken. -/

set_option autoImplicit false

namespace DynLinker.Lib

universe u v

/-- Initial states and labelled steps over arbitrary states and labels. -/
structure TransitionSystem (State : Type u) (Label : Type v) where
  initial : State → Prop
  step : State → Label → State → Prop

namespace TransitionSystem

variable {State : Type u} {Label : Type v}

/-- `Run system start labels finish`: the labels lead from `start` to `finish`. -/
inductive Run (system : TransitionSystem State Label) : State → List Label → State → Prop where
  | refl {state : State} : Run system state [] state
  | snoc {start middle finish : State} {labels : List Label} {label : Label} :
      Run system start labels middle → system.step middle label finish →
      Run system start (labels ++ [label]) finish

/-- The states that some run from an initial state reaches. -/
def Reachable (system : TransitionSystem State Label) (state : State) : Prop :=
  ∃ start labels, system.initial start ∧ system.Run start labels state

/-- The same system with only the steps that meet a condition on the state
before the step and its label. -/
def restrict (system : TransitionSystem State Label) (condition : State → Label → Prop) :
    TransitionSystem State Label where
  initial := system.initial
  step state label next := condition state label ∧ system.step state label next

/-- An invariant holds initially and every step keeps it. -/
structure Inductive (system : TransitionSystem State Label) (invariant : State → Prop) :
    Prop where
  initially : ∀ state, system.initial state → invariant state
  preserved : ∀ state label next,
    invariant state → system.step state label next → invariant next

variable {system : TransitionSystem State Label} {invariant : State → Prop}

theorem Reachable.start {state : State} (initial : system.initial state) :
    system.Reachable state :=
  ⟨state, [], initial, .refl⟩

theorem Reachable.next {state next : State} {label : Label}
    (reached : system.Reachable state) (step : system.step state label next) :
    system.Reachable next := by
  obtain ⟨start, labels, initial, run⟩ := reached
  exact ⟨start, labels ++ [label], initial, run.snoc step⟩

/-- The step lemma carried along a run of any length. -/
theorem Run.preserves {start finish : State} {labels : List Label}
    (run : system.Run start labels finish)
    (preserved : ∀ state label next,
      invariant state → system.step state label next → invariant next)
    (valid : invariant start) : invariant finish := by
  induction run with
  | refl => exact valid
  | snoc _ step ih => exact preserved _ _ _ ih step

theorem Inductive.reachable (inductive_ : system.Inductive invariant) {state : State}
    (reached : system.Reachable state) : invariant state := by
  obtain ⟨start, labels, initial, run⟩ := reached
  exact run.preserves inductive_.preserved (inductive_.initially start initial)

theorem Run.unrestrict {condition : State → Label → Prop} {start finish : State}
    {labels : List Label} (run : (system.restrict condition).Run start labels finish) :
    system.Run start labels finish := by
  induction run with
  | refl => exact .refl
  | snoc _ step ih => exact ih.snoc step.2

theorem Reachable.unrestrict {condition : State → Label → Prop} {state : State}
    (reached : (system.restrict condition).Reachable state) : system.Reachable state := by
  obtain ⟨start, labels, initial, run⟩ := reached
  exact ⟨start, labels, initial, run.unrestrict⟩

/-- The labels, taken one after the other by an executable step. -/
def runLabels (act : State → Label → Option State) (state : State) : List Label → Option State
  | [] => some state
  | label :: rest => (act state label).bind fun next => runLabels act next rest

theorem Run.runLabels {act : State → Label → Option State}
    (sound : ∀ state label next, act state label = some next → system.step state label next)
    {start middle finish : State} {early late : List Label} (run : system.Run start early middle)
    (ran : runLabels act middle late = some finish) :
    system.Run start (early ++ late) finish := by
  induction late generalizing early middle with
  | nil =>
      cases ran
      rw [List.append_nil]
      exact run
  | cons label rest ih =>
      obtain ⟨next, accepted, ran⟩ := Option.bind_eq_some_iff.mp ran
      rw [List.append_cons]
      exact ih (run.snoc (sound _ _ _ accepted)) ran

theorem runLabels_concat (act : State → Label → Option State) (state : State)
    (labels : List Label) (label : Label) :
    runLabels act state (labels ++ [label]) = (runLabels act state labels).bind (act · label) := by
  induction labels generalizing state with
  | nil => simp [runLabels]
  | cons first rest ih =>
      rw [List.cons_append, runLabels, runLabels, Option.bind_assoc]
      exact congrArg _ (funext ih)

/-- Where the steps are those of a function, so are the runs. -/
theorem Run.runLabels_eq {act : State → Label → Option State}
    (complete : ∀ state label next, system.step state label next → act state label = some next)
    {start finish : State} {labels : List Label} (run : system.Run start labels finish) :
    TransitionSystem.runLabels act start labels = some finish := by
  induction run with
  | refl => rfl
  | snoc _ step ih => rw [runLabels_concat, ih, Option.bind_some, complete _ _ _ step]

/-- An executable step that is only taken under the condition runs the restricted system. -/
theorem Run.runGuarded {act : State → Label → Option State}
    (sound : ∀ state label next, act state label = some next → system.step state label next)
    {condition : State → Label → Prop} [∀ state label, Decidable (condition state label)]
    {start finish : State} {labels : List Label}
    (ran : TransitionSystem.runLabels (fun state label =>
      if condition state label then act state label else none) start labels = some finish) :
    (system.restrict condition).Run start labels finish := by
  refine Run.refl.runLabels ?_ ran
  intro state label next accepted
  obtain ⟨allowed, accepted⟩ := Option.ite_none_right_eq_some.mp accepted
  exact ⟨allowed, sound state label next accepted⟩

end TransitionSystem

/-- The invariant rule for any number of unlabelled steps. -/
theorem preserves_steps {State : Type u} {step : State → State → Prop} {invariant : State → Prop}
    {start finish : State} (steps : Relation.ReflTransGen step start finish)
    (preserved : ∀ state next, invariant state → step state next → invariant next)
    (valid : invariant start) : invariant finish := by
  induction steps with
  | refl => exact valid
  | tail _ change ih => exact preserved _ _ ih change

end DynLinker.Lib
