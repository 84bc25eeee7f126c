import Mathlib.Data.Option.Basic

/-! Code that may panic: the value or the panic's message, and the rules that take
a successful computation apart. -/

set_option autoImplicit false

namespace DynLinker.Lib

structure Panic where
  message : String
deriving DecidableEq

universe u v

variable {Failure : Type u} {Value Next : Type v}

/-- `Result::expect`. -/
def expectOk (message : String) : Except Failure Value → Except Panic Value
  | .ok value => .ok value
  | .error _ => .error ⟨message⟩

/-- `Option::expect`. -/
def expectSome (message : String) : Option Value → Except Panic Value
  | some value => .ok value
  | none => .error ⟨message⟩

theorem expectOk_eq_ok {message : String} {result : Except Failure Value} {value : Value} :
    expectOk message result = .ok value ↔ result = .ok value := by
  cases result with
  | error failure => simp [expectOk]
  | ok found => simp [expectOk]

theorem expectSome_eq_ok {message : String} {result : Option Value} {value : Value} :
    expectSome message result = .ok value ↔ result = some value := by
  cases result with
  | none => simp [expectSome]
  | some found => simp [expectSome]

theorem ok_bind (value : Value) (rest : Value → Except Failure Next) :
    (Except.ok value >>= rest) = rest value :=
  rfl

theorem bind_eq_ok {first : Except Failure Value} {rest : Value → Except Failure Next}
    {result : Next} :
    (first >>= rest) = .ok result ↔ ∃ value, first = .ok value ∧ rest value = .ok result := by
  cases first with
  | error failure =>
      constructor
      · intro impossible
        cases impossible
      · intro accepted
        obtain ⟨value, impossible, _⟩ := accepted
        cases impossible
  | ok value =>
      constructor
      · intro accepted
        exact ⟨value, rfl, accepted⟩
      · intro accepted
        obtain ⟨found, same, result⟩ := accepted
        cases same
        exact result

/-- A step that is repeated over a list relates its ends if every step does. -/
theorem foldlM_relates {State Item : Type v} {step : State → Item → Except Failure State}
    {relation : State → State → Prop} (reflexive : ∀ state, relation state state)
    (transitive : ∀ first second third, relation first second → relation second third →
      relation first third)
    (each : ∀ before item after, step before item = .ok after → relation before after)
    {items : List Item} {before after : State}
    (accepted : items.foldlM step before = .ok after) : relation before after := by
  induction items generalizing before with
  | nil =>
      cases accepted
      exact reflexive _
  | cons item rest ih =>
      rw [List.foldlM_cons] at accepted
      obtain ⟨middle, first, accepted⟩ := bind_eq_ok.mp accepted
      exact transitive before middle after (each before item middle first) (ih accepted)

theorem toOption_eq_some_iff {result : Except Failure Value} {value : Value} :
    result.toOption = some value ↔ result = .ok value := by
  cases result with
  | error failure => simp [Except.toOption]
  | ok found => simp [Except.toOption]

/-- A step that may be impossible or panic, where it does neither. -/
theorem bind_toOption_eq_some_iff {attempt : Option (Except Failure Value)} {value : Value} :
    attempt.bind Except.toOption = some value ↔ attempt = some (.ok value) := by
  cases attempt with
  | none => simp
  | some result => simp [toOption_eq_some_iff]

end DynLinker.Lib
