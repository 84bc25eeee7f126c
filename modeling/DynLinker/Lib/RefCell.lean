import DynLinker.Lib.Outcome

/-! A value behind a run-time borrow flag, and programs over it. A borrow lasts for a
scope; a borrow that conflicts with a live one ends the program. `Keeps` is the rule set
for programs that never conflict and give every borrow back. -/

set_option autoImplicit false

namespace DynLinker.Lib

/-- `reading others`: one shared borrow and `others` more. -/
inductive BorrowState where
  | unused
  | reading (others : Nat)
  | writing
deriving DecidableEq

namespace BorrowState

def share : BorrowState → Option BorrowState
  | .unused => some (.reading 0)
  | .reading others => some (.reading (others + 1))
  | .writing => none

def claim : BorrowState → Option BorrowState
  | .unused => some .writing
  | .reading _ => none
  | .writing => none

/-- The guard of the last borrow is dropped. -/
def giveBack : BorrowState → BorrowState
  | .unused => .unused
  | .reading 0 => .unused
  | .reading (others + 1) => .reading others
  | .writing => .unused

theorem giveBack_share {before after : BorrowState} (shared : before.share = some after) :
    after.giveBack = before := by
  cases before with
  | unused =>
      cases shared
      rfl
  | reading others =>
      cases shared
      rfl
  | writing => cases shared

theorem giveBack_claim {before after : BorrowState} (claimed : before.claim = some after) :
    after.giveBack = before := by
  cases before with
  | unused =>
      cases claimed
      rfl
  | reading others => cases claimed
  | writing => cases claimed

end BorrowState

structure RefCell (Value : Type) where
  value : Value
  state : BorrowState

inductive Fault (Failure : Type) where
  | conflict
  | failure (failure : Failure)
deriving DecidableEq

/-- Programs over a cell and what surrounds it. -/
abbrev CellM (Value Env Failure : Type) := StateT (RefCell Value × Env) (Except (Fault Failure))

namespace CellM

variable {Value Env Failure Answer Next : Type}

def fail (failure : Failure) : CellM Value Env Failure Answer :=
  fun _ => .error (.failure failure)

def lift : Except Failure Answer → CellM Value Env Failure Answer
  | .ok answer => pure answer
  | .error failure => fail failure

/-- Reads and changes the surroundings, which no borrow guards. -/
def surroundings (change : Env → Except Failure (Answer × Env)) :
    CellM Value Env Failure Answer :=
  fun (cell, env) =>
    match change env with
    | .ok (answer, next) => .ok (answer, (cell, next))
    | .error failure => .error (.failure failure)

/-- `borrow`, for the scope `body`. -/
def borrow (body : Value → CellM Value Env Failure Answer) : CellM Value Env Failure Answer :=
  fun (cell, env) =>
    match cell.state.share with
    | none => .error .conflict
    | some shared => do
        let (answer, (after, next)) ← body cell.value ({ cell with state := shared }, env)
        return (answer, ({ after with state := after.state.giveBack }, next))

/-- `borrow_mut`, for the scope `body`, which also says what the value becomes. -/
def borrowMut (body : Value → CellM Value Env Failure (Answer × Value)) :
    CellM Value Env Failure Answer :=
  fun (cell, env) =>
    match cell.state.claim with
    | none => .error .conflict
    | some claimed => do
        let ((answer, value), (after, next)) ←
          body cell.value ({ cell with state := claimed }, env)
        return (answer, (⟨value, after.state.giveBack⟩, next))

theorem run_bind {first : CellM Value Env Failure Answer}
    {rest : Answer → CellM Value Env Failure Next} {before after : RefCell Value × Env}
    {answer : Next} :
    (first >>= rest) before = .ok (answer, after) ↔
      ∃ value middle, first before = .ok (value, middle) ∧
        rest value middle = .ok (answer, after) := by
  change (first before >>= fun result => rest result.1 result.2) = _ ↔ _
  rw [bind_eq_ok]
  constructor
  · rintro ⟨⟨value, middle⟩, ran, continued⟩
    exact ⟨value, middle, ran, continued⟩
  · rintro ⟨value, middle, ran, continued⟩
    exact ⟨(value, middle), ran, continued⟩

theorem run_lift {result : Except Failure Answer} {before after : RefCell Value × Env}
    {answer : Answer} :
    lift result before = .ok (answer, after) ↔ result = .ok answer ∧ after = before := by
  cases result with
  | error failure => simp [lift, fail]
  | ok value =>
      change Except.ok (value, before) = _ ↔ _
      simp [eq_comm]

theorem run_surroundings {change : Env → Except Failure (Answer × Env)} {cell : RefCell Value}
    {env : Env} {answer : Answer} {after : RefCell Value × Env} :
    surroundings change (cell, env) = .ok (answer, after) ↔
      ∃ next, change env = .ok (answer, next) ∧ after = (cell, next) := by
  rw [surroundings]
  cases change env with
  | error failure => simp
  | ok value =>
      obtain ⟨found, next⟩ := value
      constructor
      · intro ran
        cases ran
        exact ⟨next, rfl, rfl⟩
      · rintro ⟨_, changed, rfl⟩
        cases changed
        rfl

/-- A mutable borrow that went through found the cell unused. -/
theorem run_borrowMut {body : Value → CellM Value Env Failure (Answer × Value)}
    {cell : RefCell Value} {env : Env} {answer : Answer} {after : RefCell Value × Env} :
    borrowMut body (cell, env) = .ok (answer, after) ↔
      cell.state = .unused ∧ ∃ value middle next,
        body cell.value ({ cell with state := .writing }, env) =
          .ok ((answer, value), (middle, next)) ∧
        after = (⟨value, middle.state.giveBack⟩, next) := by
  rw [borrowMut]
  cases state : cell.state with
  | reading others => simp [BorrowState.claim]
  | writing => simp [BorrowState.claim]
  | unused =>
      simp only [BorrowState.claim, bind_eq_ok, true_and]
      constructor
      · rintro ⟨⟨⟨found, value⟩, middle, next⟩, ran, returned⟩
        cases returned
        exact ⟨value, middle, next, ran, rfl⟩
      · rintro ⟨value, middle, next, ran, rfl⟩
        exact ⟨_, ran, rfl⟩

/-! ## Programs that never conflict -/

/-- Started in a borrow state, the program never conflicts and ends in the same state. -/
structure Keeps (state : BorrowState) (program : CellM Value Env Failure Answer) : Prop where
  never : ∀ before, before.1.state = state → program before ≠ .error .conflict
  kept : ∀ before answer after, before.1.state = state → program before = .ok (answer, after) →
    after.1.state = state

namespace Keeps

variable {state : BorrowState}

theorem pure (answer : Answer) :
    Keeps state (Pure.pure answer : CellM Value Env Failure Answer) where
  never _ _ impossible := by cases impossible
  kept _ _ _ started ran := by
    cases ran
    exact started

theorem fail (failure : Failure) :
    Keeps state (CellM.fail failure : CellM Value Env Failure Answer) where
  never _ _ impossible := by cases impossible
  kept _ _ _ _ impossible := by cases impossible

theorem lift (result : Except Failure Answer) :
    Keeps state (CellM.lift result : CellM Value Env Failure Answer) := by
  cases result with
  | ok answer => exact .pure answer
  | error failure => exact .fail failure

theorem surroundings (change : Env → Except Failure (Answer × Env)) :
    Keeps state (CellM.surroundings change : CellM Value Env Failure Answer) where
  never before _ impossible := by
    obtain ⟨cell, env⟩ := before
    rw [CellM.surroundings] at impossible
    split at impossible
    · cases impossible
    · cases impossible
  kept before answer after started ran := by
    obtain ⟨next, _, rfl⟩ := run_surroundings.mp ran
    exact started

theorem bind {first : CellM Value Env Failure Answer}
    {rest : Answer → CellM Value Env Failure Next} (early : Keeps state first)
    (late : ∀ answer, Keeps state (rest answer)) : Keeps state (first >>= rest) where
  never before started conflict := by
    change (first before >>= fun result => rest result.1 result.2) = _ at conflict
    cases ran : first before with
    | error fault =>
        rw [ran] at conflict
        cases conflict
        exact early.never before started ran
    | ok result =>
        rw [ran] at conflict
        exact (late result.1).never result.2 (early.kept before _ _ started ran) conflict
  kept before answer after started ran := by
    obtain ⟨value, middle, ran, continued⟩ := run_bind.mp ran
    exact (late value).kept middle _ _ (early.kept before _ _ started ran) continued

/-- The program may look at the state before it decides what to do. -/
theorem choose {program : RefCell Value × Env → CellM Value Env Failure Answer}
    (each : ∀ before, Keeps state (program before)) :
    Keeps state (fun before => program before before) where
  never before started := (each before).never before started
  kept before answer after started ran := (each before).kept before answer after started ran

theorem borrow {shared : BorrowState} {body : Value → CellM Value Env Failure Answer}
    (free : state.share = some shared) (inside : ∀ value, Keeps shared (body value)) :
    Keeps state (CellM.borrow body) where
  never before started conflict := by
    obtain ⟨cell, env⟩ := before
    simp only at started
    simp only [CellM.borrow, started, free] at conflict
    cases ran : body cell.value ({ cell with state := shared }, env) with
    | error fault =>
        rw [ran] at conflict
        cases conflict
        exact (inside cell.value).never _ rfl ran
    | ok result =>
        rw [ran] at conflict
        cases conflict
  kept before answer after started ran := by
    obtain ⟨cell, env⟩ := before
    simp only at started
    simp only [CellM.borrow, started, free, bind_eq_ok] at ran
    obtain ⟨⟨found, middle, next⟩, ran, returned⟩ := ran
    cases returned
    change middle.state.giveBack = state
    rw [(inside cell.value).kept _ _ _ rfl ran]
    exact BorrowState.giveBack_share free

theorem borrowMut {claimed : BorrowState} {body : Value → CellM Value Env Failure (Answer × Value)}
    (free : state.claim = some claimed) (inside : ∀ value, Keeps claimed (body value)) :
    Keeps state (CellM.borrowMut body) where
  never before started conflict := by
    obtain ⟨cell, env⟩ := before
    simp only at started
    simp only [CellM.borrowMut, started, free] at conflict
    cases ran : body cell.value ({ cell with state := claimed }, env) with
    | error fault =>
        rw [ran] at conflict
        cases conflict
        exact (inside cell.value).never _ rfl ran
    | ok result =>
        rw [ran] at conflict
        cases conflict
  kept before answer after started ran := by
    obtain ⟨cell, env⟩ := before
    simp only at started
    simp only [CellM.borrowMut, started, free, bind_eq_ok] at ran
    obtain ⟨⟨⟨found, value⟩, middle, next⟩, ran, returned⟩ := ran
    cases returned
    change middle.state.giveBack = state
    rw [(inside cell.value).kept _ _ _ rfl ran]
    exact BorrowState.giveBack_claim free

end Keeps

end CellM

end DynLinker.Lib
