import Mathlib.Data.List.Basic

/-! Folds over a list that record into the fields of a state: fields one by one, a bounded
collection, and a value that later items replace. -/

set_option autoImplicit false

namespace DynLinker.Lib

variable {State Field Item Value : Type}

/-- A field of a fold is the fold of what the steps do to that field. -/
theorem foldl_field (field : State → Field) {record : State → Item → State}
    (step : Field → Item → Field)
    (steps : ∀ state item, field (record state item) = step (field state) item)
    (items : List Item) (start : State) :
    field (items.foldl record start) = items.foldl step (field start) :=
  (List.foldl_hom field fun state item => (steps state item).symm).symm

/-- A fold that collects while there is room keeps the first elements. -/
theorem foldl_collect (keep : Item → Prop) [DecidablePred keep] (value : Item → Value)
    (limit : Nat) (items : List Item) (start : List Value) (room : start.length ≤ limit) :
    items.foldl (fun kept item =>
        if keep item ∧ kept.length < limit then kept ++ [value item] else kept) start =
      (start ++ (items.filter keep).map value).take limit := by
  induction items generalizing start with
  | nil =>
      rw [List.filter_nil, List.map_nil, List.append_nil, List.take_of_length_le room]
      rfl
  | cons item rest ih =>
      rw [List.foldl_cons]
      by_cases kept : keep item
      · by_cases free : start.length < limit
        · have longer : (start ++ [value item]).length ≤ limit := by
            rw [List.length_append, List.length_singleton]
            exact free
          rw [if_pos ⟨kept, free⟩, ih _ longer, List.filter_cons, if_pos (decide_eq_true kept),
            List.map_cons, List.append_assoc, List.singleton_append]
        · have full : start.length = limit := by omega
          rw [if_neg fun both => free both.2, ih _ room, ← full, List.take_left, List.take_left]
      · have skipped : ¬decide (keep item) = true := by simpa using kept
        rw [if_neg fun both => kept both.1, ih _ room, List.filter_cons, if_neg skipped]

/-- A fold that replaces a value keeps the last replacement. -/
theorem foldl_replace (keep : Item → Prop) [DecidablePred keep] (value : Item → Value)
    (items : List Item) (start : Value) :
    items.foldl (fun kept item => if keep item then value item else kept) start =
      ((items.filter keep).getLast?.map value).getD start := by
  induction items generalizing start with
  | nil => rfl
  | cons item rest ih =>
      rw [List.foldl_cons, ih]
      by_cases kept : keep item
      · rw [if_pos kept, List.filter_cons, if_pos (decide_eq_true kept), List.getLast?_cons,
          Option.map_some, Option.getD_some]
        cases (rest.filter keep).getLast? with
        | none => rfl
        | some last => rfl
      · have skipped : ¬decide (keep item) = true := by simpa using kept
        rw [if_neg kept, List.filter_cons, if_neg skipped]

/-- The first value that is not zero, or else zero. -/
def firstNonzero (values : List Nat) : Nat := (values.find? (· ≠ 0)).getD 0

@[simp] theorem firstNonzero_nil : firstNonzero [] = 0 := rfl

theorem firstNonzero_cons (value : Nat) (rest : List Nat) :
    firstNonzero (value :: rest) = if value = 0 then firstNonzero rest else value := by
  by_cases zero : value = 0
  · simp [firstNonzero, zero]
  · simp [firstNonzero, zero]

@[simp] theorem firstNonzero_singleton (value : Nat) : firstNonzero [value] = value := by
  by_cases zero : value = 0
  · simp [firstNonzero_cons, zero]
  · simp [firstNonzero_cons, zero]

/-- The search may be cut anywhere and continued from what was found. -/
theorem firstNonzero_append (early late : List Nat) :
    firstNonzero (firstNonzero early :: late) = firstNonzero (early ++ late) := by
  induction early with
  | nil => simp [firstNonzero_cons]
  | cons value rest ih =>
      by_cases zero : value = 0
      · simpa [firstNonzero_cons, zero] using ih
      · simp [firstNonzero_cons, zero]

end DynLinker.Lib
