import Mathlib.Data.List.Basic
import Mathlib.Logic.Function.Basic

/-! Copying within one store, cell by cell in a given order. The ranges may overlap: what
counts is that no cell is overwritten before it has been read. -/

set_option autoImplicit false

namespace DynLinker.Lib

universe u v w

variable {Index : Type u} {Address : Type v} {Value : Type w} [DecidableEq Address]

/-- Each cell of the target gets what the source has at that moment. -/
def copyEach (target source : Index → Address) (order : List Index) (store : Address → Value) :
    Address → Value :=
  order.foldl (fun store i => Function.update store (target i) (store (source i))) store

/-- No cell is read, or written again, after it has been written. -/
def CopySafe (target source : Index → Address) (order : List Index) : Prop :=
  order.Pairwise fun earlier later =>
    target earlier ≠ source later ∧ target earlier ≠ target later

variable {target source : Index → Address} {order : List Index}

theorem copyEach_other {address : Address} (apart : ∀ i ∈ order, target i ≠ address)
    (store : Address → Value) : copyEach target source order store address = store address := by
  induction order generalizing store with
  | nil => rfl
  | cons first rest ih =>
      obtain ⟨here, later⟩ := List.forall_mem_cons.mp apart
      rw [copyEach, List.foldl_cons]
      exact (ih later _).trans (Function.update_of_ne here.symm _ _)

/-- In a safe order the target ends up with what the source had at first. -/
theorem copyEach_target (safe : CopySafe target source order) {i : Index} (member : i ∈ order)
    (store : Address → Value) :
    copyEach target source order store (target i) = store (source i) := by
  induction order generalizing store with
  | nil => cases member
  | cons first rest ih =>
      obtain ⟨apart, safe⟩ := List.pairwise_cons.mp safe
      rw [copyEach, List.foldl_cons]
      cases member with
      | head =>
          have kept := @copyEach_other _ _ Value _ target source rest (target i)
            (fun later listed => (apart later listed).2.symm)
          exact (kept _).trans (Function.update_self _ _ _)
      | tail _ listed =>
          have unread := (apart i listed).1
          exact (ih safe listed _).trans (Function.update_of_ne unread.symm _ _)

end DynLinker.Lib
