import Mathlib.Data.List.Perm.Basic

/-! Removal by swapping the last element in, as vectors do it, and the loop that
removes every element of a kind that way. -/

set_option autoImplicit false

namespace DynLinker.Lib

universe u

variable {Item : Type u}

def swapRemove (items : List Item) (index : Nat) : List Item :=
  match items.getLast? with
  | none => []
  | some last => (items.set index last).dropLast

theorem swapRemove_perm {items : List Item} {index : Nat} (bounded : index < items.length) :
    (swapRemove items index).Perm (items.eraseIdx index) := by
  rcases List.eq_nil_or_concat items with rfl | ⟨front, last, rfl⟩
  · cases bounded
  · rw [List.concat_eq_append] at bounded ⊢
    rw [swapRemove, List.getLast?_concat]
    simp only
    by_cases inFront : index < front.length
    · rw [List.set_append_left _ _ inFront, List.dropLast_concat,
        List.eraseIdx_append_of_lt_length inFront]
      exact (List.set_perm_cons_eraseIdx inFront last).trans (List.perm_append_singleton _ _).symm
    · have atEnd : index = front.length := by
        rw [List.length_append, List.length_singleton] at bounded
        omega
      subst atEnd
      rw [List.set_append_right _ _ (Nat.le_refl _), Nat.sub_self,
        List.eraseIdx_append_of_length_le (Nat.le_refl _), Nat.sub_self]
      simp

/-- Every round drops an element or moves on; as many rounds as elements are enough. -/
def removeBySwap (drops : Item → Bool) : Nat → Nat → List Item → List Item
  | 0, _, items => items
  | rounds + 1, index, items =>
      match items[index]? with
      | none => items
      | some item =>
          if drops item then removeBySwap drops rounds index (swapRemove items index)
          else removeBySwap drops rounds (index + 1) items

/-- The same loop with the removed elements, in the order of their removal. -/
def drainBySwap (drops : Item → Bool) : Nat → Nat → List Item → List Item × List Item
  | 0, _, items => (items, [])
  | rounds + 1, index, items =>
      match items[index]? with
      | none => (items, [])
      | some item =>
          if drops item then
            let (kept, removed) := drainBySwap drops rounds index (swapRemove items index)
            (kept, item :: removed)
          else drainBySwap drops rounds (index + 1) items

theorem drainBySwap_fst (drops : Item → Bool) (rounds index : Nat) (items : List Item) :
    (drainBySwap drops rounds index items).1 = removeBySwap drops rounds index items := by
  induction rounds generalizing index items with
  | zero => rfl
  | succ rounds ih =>
      rw [drainBySwap, removeBySwap]
      cases items[index]? with
      | none => rfl
      | some item =>
          cases dropped : drops item with
          | true =>
              simp only [dropped, if_true]
              exact ih index (swapRemove items index)
          | false =>
              simp only [dropped]
              exact ih (index + 1) items

theorem take_swapRemove {items : List Item} {index : Nat} (bounded : index < items.length) :
    (swapRemove items index).take index = items.take index := by
  cases last : items.getLast? with
  | none =>
      rw [List.getLast?_eq_none_iff.mp last] at bounded
      cases bounded
  | some item =>
      have early : index ≤ items.length - 1 := Nat.le_sub_one_of_lt bounded
      simp only [swapRemove, last]
      rw [List.dropLast_eq_take, List.length_set, List.take_take, Nat.min_eq_left early,
        List.take_set_of_le (Nat.le_refl index)]

theorem filter_eraseIdx {keeps : Item → Bool} {items : List Item} {index : Nat} {item : Item}
    (found : items[index]? = some item) (dropped : keeps item = false) :
    (items.eraseIdx index).filter keeps = items.filter keeps := by
  obtain ⟨bounded, rfl⟩ := List.getElem?_eq_some_iff.mp found
  have split := List.take_append_drop index items
  rw [List.drop_eq_getElem_cons bounded] at split
  conv_rhs => rw [← split]
  rw [List.eraseIdx_eq_take_drop_succ, List.filter_append, List.filter_append,
    List.filter_cons_of_neg (by simp [dropped])]

/-- What is left is exactly what is not dropped, in some order. -/
theorem removeBySwap_perm {drops : Item → Bool} {rounds index : Nat} {items : List Item}
    (passed : ∀ item ∈ items.take index, drops item = false)
    (enough : items.length ≤ index + rounds) :
    (removeBySwap drops rounds index items).Perm (items.filter fun item => !drops item) := by
  induction rounds generalizing index items with
  | zero =>
      rw [Nat.add_zero] at enough
      rw [List.take_of_length_le enough] at passed
      rw [removeBySwap, List.filter_eq_self.mpr fun item member => by simp [passed item member]]
  | succ rounds ih =>
      rw [removeBySwap]
      cases found : items[index]? with
      | none =>
          rw [List.take_of_length_le (List.getElem?_eq_none_iff.mp found)] at passed
          rw [List.filter_eq_self.mpr fun item member => by simp [passed item member]]
      | some item =>
          obtain ⟨bounded, rfl⟩ := List.getElem?_eq_some_iff.mp found
          cases dropped : drops items[index] with
          | true =>
              have shorter := swapRemove_perm bounded
              have lengths := shorter.length_eq
              rw [List.length_eraseIdx_of_lt bounded] at lengths
              simp only [dropped, if_true]
              refine (ih ?_ (by omega)).trans ?_
              · rw [take_swapRemove bounded]
                exact passed
              · refine (shorter.filter _).trans (.of_eq ?_)
                exact filter_eraseIdx found (by simp [dropped])
          | false =>
              simp only [dropped]
              refine ih ?_ (by omega)
              intro item member
              rw [List.take_succ_eq_append_getElem bounded] at member
              rcases List.mem_append.mp member with early | this
              · exact passed item early
              · rw [List.mem_singleton.mp this]
                exact dropped

/-- What is removed is exactly what is dropped, each element once. -/
theorem drainBySwap_perm {drops : Item → Bool} {rounds index : Nat} {items : List Item}
    (passed : ∀ item ∈ items.take index, drops item = false)
    (enough : items.length ≤ index + rounds) :
    (drainBySwap drops rounds index items).2.Perm (items.filter drops) := by
  have nothing : ∀ {others : List Item}, (∀ item ∈ others, drops item = false) →
      others.filter drops = [] := by
    intro others kept
    exact List.filter_eq_nil_iff.mpr fun item member => by simp [kept item member]
  induction rounds generalizing index items with
  | zero =>
      rw [Nat.add_zero] at enough
      rw [List.take_of_length_le enough] at passed
      rw [nothing passed]
      exact .refl _
  | succ rounds ih =>
      rw [drainBySwap]
      cases found : items[index]? with
      | none =>
          rw [List.take_of_length_le (List.getElem?_eq_none_iff.mp found)] at passed
          rw [nothing passed]
      | some item =>
          obtain ⟨bounded, rfl⟩ := List.getElem?_eq_some_iff.mp found
          cases dropped : drops items[index] with
          | true =>
              have shorter := swapRemove_perm bounded
              have lengths := shorter.length_eq
              rw [List.length_eraseIdx_of_lt bounded] at lengths
              have before : ∀ item ∈ (swapRemove items index).take index, drops item = false := by
                rw [take_swapRemove bounded]
                exact passed
              have rest := ih before (by omega)
              have split := (List.getElem_cons_eraseIdx_perm bounded).filter drops
              rw [List.filter_cons_of_pos dropped] at split
              simp only [dropped, if_true]
              exact ((rest.trans (shorter.filter drops)).cons _).trans split
          | false =>
              simp only [dropped]
              refine ih ?_ (by omega)
              intro item member
              rw [List.take_succ_eq_append_getElem bounded] at member
              rcases List.mem_append.mp member with early | this
              · exact passed item early
              · rw [List.mem_singleton.mp this]
                exact dropped

end DynLinker.Lib
