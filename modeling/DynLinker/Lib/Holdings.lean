import Mathlib.Algebra.BigOperators.Group.Multiset.Basic
import Mathlib.Algebra.Order.Group.Multiset
import Mathlib.Data.List.AList

/-! What a list or a finite map of holders holds together, as a multiset of items,
and how it changes when a holder comes, goes or is replaced. -/

set_option autoImplicit false

namespace DynLinker.Lib

universe u v

variable {Holder : Type u} {Item : Type v} (contents : Holder → Multiset Item)

def holdings (holders : List Holder) : Multiset Item := (holders.map contents).sum

@[simp] theorem holdings_nil : holdings contents [] = 0 := rfl

@[simp] theorem holdings_cons (holder : Holder) (rest : List Holder) :
    holdings contents (holder :: rest) = contents holder + holdings contents rest := by
  simp [holdings]

@[simp] theorem holdings_append (first second : List Holder) :
    holdings contents (first ++ second) = holdings contents first + holdings contents second := by
  simp [holdings]

theorem holdings_eraseIdx {holders : List Holder} {index : Nat} {holder : Holder}
    (present : holders[index]? = some holder) :
    holdings contents holders =
      contents holder + holdings contents (holders.eraseIdx index) := by
  induction holders generalizing index with
  | nil => simp at present
  | cons head rest ih =>
      cases index with
      | zero =>
          cases present
          simp
      | succ index =>
          simp only [List.getElem?_cons_succ] at present
          simp only [holdings_cons, List.eraseIdx_cons_succ, ih present]
          exact add_left_comm _ _ _

theorem holdings_set {holders : List Holder} {index : Nat} {holder : Holder}
    (present : holders[index]? = some holder) (replacement : Holder) :
    holdings contents (holders.set index replacement) =
      contents replacement + holdings contents (holders.eraseIdx index) := by
  induction holders generalizing index with
  | nil => simp at present
  | cons head rest ih =>
      cases index with
      | zero => simp
      | succ index =>
          simp only [List.getElem?_cons_succ] at present
          simp only [List.set_cons_succ, holdings_cons, List.eraseIdx_cons_succ, ih present]
          exact add_left_comm _ _ _

section FiniteMap

variable {Key : Type u} [DecidableEq Key]

def mapHoldings (holders : AList fun _ : Key => Holder) : Multiset Item :=
  holdings (fun entry => contents entry.2) holders.entries

theorem mapHoldings_erase {holders : AList fun _ : Key => Holder} {key : Key} {holder : Holder}
    (present : holders.lookup key = some holder) :
    mapHoldings contents holders =
      contents holder + mapHoldings contents (holders.erase key) := by
  have member : (⟨key, holder⟩ : Sigma fun _ : Key => Holder) ∈ holders.entries :=
    AList.mem_lookup_iff.mp present
  obtain ⟨found, first, second, absent, entries, erased⟩ :=
    List.exists_of_kerase (List.mem_keys_of_mem member)
  have same : found = holder := by
    have alsoFound : holders.lookup key = some found := by
      apply AList.mem_lookup_iff.mpr
      rw [entries]
      exact List.mem_append_right _ List.mem_cons_self
    exact Option.some.inj (alsoFound.symm.trans present)
  calc mapHoldings contents holders
      = holdings (fun entry => contents entry.2) (first ++ ⟨key, found⟩ :: second) :=
        congrArg (holdings _) entries
    _ = contents holder + holdings (fun entry => contents entry.2) (first ++ second) := by
        rw [holdings_append, holdings_cons, holdings_append, same]
        exact add_left_comm _ _ _
    _ = contents holder + mapHoldings contents (holders.erase key) :=
        congrArg (contents holder + holdings (fun entry => contents entry.2) ·) erased.symm

theorem mapHoldings_insert (holders : AList fun _ : Key => Holder) (key : Key) (holder : Holder) :
    mapHoldings contents (holders.insert key holder) =
      contents holder + mapHoldings contents (holders.erase key) := by
  rw [mapHoldings, AList.entries_insert, holdings_cons]
  rfl

theorem mapHoldings_insert_fresh {holders : AList fun _ : Key => Holder} {key : Key}
    (absent : holders.lookup key = none) (holder : Holder) :
    mapHoldings contents (holders.insert key holder) =
      contents holder + mapHoldings contents holders := by
  have unlisted : key ∉ holders := AList.lookup_eq_none.mp absent
  rw [mapHoldings, AList.entries_insert_of_notMem unlisted, holdings_cons, mapHoldings]

end FiniteMap

end DynLinker.Lib
