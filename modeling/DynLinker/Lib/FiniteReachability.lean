import Mathlib.Data.List.Basic
import Mathlib.Logic.Relation

/-! The nodes of a finite list that a Boolean edge relation reaches from some of
them, computed by adding successors until nothing is new, and the proof that the
result is the reflexive transitive closure. -/

set_option autoImplicit false

namespace DynLinker.Lib.FiniteReachability

universe u

variable {Node : Type u} [DecidableEq Node] (nodes : List Node) (edge : Node → Node → Bool)

def expand (seen : List Node) : List Node :=
  nodes.filter fun node => decide (node ∈ seen) || seen.any fun source => edge source node

def saturate : Nat → List Node → List Node
  | 0, seen => seen
  | fuel + 1, seen =>
      if (expand nodes edge seen).length = seen.length then seen
      else saturate fuel (expand nodes edge seen)

/-- The listed nodes reached from `root`, in the order of the list. -/
def reached (root : Node) : List Node :=
  saturate nodes edge nodes.length (nodes.filter fun node => decide (node = root))

def ListedEdge (source target : Node) : Prop :=
  target ∈ nodes ∧ edge source target = true

def Closed (seen : List Node) : Prop :=
  ∀ source ∈ seen, ∀ target, ListedEdge nodes edge source target → target ∈ seen

variable {nodes edge}

theorem filter_mem_filter (nodes : List Node) (keep : Node → Bool) :
    (nodes.filter fun node => decide (node ∈ nodes.filter keep)) = nodes.filter keep := by
  apply List.filter_congr
  intro node member
  simp [member]

theorem sublist_expand (edge : Node → Node → Bool) {seen : List Node}
    (listed : (nodes.filter fun node => decide (node ∈ seen)) = seen) :
    seen.Sublist (expand nodes edge seen) := by
  have weaker : (nodes.filter fun node => decide (node ∈ seen)).Sublist
      (expand nodes edge seen) := by
    apply List.monotone_filter_right
    intro node accepted
    simp only [accepted, Bool.true_or]
  rwa [listed] at weaker

theorem closed_of_expand_eq {seen : List Node} (fixed : expand nodes edge seen = seen) :
    Closed nodes edge seen := by
  intro source member target step
  rw [← fixed]
  obtain ⟨listed, related⟩ := step
  apply List.mem_filter.mpr
  refine ⟨listed, ?_⟩
  rw [Bool.or_eq_true]
  exact .inr (List.any_eq_true.mpr ⟨source, member, related⟩)

-- The fuel bounds how many listed nodes are still missing from `seen`.
theorem saturate_closed {fuel : Nat} {seen : List Node}
    (listed : (nodes.filter fun node => decide (node ∈ seen)) = seen)
    (enough : nodes.length ≤ seen.length + fuel) :
    Closed nodes edge (saturate nodes edge fuel seen) := by
  induction fuel generalizing seen with
  | zero =>
      have sublist : seen.Sublist nodes := by
        rw [← listed]
        exact List.filter_sublist
      have all : seen = nodes := sublist.eq_of_length_le enough
      intro source _ target step
      simp only [saturate, all]
      exact step.1
  | succ fuel ih =>
      have grows := sublist_expand edge listed
      rw [saturate]
      split
      · next same => exact closed_of_expand_eq (grows.eq_of_length same.symm).symm
      · next larger =>
          apply ih
          · exact filter_mem_filter _ _
          · have bounded := grows.length_le
            omega

theorem saturate_contains {fuel : Nat} {seen : List Node}
    (listed : (nodes.filter fun node => decide (node ∈ seen)) = seen) {node : Node}
    (member : node ∈ seen) : node ∈ saturate nodes edge fuel seen := by
  induction fuel generalizing seen with
  | zero => exact member
  | succ fuel ih =>
      rw [saturate]
      split
      · exact member
      · exact ih (filter_mem_filter _ _) ((sublist_expand edge listed).mem member)

theorem saturate_sound {fuel : Nat} {seen : List Node} (root : Node)
    (sound : ∀ node ∈ seen, node ∈ nodes ∧
      Relation.ReflTransGen (ListedEdge nodes edge) root node) :
    ∀ node ∈ saturate nodes edge fuel seen, node ∈ nodes ∧
      Relation.ReflTransGen (ListedEdge nodes edge) root node := by
  induction fuel generalizing seen with
  | zero => exact sound
  | succ fuel ih =>
      rw [saturate]
      split
      · exact sound
      · apply ih
        intro node member
        obtain ⟨listed, added⟩ := List.mem_filter.mp member
        rcases Bool.or_eq_true _ _ |>.mp added with old | new
        · exact sound node (of_decide_eq_true old)
        · obtain ⟨source, sourceSeen, related⟩ := List.any_eq_true.mp new
          exact ⟨listed, (sound source sourceSeen).2.tail ⟨listed, related⟩⟩

theorem mem_reached_iff {root node : Node} (listed : root ∈ nodes) :
    node ∈ reached nodes edge root ↔
      Relation.ReflTransGen (ListedEdge nodes edge) root node := by
  have start := filter_mem_filter nodes (fun node => decide (node = root))
  constructor
  · intro member
    refine (saturate_sound root (fun node member => ?_) node member).2
    obtain ⟨present, same⟩ := List.mem_filter.mp member
    cases of_decide_eq_true same
    exact ⟨present, .refl⟩
  · intro path
    have closed : Closed nodes edge (reached nodes edge root) :=
      saturate_closed start (Nat.le_add_left _ _)
    induction path with
    | refl => exact saturate_contains start (List.mem_filter.mpr ⟨listed, decide_eq_true rfl⟩)
    | tail _ step ih => exact closed _ ih _ step

end DynLinker.Lib.FiniteReachability
