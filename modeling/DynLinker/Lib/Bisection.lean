import Mathlib.Order.Basic

/-! Halving search over a half-open interval of positions, for an arbitrary
three-way probe. Nothing is assumed about the probe, in particular not that it
is monotone, so the search is characterised by the positions that a halving
towards the target visits. -/

set_option autoImplicit false

namespace DynLinker.Lib

def midpoint (left right : Nat) : Nat := left + (right - left) / 2

theorem le_midpoint (left right : Nat) : left ≤ midpoint left right :=
  Nat.le_add_right _ _

theorem midpoint_lt {left right : Nat} (nonempty : left < right) :
    midpoint left right < right := by
  unfold midpoint
  omega

/-- Search `[left, right)`: `.lt` continues before the midpoint, `.gt` after it,
and a probe without an answer ends the search. The fuel bounds the number of
probes; the length of the interval is always enough. -/
def bisect (probe : Nat → Option Ordering) : Nat → Nat → Nat → Option Nat
  | 0, _, _ => none
  | fuel + 1, left, right =>
      if left < right then
        match probe (midpoint left right) with
        | none => none
        | some .eq => some (midpoint left right)
        | some .lt => bisect probe fuel left (midpoint left right)
        | some .gt => bisect probe fuel (midpoint left right + 1) right
      else none

/-- The midpoints that a halving of `[left, right)` visits before `target`. -/
def halvingPath : Nat → Nat → Nat → Nat → List Nat
  | 0, _, _, _ => []
  | fuel + 1, left, right, target =>
      if target < midpoint left right then
        midpoint left right :: halvingPath fuel left (midpoint left right) target
      else if midpoint left right < target then
        midpoint left right :: halvingPath fuel (midpoint left right + 1) right target
      else []

/-- The midpoints that a search leaves for one side. -/
def searchPath (probe : Nat → Option Ordering) : Nat → Nat → Nat → List Nat
  | 0, _, _ => []
  | fuel + 1, left, right =>
      if left < right then
        match probe (midpoint left right) with
        | none => []
        | some .eq => []
        | some .lt => midpoint left right :: searchPath probe fuel left (midpoint left right)
        | some .gt => midpoint left right :: searchPath probe fuel (midpoint left right + 1) right
      else []

/-- The probe points from `position` towards `target`. -/
def Towards (probe : Nat → Option Ordering) (target position : Nat) : Prop :=
  (position < target → probe position = some .gt) ∧
    (target < position → probe position = some .lt)

instance (probe : Nat → Option Ordering) (target position : Nat) :
    Decidable (Towards probe target position) :=
  inferInstanceAs (Decidable (_ ∧ _))

theorem bisect_sound {probe : Nat → Option Ordering} {fuel left right position : Nat}
    (found : bisect probe fuel left right = some position) :
    left ≤ position ∧ position < right ∧ probe position = some .eq ∧
      ∀ visited ∈ halvingPath fuel left right position, Towards probe position visited := by
  induction fuel generalizing left right with
  | zero => cases found
  | succ fuel ih =>
      unfold bisect at found
      split at found
      · next nonempty =>
          have lower := le_midpoint left right
          have upper := midpoint_lt nonempty
          unfold halvingPath
          split at found
          · cases found
          · next equal =>
              cases found
              exact ⟨lower, upper, equal, by simp⟩
          · next before =>
              obtain ⟨above, below, equal, path⟩ := ih found
              refine ⟨above, by omega, equal, ?_⟩
              rw [if_pos below]
              intro visited member
              rcases List.mem_cons.mp member with rfl | member
              · exact ⟨fun wrong => by omega, fun _ => before⟩
              · exact path visited member
          · next after =>
              obtain ⟨above, below, equal, path⟩ := ih found
              refine ⟨by omega, below, equal, ?_⟩
              rw [if_neg (by omega), if_pos (by omega)]
              intro visited member
              rcases List.mem_cons.mp member with rfl | member
              · exact ⟨fun _ => after, fun wrong => by omega⟩
              · exact path visited member
      · cases found

theorem bisect_complete {probe : Nat → Option Ordering} {fuel left right position : Nat}
    (enough : right - left ≤ fuel) (above : left ≤ position) (below : position < right)
    (equal : probe position = some .eq)
    (path : ∀ visited ∈ halvingPath fuel left right position,
      Towards probe position visited) :
    bisect probe fuel left right = some position := by
  induction fuel generalizing left right with
  | zero => omega
  | succ fuel ih =>
      have nonempty : left < right := by omega
      have lower := le_midpoint left right
      have upper := midpoint_lt nonempty
      unfold halvingPath at path
      unfold bisect
      rw [if_pos nonempty]
      by_cases before : position < midpoint left right
      · rw [if_pos before] at path
        rw [(path _ List.mem_cons_self).2 before]
        exact ih (by omega) above before
          (fun visited member => path visited (List.mem_cons_of_mem _ member))
      · by_cases after : midpoint left right < position
        · rw [if_neg before, if_pos after] at path
          rw [(path _ List.mem_cons_self).1 after]
          exact ih (by omega) after below
            (fun visited member => path visited (List.mem_cons_of_mem _ member))
        · have reached : midpoint left right = position := by omega
          rw [reached, equal]

/-- Without any order on the probe: the search ends at a position exactly when
the position answers `.eq` and every position visited on the way points to it. -/
theorem bisect_eq_some_iff {probe : Nat → Option Ordering} {fuel left right position : Nat}
    (enough : right - left ≤ fuel) :
    bisect probe fuel left right = some position ↔
      left ≤ position ∧ position < right ∧ probe position = some .eq ∧
        ∀ visited ∈ halvingPath fuel left right position, Towards probe position visited := by
  constructor
  · intro found
    exact bisect_sound found
  · rintro ⟨above, below, equal, path⟩
    exact bisect_complete enough above below equal path

theorem mem_halvingPath {fuel left right target visited : Nat} (above : left ≤ target)
    (below : target < right) (member : visited ∈ halvingPath fuel left right target) :
    left ≤ visited ∧ visited < right ∧ visited ≠ target := by
  induction fuel generalizing left right with
  | zero => cases member
  | succ fuel ih =>
      have lower := le_midpoint left right
      have upper := midpoint_lt (Nat.lt_of_le_of_lt above below)
      unfold halvingPath at member
      split at member
      · next before =>
          rcases List.mem_cons.mp member with rfl | member
          · exact ⟨lower, upper, by omega⟩
          · obtain ⟨inside, under, apart⟩ := ih above before member
            exact ⟨inside, by omega, apart⟩
      · split at member
        · next after =>
            rcases List.mem_cons.mp member with rfl | member
            · exact ⟨lower, upper, by omega⟩
            · obtain ⟨inside, under, apart⟩ := ih after below member
              exact ⟨by omega, under, apart⟩
        · cases member

theorem searchPath_of_found {probe : Nat → Option Ordering} {fuel left right position : Nat}
    (found : bisect probe fuel left right = some position) :
    searchPath probe fuel left right = halvingPath fuel left right position := by
  induction fuel generalizing left right with
  | zero => cases found
  | succ fuel ih =>
      unfold bisect at found
      unfold searchPath halvingPath
      split at found
      · next nonempty =>
          rw [if_pos nonempty]
          split at found
          · cases found
          · next equal =>
              cases found
              rw [if_neg (Nat.lt_irrefl _), if_neg (Nat.lt_irrefl _)]
          · next before =>
              obtain ⟨_, below, _⟩ := bisect_sound found
              rw [if_pos below, ← ih found]
          · next after =>
              obtain ⟨above, _⟩ := bisect_sound found
              rw [if_neg (by omega), if_pos (by omega), ← ih found]
      · cases found

/-- The probe never sends the search away from `target`: before it no answer is `.lt`,
after it none is `.gt`, and every position answers. -/
structure Leads (probe : Nat → Option Ordering) (target position : Nat) : Prop where
  answers : ∃ answer, probe position = some answer
  before : probe position = some .lt → target < position
  after : probe position = some .gt → position < target

theorem Leads.towards {probe : Nat → Option Ordering} {target position : Nat}
    (leads : Leads probe target position) (unequal : probe position ≠ some .eq) :
    Towards probe target position := by
  obtain ⟨⟨answer, probed⟩, before, after⟩ := leads
  refine ⟨fun earlier => ?_, fun later => ?_⟩
  · cases answer with
    | eq => exact absurd probed unequal
    | gt => exact probed
    | lt => exact absurd (before probed) (by omega)
  · cases answer with
    | eq => exact absurd probed unequal
    | lt => exact probed
    | gt => exact absurd (after probed) (by omega)

/-- With equal answers around the target the search ends at one of them, not necessarily
at the target. -/
theorem bisect_finds {probe : Nat → Option Ordering} {fuel left right target : Nat}
    (enough : right - left ≤ fuel) (above : left ≤ target) (below : target < right)
    (leads : ∀ position, left ≤ position → position < right → Leads probe target position) :
    ∃ position, bisect probe fuel left right = some position := by
  induction fuel generalizing left right with
  | zero => omega
  | succ fuel ih =>
      have nonempty : left < right := by omega
      have lower := le_midpoint left right
      have upper := midpoint_lt nonempty
      obtain ⟨⟨answer, probed⟩, before, after⟩ := leads (midpoint left right) lower upper
      simp only [bisect, nonempty, if_true, probed]
      cases answer with
      | eq => exact ⟨_, rfl⟩
      | lt =>
          have target_before := before probed
          exact ih (by omega) above target_before fun position lower upper =>
            leads position lower (by omega)
      | gt =>
          have target_after := after probed
          exact ih (by omega) target_after below fun position lower upper =>
            leads position (by omega) upper

/-- Two probes with the same targets, of which the first leads to each of them: the search
with the second finds a target exactly if the two agree wherever the first search turns. -/
theorem bisect_finds_iff {first second : Nat → Option Ordering} {fuel left right target : Nat}
    (enough : right - left ≤ fuel) (above : left ≤ target) (below : target < right)
    (hit : first target = some .eq)
    (leads : ∀ goal, left ≤ goal → goal < right → first goal = some .eq →
      ∀ position, left ≤ position → position < right → Leads first goal position)
    (same : ∀ position, left ≤ position → position < right →
      (second position = some .eq ↔ first position = some .eq)) :
    (∃ position, bisect second fuel left right = some position) ↔
      ∀ visited ∈ searchPath first fuel left right, second visited = first visited := by
  constructor
  · rintro ⟨position, found⟩
    obtain ⟨lower, upper, equal, path⟩ := bisect_sound found
    have goal := (same position lower upper).mp equal
    -- where the second probe turns, the first one has to turn the same way
    have agree : ∀ visited ∈ halvingPath fuel left right position,
        Towards first position visited ∧ second visited = first visited := by
      intro visited member
      obtain ⟨inside, under, apart⟩ := mem_halvingPath lower upper member
      obtain ⟨earlier, later⟩ := path visited member
      have unequal : first visited ≠ some .eq := by
        intro met
        have equal := (same visited inside under).mpr met
        rcases Nat.lt_or_gt_of_ne apart with before | after
        · cases (earlier before).symm.trans equal
        · cases (later after).symm.trans equal
      have towards := (leads position lower upper goal visited inside under).towards unequal
      refine ⟨towards, ?_⟩
      rcases Nat.lt_or_gt_of_ne apart with before | after
      · exact (earlier before).trans (towards.1 before).symm
      · exact (later after).trans (towards.2 after).symm
    have reached : bisect first fuel left right = some position :=
      bisect_complete enough lower upper goal fun visited member => (agree visited member).1
    rw [searchPath_of_found reached]
    exact fun visited member => (agree visited member).2
  · intro agree
    obtain ⟨position, found⟩ := bisect_finds enough above below (leads target above below hit)
    obtain ⟨lower, upper, equal, path⟩ := bisect_sound found
    rw [searchPath_of_found found] at agree
    refine ⟨position, bisect_complete enough lower upper ((same _ lower upper).mpr equal) ?_⟩
    intro visited member
    obtain ⟨earlier, later⟩ := path visited member
    exact ⟨fun side => (agree visited member).trans (earlier side),
      fun side => (agree visited member).trans (later side)⟩

end DynLinker.Lib
