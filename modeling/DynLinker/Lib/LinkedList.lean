import Mathlib.Data.List.Induction
import Mathlib.Data.List.Nodup
import Mathlib.Logic.Function.Basic

/-! Null-terminated doubly linked lists over arbitrary nodes. The links are two
functions from nodes to nullable nodes; a list of nodes is their ghost content. -/

set_option autoImplicit false

namespace DynLinker.Lib

universe u

variable {Node : Type u}

/-- Following `link` from `first` visits exactly `nodes` and then meets `stop`. -/
def Segment (link : Node → Option Node) : Option Node → List Node → Option Node → Prop
  | first, [], stop => first = stop
  | first, node :: rest, stop => first = some node ∧ Segment link (link node) rest stop

namespace Segment

variable {link other : Node → Option Node} {first middle stop : Option Node}
  {nodes front back : List Node} {node last : Node}

theorem append : Segment link first (front ++ back) stop ↔
    ∃ middle, Segment link first front middle ∧ Segment link middle back stop := by
  induction front generalizing first with
  | nil => exact ⟨fun walk => ⟨first, rfl, walk⟩, fun ⟨_, rfl, walk⟩ => walk⟩
  | cons node rest ih =>
      constructor
      · rintro ⟨rfl, walk⟩
        obtain ⟨middle, early, late⟩ := ih.mp walk
        exact ⟨middle, ⟨rfl, early⟩, late⟩
      · rintro ⟨middle, ⟨rfl, early⟩, late⟩
        exact ⟨rfl, ih.mpr ⟨middle, early, late⟩⟩

/-- A walk cut at one of its nodes. -/
theorem split (walk : Segment link first (front ++ node :: back) stop) :
    Segment link first front (some node) ∧ Segment link (link node) back stop := by
  obtain ⟨_, early, rfl, late⟩ := append.mp walk
  exact ⟨early, late⟩

theorem congr (walk : Segment link first nodes stop)
    (same : ∀ node ∈ nodes, other node = link node) : Segment other first nodes stop := by
  induction nodes generalizing first with
  | nil => exact walk
  | cons node rest ih =>
      obtain ⟨rfl, walk⟩ := walk
      refine ⟨rfl, ?_⟩
      rw [same node List.mem_cons_self]
      exact ih walk fun later member => same later (List.mem_cons_of_mem _ member)

theorem first_eq_head? (walk : Segment link first nodes none) : first = nodes.head? := by
  cases nodes with
  | nil => exact walk
  | cons node rest => exact walk.1

variable [DecidableEq Node]

theorem update (walk : Segment link first nodes stop) (fresh : node ∉ nodes)
    (target : Option Node) : Segment (Function.update link node target) first nodes stop := by
  refine walk.congr ?_
  intro visited member
  refine Function.update_of_ne ?_ _ _
  rintro rfl
  exact fresh member

/-- Only the link of the last node decides where a walk stops. -/
theorem redirect (walk : Segment link first (nodes ++ [last]) stop) (fresh : last ∉ nodes)
    (target : Option Node) :
    Segment (Function.update link last target) first (nodes ++ [last]) target := by
  obtain ⟨early, _⟩ := split walk
  refine append.mpr ⟨some last, early.update fresh target, rfl, ?_⟩
  exact Function.update_self _ _ _

end Segment

/-- `links` with the link of `node`, if it is not null, redirected to `target`. -/
def redirectFrom [DecidableEq Node] (links : Node → Option Node) :
    Option Node → Option Node → Node → Option Node
  | none, _ => links
  | some node, target => Function.update links node target

theorem Segment.redirectFrom [DecidableEq Node] {link : Node → Option Node}
    {first stop : Option Node} {nodes : List Node} (walk : Segment link first nodes stop)
    (distinct : nodes.Nodup) (target : Option Node) :
    Segment (Lib.redirectFrom link nodes.getLast? target)
      (if nodes.getLast? = none then target else first) nodes target := by
  cases nodes using List.reverseRecOn with
  | nil => rfl
  | append_singleton front last =>
      have fresh : last ∉ front := by
        intro member
        exact List.disjoint_of_nodup_append distinct member (List.mem_singleton_self last)
      simpa [Lib.redirectFrom] using walk.redirect fresh target

/-- The two walks over the same distinct nodes, one the reverse of the other. -/
structure DoublyLinked (next prev : Node → Option Node) (head tail : Option Node)
    (nodes : List Node) : Prop where
  distinct : nodes.Nodup
  forward : Segment next head nodes none
  backward : Segment prev tail nodes.reverse none

namespace DoublyLinked

variable {next prev : Node → Option Node} {head tail : Option Node}
  {nodes front back : List Node} {node : Node}

theorem empty : DoublyLinked next prev none none [] := ⟨List.nodup_nil, rfl, rfl⟩

theorem head_eq (linked : DoublyLinked next prev head tail nodes) : head = nodes.head? :=
  linked.forward.first_eq_head?

theorem tail_eq (linked : DoublyLinked next prev head tail nodes) : tail = nodes.getLast? := by
  rw [linked.backward.first_eq_head?, List.head?_reverse]

theorem next_eq (linked : DoublyLinked next prev head tail (front ++ node :: back)) :
    next node = back.head? :=
  linked.forward.split.2.first_eq_head?

theorem backward_split (linked : DoublyLinked next prev head tail (front ++ node :: back)) :
    Segment prev tail back.reverse (some node) ∧ Segment prev (prev node) front.reverse none := by
  have walk := linked.backward
  rw [List.reverse_append, List.reverse_cons, List.append_assoc, List.singleton_append] at walk
  exact walk.split

theorem prev_eq (linked : DoublyLinked next prev head tail (front ++ node :: back)) :
    prev node = front.getLast? := by
  rw [linked.backward_split.2.first_eq_head?, List.head?_reverse]

theorem congr {otherNext otherPrev : Node → Option Node}
    (linked : DoublyLinked next prev head tail nodes)
    (sameNext : ∀ node ∈ nodes, otherNext node = next node)
    (samePrev : ∀ node ∈ nodes, otherPrev node = prev node) :
    DoublyLinked otherNext otherPrev head tail nodes where
  distinct := linked.distinct
  forward := linked.forward.congr sameNext
  backward := linked.backward.congr fun node member => samePrev node (List.mem_reverse.mp member)

/-- The forward link is the inverse of the backward link. -/
theorem next_of_prev (linked : DoublyLinked next prev head tail nodes) {before : Node}
    (member : node ∈ nodes) (precedes : prev node = some before) : next before = some node := by
  obtain ⟨front, back, rfl⟩ := List.append_of_mem member
  rw [linked.prev_eq] at precedes
  obtain ⟨early, rfl⟩ := List.getLast?_eq_some_iff.mp precedes
  rw [List.append_assoc] at linked
  exact linked.next_eq

/-- A node is first exactly when nothing precedes it. -/
theorem head_eq_some_iff (linked : DoublyLinked next prev head tail (front ++ node :: back)) :
    head = some node ↔ front = [] := by
  rw [linked.head_eq]
  cases front with
  | nil => simp
  | cons first rest =>
      have different : first ≠ node := by
        rintro rfl
        exact (List.nodup_cons.mp linked.distinct).1 (by simp)
      simpa using different

theorem tail_eq_some_iff (linked : DoublyLinked next prev head tail (front ++ node :: back)) :
    tail = some node ↔ back = [] := by
  rw [linked.tail_eq]
  cases back using List.reverseRecOn with
  | nil => simp
  | append_singleton rest last =>
      have different : last ≠ node := by
        rintro rfl
        have distinct := (List.nodup_append.mp linked.distinct).2.1
        exact (List.nodup_cons.mp distinct).1 (by simp)
      rw [← List.cons_append, ← List.append_assoc, List.getLast?_concat]
      simpa using different

variable [DecidableEq Node]

theorem append (linked : DoublyLinked next prev head tail nodes) (fresh : node ∉ nodes) :
    DoublyLinked (redirectFrom (Function.update next node none) tail (some node))
      (Function.update prev node tail) (if tail = none then some node else head) (some node)
      (nodes ++ [node]) where
  distinct := by
    refine List.nodup_append.mpr ⟨linked.distinct, List.nodup_singleton node, ?_⟩
    intro left member right single same
    cases List.mem_singleton.mp single
    exact fresh (same ▸ member)
  forward := by
    have walk := (linked.forward.update fresh none).redirectFrom linked.distinct (some node)
    rw [← linked.tail_eq] at walk
    refine Segment.append.mpr ⟨some node, walk, rfl, ?_⟩
    cases last : tail with
    | none => exact Function.update_self _ _ _
    | some other =>
        have listed : other ∈ nodes := List.mem_of_getLast? (linked.tail_eq.symm.trans last)
        have different : node ≠ other := by
          rintro rfl
          exact fresh listed
        change Function.update (Function.update next node none) other (some node) node = none
        rw [Function.update_of_ne different, Function.update_self]
  backward := by
    rw [List.reverse_append]
    refine ⟨rfl, ?_⟩
    rw [Function.update_self]
    exact linked.backward.update (by simpa using fresh) tail

/-- Taking a node out redirects its two neighbours, or the ends, around it. -/
theorem remove (linked : DoublyLinked next prev head tail (front ++ node :: back)) :
    DoublyLinked (redirectFrom next (prev node) (next node))
      (redirectFrom prev (next node) (prev node))
      (if prev node = none then next node else head)
      (if next node = none then prev node else tail) (front ++ back) := by
  obtain ⟨leading, trailing⟩ := linked.forward.split
  obtain ⟨behind, before⟩ := linked.backward_split
  have distinct := linked.distinct
  have frontDistinct : front.Nodup := (List.nodup_append.mp distinct).1
  have backDistinct : back.Nodup := (List.nodup_append.mp distinct).2.1.tail
  have apart : List.Disjoint front back := by
    intro other early late
    exact List.disjoint_of_nodup_append distinct early (List.mem_cons_of_mem _ late)
  have prevNode := linked.prev_eq
  have nextNode := linked.next_eq
  refine ⟨List.nodup_append'.mpr ⟨frontDistinct, backDistinct, apart⟩, ?_, ?_⟩
  · have walk := leading.redirectFrom frontDistinct (next node)
    rw [← prevNode] at walk
    refine Segment.append.mpr ⟨next node, walk, trailing.congr ?_⟩
    intro other late
    rw [prevNode]
    cases last : front.getLast? with
    | none => rfl
    | some previous =>
        refine Function.update_of_ne ?_ _ _
        rintro rfl
        exact apart (List.mem_of_getLast? last) late
  · have walk := behind.redirectFrom (List.nodup_reverse.mpr backDistinct) (prev node)
    rw [List.getLast?_reverse, ← nextNode] at walk
    rw [List.reverse_append]
    refine Segment.append.mpr ⟨prev node, walk, before.congr ?_⟩
    intro other early
    rw [nextNode]
    cases first : back.head? with
    | none => rfl
    | some following =>
        refine Function.update_of_ne ?_ _ _
        rintro rfl
        exact apart (List.mem_reverse.mp early) (List.mem_of_head? first)

end DoublyLinked

/-- Follows `next` to the end, as long as every node points back to the one before it. -/
def readList [DecidableEq Node] (next prev : Node → Option Node) :
    Nat → Option Node → Option Node → Option (List Node)
  | _, _, none => some []
  | 0, _, some _ => none
  | fuel + 1, before, some node =>
      if prev node = before then
        (readList next prev fuel (some node) (next node)).map (node :: ·)
      else none

theorem DoublyLinked.readList_from [DecidableEq Node] {next prev : Node → Option Node}
    {head tail : Option Node} {front back : List Node} {fuel : Nat}
    (linked : DoublyLinked next prev head tail (front ++ back)) (enough : back.length ≤ fuel) :
    readList next prev fuel front.getLast? back.head? = some back := by
  induction back generalizing front fuel with
  | nil => simp [readList]
  | cons node rest ih =>
      cases fuel with
      | zero => cases enough
      | succ fuel =>
          have later : DoublyLinked next prev head tail ((front ++ [node]) ++ rest) := by
            simpa using linked
          have walked := ih later (Nat.le_of_succ_le_succ enough)
          rw [List.getLast?_concat] at walked
          simp [readList, linked.prev_eq, linked.next_eq, walked]

/-- A reader that checks both links finds exactly the nodes. -/
theorem DoublyLinked.readList_eq [DecidableEq Node] {next prev : Node → Option Node}
    {head tail : Option Node} {nodes : List Node} {fuel : Nat}
    (linked : DoublyLinked next prev head tail nodes) (enough : nodes.length ≤ fuel) :
    readList next prev fuel none head = some nodes := by
  rw [linked.head_eq]
  exact @DoublyLinked.readList_from _ _ _ _ _ _ [] nodes fuel linked enough

end DynLinker.Lib
