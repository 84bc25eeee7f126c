import DynLinker.Debug.LinkMaps

/-! The list of link maps stays a doubly linked list of exactly the maps that were
added and not dropped. The test that `ExtraData` uses for membership, being first or
having a predecessor, is exact for every map in such a history. -/

set_option autoImplicit false

namespace DynLinker.Debug

open Lib Loader

namespace CustomDebug

variable {custom dropped : CustomDebug} {debug : GdbDebug} {address linkMap : LinkMapAddress}

/-! ## Links after one write -/

@[simp] theorem next_setMap (map : LinkMap) :
    (custom.setMap address map).next = Function.update custom.next address map.lNext :=
  Function.comp_update LinkMap.lNext custom.maps address map

@[simp] theorem prev_setMap (map : LinkMap) :
    (custom.setMap address map).prev = Function.update custom.prev address map.lPrev :=
  Function.comp_update LinkMap.lPrev custom.maps address map

@[simp] theorem next_setNext (next : Option LinkMapAddress) :
    (custom.setNext address next).next = Function.update custom.next address next :=
  next_setMap _

@[simp] theorem prev_setNext (next : Option LinkMapAddress) :
    (custom.setNext address next).prev = custom.prev :=
  (prev_setMap _).trans (Function.update_eq_self address custom.prev)

@[simp] theorem next_setPrev (prev : Option LinkMapAddress) :
    (custom.setPrev address prev).next = custom.next :=
  (next_setMap _).trans (Function.update_eq_self address custom.next)

@[simp] theorem prev_setPrev (prev : Option LinkMapAddress) :
    (custom.setPrev address prev).prev = Function.update custom.prev address prev :=
  prev_setMap _

@[simp] theorem next_setReal (real : Option LinkMapAddress) :
    (custom.setReal address real).next = custom.next :=
  (next_setMap _).trans (Function.update_eq_self address custom.next)

@[simp] theorem prev_setReal (real : Option LinkMapAddress) :
    (custom.setReal address real).prev = custom.prev :=
  (prev_setMap _).trans (Function.update_eq_self address custom.prev)

@[simp] theorem next_ownReal : (custom.ownReal debug linkMap).next = custom.next := by
  unfold ownReal
  split
  · exact next_setReal _
  · split
    · exact next_setReal _
    · rfl

@[simp] theorem prev_ownReal : (custom.ownReal debug linkMap).prev = custom.prev := by
  unfold ownReal
  split
  · exact prev_setReal _
  · split
    · exact prev_setReal _
    · rfl

/-! ## What one operation does to the links -/

/-- Everything of an operation that the shape of the list depends on. -/
structure Linking (custom : CustomDebug) (internal : Bool) (head tail : Option LinkMapAddress)
    (next prev : LinkMapAddress → Option LinkMapAddress) : Prop where
  debug : ∃ brk, custom.debug = some ⟨internal, head, brk, .consistent⟩
  tail : custom.tail = tail
  next : custom.next = next
  prev : custom.prev = prev

theorem addDebugLinkMap_linking (present : custom.debug = some debug) :
    (custom.addDebugLinkMap linkMap).Linking debug.internal
      (if custom.tail = none then some linkMap else debug.map) (some linkMap)
      (redirectFrom (Function.update custom.next linkMap none) custom.tail (some linkMap))
      (Function.update custom.prev linkMap custom.tail) := by
  unfold addDebugLinkMap
  rw [present]
  cases last : custom.tail with
  | none =>
      refine ⟨⟨debug.brk, rfl⟩, rfl, ?_, ?_⟩
      · exact (next_setNext _).trans (by simp [redirectFrom])
      · exact (prev_setNext _).trans (by simp)
  | some tail =>
      refine ⟨⟨debug.brk, rfl⟩, rfl, ?_, ?_⟩
      · exact (next_setNext _).trans (by simp [redirectFrom])
      · exact (prev_setNext _).trans (by simp)

/-- Taking out a map that is first exactly when it has no predecessor, and last exactly
when it has no successor. -/
theorem detach_linking (first : debug.map = some linkMap ↔ custom.prev linkMap = none)
    (last : custom.tail = some linkMap ↔ custom.next linkMap = none) :
    ∃ detached, custom.detach debug linkMap =
        some ({ debug with
          map := if custom.prev linkMap = none then custom.next linkMap else debug.map },
          detached) ∧
      detached.tail = (if custom.next linkMap = none then custom.prev linkMap else custom.tail) ∧
      detached.next = redirectFrom custom.next (custom.prev linkMap) (custom.next linkMap) ∧
      detached.prev = redirectFrom custom.prev (custom.next linkMap) (custom.prev linkMap) := by
  unfold detach
  cases before : (custom.maps linkMap).lPrev with
  | none =>
      have noPrev : custom.prev linkMap = none := before
      rw [decide_eq_true (first.mpr noPrev), noPrev]
      cases after : (custom.maps linkMap).lNext with
      | none =>
          have noNext : custom.next linkMap = none := after
          rw [decide_eq_true (last.mpr noNext), noNext]
          exact ⟨_, rfl, rfl, rfl, rfl⟩
      | some following =>
          have hasNext : custom.next linkMap = some following := after
          rw [decide_eq_false (by rw [last, hasNext]; exact Option.some_ne_none _), hasNext]
          exact ⟨_, rfl, rfl, next_setPrev _, prev_setPrev _⟩
  | some previous =>
      have hasPrev : custom.prev linkMap = some previous := before
      rw [decide_eq_false (by rw [first, hasPrev]; exact Option.some_ne_none _), hasPrev]
      cases after : (custom.maps linkMap).lNext with
      | none =>
          have noNext : custom.next linkMap = none := after
          rw [decide_eq_true (last.mpr noNext), noNext]
          exact ⟨_, rfl, rfl, next_setNext _, prev_setNext _⟩
      | some following =>
          have hasNext : custom.next linkMap = some following := after
          rw [decide_eq_false (by rw [last, hasNext]; exact Option.some_ne_none _), hasNext]
          refine ⟨_, rfl, rfl, ?_, ?_⟩
          · exact (next_setPrev _).trans (next_setNext _)
          · refine (prev_setPrev _).trans ?_
            rw [prev_setNext]
            rfl

theorem dropExtraData_linking (present : custom.debug = some debug)
    (first : debug.map = some linkMap ↔ custom.prev linkMap = none)
    (last : custom.tail = some linkMap ↔ custom.next linkMap = none) :
    ∃ dropped, custom.dropExtraData linkMap = some dropped ∧
      dropped.Linking debug.internal
        (if custom.prev linkMap = none then custom.next linkMap else debug.map)
        (if custom.next linkMap = none then custom.prev linkMap else custom.tail)
        (redirectFrom custom.next (custom.prev linkMap) (custom.next linkMap))
        (redirectFrom custom.prev (custom.next linkMap) (custom.prev linkMap)) := by
  have listed : ¬ (debug.map ≠ some linkMap ∧ (custom.maps linkMap).lPrev = none) := by
    rintro ⟨notFirst, noPrev⟩
    exact notFirst (first.mpr noPrev)
  let announced := custom.callDebugState { debug with state := .delete }
  obtain ⟨detached, detaching, tail, next, prev⟩ :=
    @detach_linking announced { debug with state := .delete } linkMap first last
  unfold dropExtraData
  rw [present]
  change ∃ dropped, ite _ _ ((announced.detach _ linkMap).bind _) = _ ∧ _
  rw [if_neg listed, detaching]
  exact ⟨_, rfl, ⟨debug.brk, rfl⟩, tail, next, prev⟩

section

variable {head : Option LinkMapAddress} {nodes front back : List LinkMapAddress}

/-- Writing a map that is not a node leaves the list alone. -/
theorem linked_setMap {tail : Option LinkMapAddress}
    (linked : DoublyLinked custom.next custom.prev head tail nodes) (fresh : linkMap ∉ nodes)
    (contents : LinkMap) :
    DoublyLinked (custom.setMap linkMap contents).next (custom.setMap linkMap contents).prev head
      tail nodes := by
  refine linked.congr ?_ ?_
  · intro node member
    rw [next_setMap, Function.update_of_ne]
    rintro rfl
    exact fresh member
  · intro node member
    rw [prev_setMap, Function.update_of_ne]
    rintro rfl
    exact fresh member

/-- A map is appended to whatever list ends at the remembered tail; `head` need not be
the head that the record knows. -/
theorem addDebugLinkMap_linked (present : custom.debug = some debug)
    (linked : DoublyLinked custom.next custom.prev head custom.tail nodes)
    (fresh : linkMap ∉ nodes) :
    (∃ brk, (custom.addDebugLinkMap linkMap).debug =
      some ⟨debug.internal, if custom.tail = none then some linkMap else debug.map, brk,
        .consistent⟩) ∧
    DoublyLinked (custom.addDebugLinkMap linkMap).next (custom.addDebugLinkMap linkMap).prev
      (if custom.tail = none then some linkMap else head) (custom.addDebugLinkMap linkMap).tail
      (nodes ++ [linkMap]) ∧
    ∀ other, other ≠ linkMap → (custom.addDebugLinkMap linkMap).prev other = custom.prev other := by
  obtain ⟨stored, tail, next, prev⟩ := addDebugLinkMap_linking present
  refine ⟨stored, ?_, ?_⟩
  · rw [tail, next, prev]
    exact linked.append fresh
  · intro other different
    rw [prev, Function.update_of_ne different]

/-- A node is taken out of whatever list ends at the remembered tail, if the record takes
it for the first one exactly when it is. -/
theorem dropExtraData_linked (present : custom.debug = some debug)
    (linked : DoublyLinked custom.next custom.prev head custom.tail (front ++ linkMap :: back))
    (first : debug.map = some linkMap ↔ front = []) :
    ∃ dropped brk, custom.dropExtraData linkMap = some dropped ∧
      dropped.debug = some ⟨debug.internal,
        if custom.prev linkMap = none then custom.next linkMap else debug.map, brk,
        .consistent⟩ ∧
      DoublyLinked dropped.next dropped.prev
        (if custom.prev linkMap = none then custom.next linkMap else head) dropped.tail
        (front ++ back) ∧
      ∀ other ∉ front ++ linkMap :: back, dropped.prev other = custom.prev other := by
  have isFirst : debug.map = some linkMap ↔ custom.prev linkMap = none := by
    rw [first, linked.prev_eq, List.getLast?_eq_none_iff]
  have isLast : custom.tail = some linkMap ↔ custom.next linkMap = none := by
    rw [linked.tail_eq_some_iff, linked.next_eq, List.head?_eq_none_iff]
  obtain ⟨dropped, dropping, ⟨brk, stored⟩, tail, next, prev⟩ :=
    dropExtraData_linking present isFirst isLast
  refine ⟨dropped, brk, dropping, stored, ?_, ?_⟩
  · rw [tail, next, prev]
    exact linked.remove
  · intro other outside
    rw [prev, linked.next_eq]
    cases following : back.head? with
    | none => rfl
    | some node =>
        refine Function.update_of_ne ?_ _ _
        rintro rfl
        refine outside (List.mem_append_right _ (List.mem_cons_of_mem _ ?_))
        exact List.mem_of_head? following

end

/-- A map that is not first and has no predecessor is left alone. -/
theorem dropExtraData_unlisted (present : custom.debug = some debug)
    (notFirst : debug.map ≠ some linkMap) (noPrev : custom.prev linkMap = none) :
    custom.dropExtraData linkMap = some custom := by
  unfold dropExtraData
  rw [present]
  exact if_pos ⟨notFirst, noPrev⟩

/-! ## The host's list -/

theorem lastFrom_eq {nodes : List LinkMapAddress} {first : LinkMapAddress} (fuel : Nat)
    (walk : Segment custom.next (some first) nodes none) :
    lastFrom custom.maps fuel first =
      if nodes.length ≤ fuel then nodes.getLast? else none := by
  induction nodes generalizing first fuel with
  | nil => cases walk
  | cons node rest ih =>
      obtain ⟨same, walk⟩ := walk
      cases same
      cases fuel with
      | zero => rfl
      | succ fuel =>
          unfold lastFrom
          cases rest with
          | nil =>
              have stops : (custom.maps node).lNext = none := walk
              rw [stops, if_pos (by simp)]
              rfl
          | cons second others =>
              have follows : (custom.maps node).lNext = some second := walk.1
              rw [follows, List.getLast?_cons_cons, List.length_cons]
              simpa only [Nat.add_le_add_iff_right] using ih fuel ⟨rfl, walk.2⟩

/-- With fuel for the whole list the loop ends, and it ends at the last node. -/
theorem initHostDebug_eq {host : GdbDebug} {nodes : List LinkMapAddress} (fuel : Nat)
    (linked : DoublyLinked custom.next custom.prev host.map nodes.getLast? nodes) :
    custom.initHostDebug fuel host =
      if nodes.length ≤ fuel then
        some { custom with debug := some host, tail := nodes.getLast? }
      else none := by
  have head := linked.head_eq
  have walk := linked.forward
  unfold initHostDebug
  cases nodes with
  | nil =>
      rw [head]
      rfl
  | cons first rest =>
      rw [head] at walk
      rw [head]
      change (lastFrom custom.maps fuel first).bind _ = _
      rw [lastFrom_eq fuel walk]
      split
      · rw [List.getLast?_eq_some_getLast (List.cons_ne_nil first rest)]
        rfl
      · rfl

end CustomDebug

/-! ## Every history -/

/-- Well-formed after every operation: the listed maps are exactly the nodes of a doubly
linked list, and no unlisted map looks listed. -/
structure WellLinked (world : DebugWorld) : Prop where
  list : ∃ debug, world.custom.debug = some debug ∧ debug.state = .consistent ∧
    DoublyLinked world.custom.next world.custom.prev debug.map world.custom.tail world.listed
  separate : (world.listed ++ world.unlisted).Nodup
  unlinked : ∀ linkMap ∈ world.unlisted, world.custom.prev linkMap = none

namespace WellLinked

variable {world next : DebugWorld} {linkMap : LinkMapAddress}

theorem listed_nodup (valid : WellLinked world) : world.listed.Nodup :=
  (List.nodup_append.mp valid.separate).1

theorem not_listed (valid : WellLinked world) (member : linkMap ∈ world.unlisted) :
    linkMap ∉ world.listed := by
  intro listed
  exact List.disjoint_of_nodup_append valid.separate listed member

theorem add (valid : WellLinked world) (fresh : ¬ world.Live linkMap) (contents : LinkMap) :
    WellLinked { world with
      custom := (world.custom.setMap linkMap contents).addDebugLinkMap linkMap
      added := world.added ++ [linkMap] } := by
  obtain ⟨debug, present, _, linked⟩ := valid.list
  obtain ⟨notListed, notUnlisted⟩ := not_or.mp fresh
  obtain ⟨⟨brk, stored⟩, appended, others⟩ :=
    @CustomDebug.addDebugLinkMap_linked (world.custom.setMap linkMap contents) debug linkMap _ _
      present (CustomDebug.linked_setMap linked notListed contents) notListed
  refine ⟨⟨_, stored, rfl, ?_⟩, ?_, ?_⟩
  · change DoublyLinked _ _ _ _ (world.initial ++ (world.added ++ [linkMap]))
    rw [← List.append_assoc]
    exact appended
  · change ((world.initial ++ (world.added ++ [linkMap])) ++ world.unlisted).Nodup
    have reorder : ((world.initial ++ (world.added ++ [linkMap])) ++ world.unlisted).Perm
        (linkMap :: (world.listed ++ world.unlisted)) := by
      rw [← List.append_assoc, List.append_assoc, List.singleton_append]
      exact List.perm_middle
    refine reorder.nodup_iff.mpr (List.nodup_cons.mpr ⟨?_, valid.separate⟩)
    intro member
    exact fresh (List.mem_append.mp member)
  · intro other member
    have different : other ≠ linkMap := by
      rintro rfl
      exact notUnlisted member
    rw [others other different, CustomDebug.prev_setMap, Function.update_of_ne different]
    exact valid.unlinked other member

theorem copy (valid : WellLinked world) {boxed : LinkMapAddress} (fresh : ¬ world.Live boxed)
    (base : Nat) (host : Option LinkMapAddress) :
    WellLinked { world with
      custom := world.custom.fromRaw base host boxed
      unlisted := boxed :: world.unlisted } := by
  obtain ⟨debug, present, consistent, linked⟩ := valid.list
  obtain ⟨notListed, notUnlisted⟩ := not_or.mp fresh
  have prevLinks : (world.custom.fromRaw base host boxed).prev =
      Function.update world.custom.prev boxed none := CustomDebug.prev_setMap _
  refine ⟨⟨debug, present, consistent, CustomDebug.linked_setMap linked notListed _⟩, ?_, ?_⟩
  · have reorder : (world.listed ++ boxed :: world.unlisted).Perm
        (boxed :: (world.listed ++ world.unlisted)) := List.perm_middle
    refine reorder.nodup_iff.mpr (List.nodup_cons.mpr ⟨?_, valid.separate⟩)
    intro member
    exact fresh (List.mem_append.mp member)
  · intro other member
    rw [prevLinks]
    by_cases same : other = boxed
    · rw [same, Function.update_self]
    · rw [Function.update_of_ne same]
      exact valid.unlinked other ((List.mem_cons.mp member).resolve_left same)

theorem drop_unlisted (valid : WellLinked world) (member : linkMap ∈ world.unlisted) :
    world.custom.dropExtraData linkMap = some world.custom := by
  obtain ⟨debug, present, _, linked⟩ := valid.list
  refine CustomDebug.dropExtraData_unlisted present ?_ (valid.unlinked linkMap member)
  intro first
  exact valid.not_listed member (List.mem_of_head? (linked.head_eq.symm.trans first))

/-- The record's head is the first node, so dropping a listed map takes exactly it out. -/
theorem drop_listed (valid : WellLinked world) (member : linkMap ∈ world.listed) :
    ∃ custom debug, world.custom.dropExtraData linkMap = some custom ∧
      custom.debug = some debug ∧ debug.state = .consistent ∧
      DoublyLinked custom.next custom.prev debug.map custom.tail (world.listed.erase linkMap) ∧
      ∀ other ∉ world.listed, custom.prev other = world.custom.prev other := by
  obtain ⟨debug, present, _, linked⟩ := valid.list
  obtain ⟨front, back, split⟩ := List.append_of_mem member
  rw [split] at linked
  have fresh : linkMap ∉ front := by
    intro early
    exact List.disjoint_of_nodup_append linked.distinct early List.mem_cons_self
  obtain ⟨custom, brk, dropping, stored, removed, others⟩ :=
    CustomDebug.dropExtraData_linked present linked linked.head_eq_some_iff
  rw [split, List.erase_append_right _ fresh, List.erase_cons_head]
  exact ⟨custom, _, dropping, stored, rfl, removed, others⟩

theorem listed_erase (valid : WellLinked world) :
    world.initial.erase linkMap ++ world.added.erase linkMap = world.listed.erase linkMap := by
  by_cases early : linkMap ∈ world.initial
  · have notAdded : linkMap ∉ world.added := by
      intro late
      exact List.disjoint_of_nodup_append valid.listed_nodup early late
    rw [DebugWorld.listed, List.erase_append_left _ early, List.erase_of_not_mem notAdded]
  · rw [DebugWorld.listed, List.erase_append_right _ early, List.erase_of_not_mem early]

theorem drop (valid : WellLinked world) {custom : CustomDebug} (live : world.Live linkMap)
    (dropping : world.custom.dropExtraData linkMap = some custom) :
    WellLinked {
      custom := custom
      initial := world.initial.erase linkMap
      added := world.added.erase linkMap
      unlisted := world.unlisted.erase linkMap } := by
  have separate : (world.listed.erase linkMap ++ world.unlisted.erase linkMap).Nodup :=
    valid.separate.sublist (List.Sublist.append (List.erase_sublist) (List.erase_sublist))
  rcases live with listed | unlisted
  · obtain ⟨_, debug, dropped, stored, consistent, linked, others⟩ := valid.drop_listed listed
    cases dropping.symm.trans dropped
    refine ⟨⟨debug, stored, consistent, ?_⟩, ?_, ?_⟩
    · change DoublyLinked _ _ _ _ (world.initial.erase linkMap ++ world.added.erase linkMap)
      rw [valid.listed_erase]
      exact linked
    · change ((world.initial.erase linkMap ++ world.added.erase linkMap) ++ _).Nodup
      rw [valid.listed_erase]
      exact separate
    · intro other member
      have present := List.mem_of_mem_erase member
      rw [others other (valid.not_listed present)]
      exact valid.unlinked other present
  · cases dropping.symm.trans (valid.drop_unlisted unlisted)
    have notListed := valid.not_listed unlisted
    refine ⟨?_, ?_, ?_⟩
    · change ∃ debug, _ ∧ _ ∧ DoublyLinked _ _ _ _
        (world.initial.erase linkMap ++ world.added.erase linkMap)
      rw [valid.listed_erase, List.erase_of_not_mem notListed]
      exact valid.list
    · change ((world.initial.erase linkMap ++ world.added.erase linkMap) ++ _).Nodup
      rw [valid.listed_erase]
      exact separate
    · intro other member
      exact valid.unlinked other (List.mem_of_mem_erase member)

end WellLinked

theorem wellLinked_started {world : DebugWorld} (started : world.Started) : WellLinked world := by
  cases started with
  | internal =>
      exact ⟨⟨_, rfl, rfl, DoublyLinked.empty⟩, List.nodup_nil, fun _ member => by cases member⟩
  | @host before custom fuel host nodes _ consistent linked starting =>
      rw [CustomDebug.initHostDebug_eq fuel linked] at starting
      split at starting
      · cases starting
        refine ⟨⟨host, rfl, consistent, ?_⟩, ?_, fun _ member => by cases member⟩
        · change DoublyLinked before.next before.prev host.map nodes.getLast? (nodes ++ [])
          rw [List.append_nil]
          exact linked
        · change ((nodes ++ []) ++ []).Nodup
          rw [List.append_nil, List.append_nil]
          exact linked.distinct
      · cases starting

/-- What the list should hold after an operation, by its label alone. -/
def listedAfter (nodes : List LinkMapAddress) : DebugAction → List LinkMapAddress
  | .add linkMap _ => nodes ++ [linkMap]
  | .copy _ _ _ => nodes
  | .drop linkMap => nodes.erase linkMap

/-- One step keeps the list well formed and does to its nodes what the label says. -/
theorem wellLinked_step {world next : DebugWorld} {action : DebugAction}
    (valid : WellLinked world) (step : world.act action = some next) :
    WellLinked next ∧ next.listed = listedAfter world.listed action := by
  cases action with
  | add linkMap contents =>
      rw [DebugWorld.act] at step
      split at step
      · cases step
      · next fresh =>
          cases step
          exact ⟨valid.add fresh contents, (List.append_assoc _ _ _).symm⟩
  | copy base host boxed =>
      rw [DebugWorld.act] at step
      split at step
      · cases step
      · next fresh =>
          cases step
          exact ⟨valid.copy fresh base host, rfl⟩
  | drop linkMap =>
      rw [DebugWorld.act] at step
      split at step
      · next live =>
          obtain ⟨custom, dropping, same⟩ := Option.bind_eq_some_iff.mp step
          cases same
          exact ⟨valid.drop live dropping, valid.listed_erase⟩
      · cases step

theorem wellLinked_runLabels {actions : List DebugAction} {world next : DebugWorld}
    (valid : WellLinked world)
    (ran : TransitionSystem.runLabels DebugWorld.act world actions = some next) :
    WellLinked next ∧ next.listed = actions.foldl listedAfter world.listed := by
  induction actions generalizing world with
  | nil =>
      cases ran
      exact ⟨valid, rfl⟩
  | cons action rest ih =>
      obtain ⟨middle, step, ran⟩ := Option.bind_eq_some_iff.mp ran
      obtain ⟨kept, listed⟩ := wellLinked_step valid step
      rw [List.foldl_cons, ← listed]
      exact ih kept ran

theorem wellLinked_run {start world : DebugWorld} {actions : List DebugAction}
    (started : start.Started) (run : DebugWorld.system.Run start actions world) :
    WellLinked world ∧ world.listed = actions.foldl listedAfter start.listed := by
  induction run with
  | refl => exact ⟨wellLinked_started started, rfl⟩
  | snoc _ step ih =>
      obtain ⟨valid, listed⟩ := ih
      obtain ⟨kept, after⟩ := wellLinked_step valid step
      rw [List.foldl_append, ← listed]
      exact ⟨kept, after⟩

/-- For every history: the two walks see the first nodes followed by the maps that were
added and not dropped, a live map can always be dropped, and dropping an unlisted one
changes nothing. -/
theorem link_map_list_faithful {start world : DebugWorld} {actions : List DebugAction}
    (started : start.Started) (run : DebugWorld.system.Run start actions world) :
    (∃ debug, world.custom.debug = some debug ∧ debug.state = .consistent ∧
      Segment world.custom.next debug.map (actions.foldl listedAfter start.initial) none ∧
      Segment world.custom.prev world.custom.tail
        (actions.foldl listedAfter start.initial).reverse none ∧
      world.custom.tail = (actions.foldl listedAfter start.initial).getLast?) ∧
    (∀ linkMap, world.Live linkMap → ∃ custom, world.custom.dropExtraData linkMap = some custom) ∧
    ∀ linkMap ∈ world.unlisted, world.custom.dropExtraData linkMap = some world.custom := by
  obtain ⟨valid, listed⟩ := wellLinked_run started run
  have startListed : start.listed = start.initial := by
    cases started with
    | internal => rfl
    | host _ _ _ _ => exact List.append_nil _
  refine ⟨?_, ?_, fun linkMap => valid.drop_unlisted⟩
  · obtain ⟨debug, present, consistent, linked⟩ := valid.list
    rw [listed, startListed] at linked
    exact ⟨debug, present, consistent, linked.forward, linked.backward, linked.tail_eq⟩
  · intro linkMap live
    rcases live with listed | unlisted
    · obtain ⟨custom, _, dropping, _⟩ := valid.drop_listed listed
      exact ⟨custom, dropping⟩
    · exact ⟨world.custom, valid.drop_unlisted unlisted⟩

def mapAt (index : Nat) : LinkMapAddress := ⟨index + 1, Nat.succ_ne_zero index⟩

/-- The record of a host that has loaded one object. -/
def hostRecord : GdbDebug := ⟨false, some (mapAt 0), true, .consistent⟩

/-- The world after this record was taken over. -/
def hostWorld : DebugWorld :=
  ⟨{ CustomDebug.initial fun _ => .zero with debug := some hostRecord, tail := some (mapAt 0) },
    [mapAt 0], [], []⟩

theorem hostWorld_started : hostWorld.Started := by
  let before : CustomDebug := .initial fun _ => .zero
  have linked : DoublyLinked before.next before.prev hostRecord.map [mapAt 0].getLast? [mapAt 0] :=
    ⟨List.nodup_singleton _, ⟨rfl, rfl⟩, ⟨rfl, rfl⟩⟩
  exact .host rfl rfl linked (rfl : before.initHostDebug 1 hostRecord = some _)

/-- Two maps are added to a host's list of one, the host's map is copied, and one of the
added maps and the copy are dropped. -/
theorem link_map_list_faithful_host : ∃ start world : DebugWorld, start.Started ∧
    DebugWorld.system.Run start
      [.add (mapAt 1) .zero, .add (mapAt 2) .zero, .copy 64 (some (mapAt 0)) (mapAt 3),
        .drop (mapAt 1), .drop (mapAt 3)] world ∧
    ∃ debug, world.custom.debug = some debug ∧
      Segment world.custom.next debug.map [mapAt 0, mapAt 2] none := by
  have run := @TransitionSystem.Run.runLabels _ _ DebugWorld.system _ (fun _ _ _ step => step)
    _ _ _ _ _ .refl (rfl : TransitionSystem.runLabels DebugWorld.act hostWorld
      [.add (mapAt 1) .zero, .add (mapAt 2) .zero, .copy 64 (some (mapAt 0)) (mapAt 3),
        .drop (mapAt 1), .drop (mapAt 3)] = some _)
  obtain ⟨⟨debug, present, _, walk, _⟩, _⟩ := link_map_list_faithful hostWorld_started run
  exact ⟨_, _, hostWorld_started, run, debug, present, walk⟩

end DynLinker.Debug
