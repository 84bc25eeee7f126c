import DynLinker.Debug.LinkMapsProperties

/-! What a debugger learns from `call_debug_state` (`runtime/debug.rs`). It stops the program
whenever `brk` is called, reads the list of link maps from the record, and takes what it
read for the loaded objects when the record says that the list is consistent. -/

set_option autoImplicit false

namespace DynLinker.Debug

open Lib Loader

namespace CustomDebug

/-- The memory in which `call_debug_state` stops the program, if it does. -/
def stopAt (custom : CustomDebug) (debug : GdbDebug) : List CustomDebug :=
  if debug.brk then [custom.callDebugState debug] else []

/-- `add_debug_link_map` up to the first call of `brk`. -/
def linkIn (custom : CustomDebug) (debug : GdbDebug) (linkMap : LinkMapAddress) :
    GdbDebug × CustomDebug :=
  let linked :=
    ((custom.ownReal debug linkMap).setPrev linkMap custom.tail).setNext linkMap none
  let (debug, attached) := linked.attach debug linkMap custom.tail
  (debug, { attached with tail := some linkMap })

/-- The stops of `add_debug_link_map`. -/
def addStops (custom : CustomDebug) (linkMap : LinkMapAddress) : List CustomDebug :=
  match custom.debug with
  | none => []
  | some debug =>
      let (debug, added) := custom.linkIn debug linkMap
      let announced := added.callDebugState { debug with state := .add }
      added.stopAt { debug with state := .add } ++
        announced.stopAt { debug with state := .consistent }

/-- The stops of `Drop for ExtraData`. -/
def dropStops (custom : CustomDebug) (linkMap : LinkMapAddress) : List CustomDebug :=
  match custom.debug with
  | none => []
  | some debug =>
      if debug.map ≠ some linkMap ∧ (custom.maps linkMap).lPrev = none then []
      else
        let debug := { debug with state := .delete }
        custom.stopAt debug ++
          match (custom.callDebugState debug).detach debug linkMap with
          | none => []
          | some (debug, detached) => detached.stopAt { debug with state := .consistent }

end CustomDebug

def DebugWorld.stops (world : DebugWorld) : DebugAction → List CustomDebug
  | .add linkMap contents => (world.custom.setMap linkMap contents).addStops linkMap
  | .copy _ _ _ => []
  | .drop linkMap => world.custom.dropStops linkMap

/-! ## The debugger -/

inductive DebuggerEvent where
  | loaded (linkMap : LinkMapAddress)
  | unloaded (linkMap : LinkMapAddress)
deriving DecidableEq

/-- What has to be reported when one list has become another one. -/
def changes (before after : List LinkMapAddress) : List DebuggerEvent :=
  (before.filter (· ∉ after)).map .unloaded ++ (after.filter (· ∉ before)).map .loaded

/-- `seen` is what it read at every stop, `view` what it takes for loaded, and `events` what
it has reported. -/
structure Debugger where
  seen : List (ListState × List LinkMapAddress)
  view : List LinkMapAddress
  events : List DebuggerEvent
deriving DecidableEq

namespace Debugger

/-- One that attaches while these objects are loaded. -/
def attached (nodes : List LinkMapAddress) : Debugger := ⟨[], nodes, []⟩

def told (debugger : Debugger) (state : ListState) (nodes : List LinkMapAddress) : Debugger :=
  if state = .consistent then
    ⟨debugger.seen ++ [(state, nodes)], nodes, debugger.events ++ changes debugger.view nodes⟩
  else { debugger with seen := debugger.seen ++ [(state, nodes)] }

/-- `none` when the list is corrupted or longer than the fuel. -/
def stop (fuel : Nat) (debugger : Debugger) (custom : CustomDebug) : Option Debugger := do
  let debug ← custom.debug
  let nodes ← readList custom.next custom.prev fuel none debug.map
  return debugger.told debug.state nodes

end Debugger

/-- The program and the debugger that is attached to it. -/
abbrev DebugSession : Type := DebugWorld × Debugger

def DebugSession.act (fuel : Nat) (session : DebugSession) (action : DebugAction) :
    Option DebugSession := do
  let next ← session.1.act action
  let debugger ← (session.1.stops action).foldlM (Debugger.stop fuel) session.2
  return (next, debugger)

/-- What an operation shows at its stops, by its label and the objects before it. -/
def stopsOf (nodes : List LinkMapAddress) : DebugAction → List (ListState × List LinkMapAddress)
  | .add linkMap _ => [(.add, nodes ++ [linkMap]), (.consistent, nodes ++ [linkMap])]
  | .copy _ _ _ => []
  | .drop linkMap =>
      if linkMap ∈ nodes then [(.delete, nodes), (.consistent, nodes.erase linkMap)] else []

/-- What there is to report of an operation. -/
def eventsOf (nodes : List LinkMapAddress) : DebugAction → List DebuggerEvent
  | .add linkMap _ => [.loaded linkMap]
  | .copy _ _ _ => []
  | .drop linkMap => if linkMap ∈ nodes then [.unloaded linkMap] else []

/-- What each of the operations has to say, one after the other. -/
def alongActions {Item : Type} (say : List LinkMapAddress → DebugAction → List Item)
    (nodes : List LinkMapAddress) : List DebugAction → List Item
  | [] => []
  | action :: rest => say nodes action ++ alongActions say (listedAfter nodes action) rest

namespace CustomDebug

variable {custom dropped : CustomDebug} {debug : GdbDebug} {linkMap : LinkMapAddress}

theorem notified_ownReal : (custom.ownReal debug linkMap).notified = custom.notified := by
  unfold ownReal
  split
  · rfl
  · split <;> rfl

theorem addDebugLinkMap_eq (present : custom.debug = some debug) :
    custom.addDebugLinkMap linkMap =
      ((custom.linkIn debug linkMap).2.callDebugState
        { (custom.linkIn debug linkMap).1 with state := .add }).callDebugState
        { (custom.linkIn debug linkMap).1 with state := .consistent } := by
  unfold addDebugLinkMap
  rw [present]
  rfl

theorem linkIn_kept : (custom.linkIn debug linkMap).1.brk = debug.brk ∧
    (custom.linkIn debug linkMap).2.notified = custom.notified := by
  unfold linkIn
  cases custom.tail with
  | none => exact ⟨rfl, notified_ownReal⟩
  | some tail => exact ⟨rfl, notified_ownReal⟩

/-- The second stop of an addition is in the state that it ends with, and the first one
differs from it only in the announced state. -/
theorem addStops_eq (present : custom.debug = some debug) (calls : debug.brk = true) :
    ∃ announced after, custom.addStops linkMap = [announced, custom.addDebugLinkMap linkMap] ∧
      (custom.addDebugLinkMap linkMap).debug = some after ∧ after.brk = true ∧
      announced.debug = some { after with state := .add } ∧
      announced.maps = (custom.addDebugLinkMap linkMap).maps ∧
      (custom.addDebugLinkMap linkMap).notified = custom.notified ++ [.add, .consistent] := by
  obtain ⟨kept, notified⟩ := @linkIn_kept custom debug linkMap
  have stillCalls := kept.trans calls
  rw [addStops, present, addDebugLinkMap_eq present]
  refine ⟨(custom.linkIn debug linkMap).2.callDebugState
      { (custom.linkIn debug linkMap).1 with state := .add },
    { (custom.linkIn debug linkMap).1 with state := .consistent }, ?_, rfl, stillCalls, rfl, rfl, ?_⟩
  · simp [stopAt, stillCalls]
  · simp [callDebugState, stillCalls, notified]

theorem detach_kept {after : GdbDebug} {detached : CustomDebug}
    (accepted : custom.detach debug linkMap = some (after, detached)) :
    after.brk = debug.brk ∧ detached.notified = custom.notified := by
  unfold detach at accepted
  split at accepted
  · cases accepted
    exact ⟨rfl, rfl⟩
  · obtain ⟨next, _, same⟩ := Option.bind_eq_some_iff.mp accepted
    cases same
    exact ⟨rfl, rfl⟩
  · obtain ⟨prev, _, same⟩ := Option.bind_eq_some_iff.mp accepted
    cases same
    exact ⟨rfl, rfl⟩
  · obtain ⟨prev, _, later⟩ := Option.bind_eq_some_iff.mp accepted
    obtain ⟨next, _, same⟩ := Option.bind_eq_some_iff.mp later
    cases same
    exact ⟨rfl, rfl⟩

/-- The first stop of a removal finds the list as it was, the second one as it ends. -/
theorem dropStops_eq (present : custom.debug = some debug) (calls : debug.brk = true)
    (listed : ¬ (debug.map ≠ some linkMap ∧ (custom.maps linkMap).lPrev = none))
    (dropping : custom.dropExtraData linkMap = some dropped) :
    ∃ announced after, custom.dropStops linkMap = [announced, dropped] ∧
      dropped.debug = some after ∧ after.brk = true ∧
      announced.debug = some { debug with state := .delete } ∧ announced.maps = custom.maps ∧
      dropped.notified = custom.notified ++ [.delete, .consistent] := by
  unfold dropExtraData at dropping
  unfold dropStops
  rw [present] at dropping ⊢
  simp only [if_neg listed] at dropping ⊢
  obtain ⟨⟨after, detached⟩, detaching, same⟩ := Option.bind_eq_some_iff.mp dropping
  cases same
  obtain ⟨kept, notified⟩ := detach_kept detaching
  have stillCalls : after.brk = true := kept.trans calls
  refine ⟨custom.callDebugState { debug with state := .delete },
    { after with state := .consistent }, ?_, rfl, stillCalls, rfl, rfl, ?_⟩
  · rw [detaching]
    simp [stopAt, calls, stillCalls]
  · simp [callDebugState, calls, stillCalls, notified]

theorem dropStops_unlisted (present : custom.debug = some debug)
    (unlisted : debug.map ≠ some linkMap ∧ (custom.maps linkMap).lPrev = none) :
    custom.dropStops linkMap = [] := by
  unfold dropStops
  rw [present]
  exact if_pos unlisted

end CustomDebug

/-! ## Reports -/

section Changes

variable {nodes : List LinkMapAddress} {linkMap : LinkMapAddress}

theorem changes_append (fresh : linkMap ∉ nodes) :
    changes nodes (nodes ++ [linkMap]) = [.loaded linkMap] := by
  have kept : nodes.filter (· ∉ nodes ++ [linkMap]) = [] := by
    simp +contextual
  have new : (nodes ++ [linkMap]).filter (· ∉ nodes) = [linkMap] := by
    simp [fresh]
  rw [changes, kept, new]
  rfl

theorem changes_erase (distinct : nodes.Nodup) (member : linkMap ∈ nodes) :
    changes nodes (nodes.erase linkMap) = [.unloaded linkMap] := by
  have gone : nodes.filter (· ∉ nodes.erase linkMap) = [linkMap] := by
    have same : nodes.filter (· ∉ nodes.erase linkMap) = nodes.filter (· = linkMap) := by
      apply List.filter_congr
      intro node listed
      simp [distinct.mem_erase_iff, listed]
    rw [same, List.filter_eq]
    simp [List.count_eq_one_of_mem distinct member]
  have none : (nodes.erase linkMap).filter (· ∉ nodes) = [] := by
    simp only [List.filter_eq_nil_iff, decide_not, Bool.not_eq_true', decide_eq_false_iff_not,
      not_not]
    exact fun node kept => List.mem_of_mem_erase kept
  rw [changes, gone, none]
  rfl

end Changes

/-! ## Sessions -/

/-- The record calls a function. -/
def Stopping (custom : CustomDebug) : Prop := ∃ debug, custom.debug = some debug ∧ debug.brk = true

namespace Debugger

variable {debugger : Debugger} {custom : CustomDebug} {debug : GdbDebug}
  {tail : Option LinkMapAddress} {nodes : List LinkMapAddress} {fuel : Nat}

theorem stop_eq (present : custom.debug = some debug)
    (linked : DoublyLinked custom.next custom.prev debug.map tail nodes)
    (enough : nodes.length ≤ fuel) :
    debugger.stop fuel custom = some (debugger.told debug.state nodes) := by
  simp [stop, present, linked.readList_eq enough]

theorem stops_eq {first second : CustomDebug} {early late : GdbDebug}
    {tails : Option LinkMapAddress × Option LinkMapAddress} {before after : List LinkMapAddress}
    (present : first.debug = some early ∧ second.debug = some late)
    (announced : early.state ≠ .consistent) (consistent : late.state = .consistent)
    (linked : DoublyLinked first.next first.prev early.map tails.1 before)
    (relinked : DoublyLinked second.next second.prev late.map tails.2 after)
    (enough : before.length ≤ fuel ∧ after.length ≤ fuel) :
    [first, second].foldlM (stop fuel) debugger =
      some ⟨debugger.seen ++ [(early.state, before), (.consistent, after)], after,
        debugger.events ++ changes debugger.view after⟩ := by
  simp [List.foldlM, stop_eq present.1 linked enough.1, stop_eq present.2 relinked enough.2, told,
    announced, consistent]

end Debugger

section Step

variable {world next : DebugWorld} {debugger : Debugger} {fuel : Nat} {linkMap : LinkMapAddress}

/-- What has to be shown of the stops of an operation. -/
structure Followed (fuel : Nat) (world : DebugWorld) (debugger : Debugger) (action : DebugAction)
    (next : DebugWorld) : Prop where
  stops : (world.stops action).foldlM (Debugger.stop fuel) debugger =
    some ⟨debugger.seen ++ stopsOf world.listed action, next.listed,
      debugger.events ++ eventsOf world.listed action⟩
  stopping : Stopping next.custom
  notified : next.custom.notified =
    world.custom.notified ++ (stopsOf world.listed action).map Prod.fst

theorem Followed.act_eq {action : DebugAction} (followed : Followed fuel world debugger action next)
    (step : world.act action = some next) :
    DebugSession.act fuel (world, debugger) action =
      some (next, ⟨debugger.seen ++ stopsOf world.listed action, next.listed,
        debugger.events ++ eventsOf world.listed action⟩) := by
  simp [DebugSession.act, step, followed.stops]

theorem followed_add (stopping : Stopping world.custom) (enough : world.listed.length < fuel)
    (known : debugger.view = world.listed) {contents : LinkMap} (fresh : linkMap ∉ world.listed)
    (kept : WellLinked next) (listed : next.listed = world.listed ++ [linkMap])
    (added : next.custom = (world.custom.setMap linkMap contents).addDebugLinkMap linkMap) :
    Followed fuel world debugger (.add linkMap contents) next := by
  obtain ⟨debug, present, calls⟩ := stopping
  obtain ⟨after, stored, consistent, relinked⟩ := kept.list
  obtain ⟨announced, record, stops, same, stillCalls, early, maps, notified⟩ :=
    @CustomDebug.addStops_eq (world.custom.setMap linkMap contents) debug linkMap present calls
  rw [← added] at stops same maps notified
  cases stored.symm.trans same
  rw [listed] at relinked
  have linked : DoublyLinked announced.next announced.prev after.map next.custom.tail
      (world.listed ++ [linkMap]) :=
    relinked.congr (fun node _ => congrArg LinkMap.lNext (congrFun maps node))
      (fun node _ => congrArg LinkMap.lPrev (congrFun maps node))
  have short : (world.listed ++ [linkMap]).length ≤ fuel := by
    simpa using Nat.succ_le_of_lt enough
  have told := @Debugger.stops_eq debugger fuel announced _ _ after (_, _) _ _ ⟨early, stored⟩
    nofun consistent linked relinked ⟨short, short⟩
  rw [known, changes_append fresh] at told
  refine ⟨?_, ⟨after, stored, stillCalls⟩, notified⟩
  rw [DebugWorld.stops, stops, told, listed]
  rfl

/-- The first stop of a removal still shows the map, the second one no longer. -/
theorem followed_drop (valid : WellLinked world) (stopping : Stopping world.custom)
    (enough : world.listed.length < fuel) (known : debugger.view = world.listed)
    (member : linkMap ∈ world.listed) (kept : WellLinked next)
    (listed : next.listed = world.listed.erase linkMap)
    (dropping : world.custom.dropExtraData linkMap = some next.custom) :
    Followed fuel world debugger (.drop linkMap) next := by
  obtain ⟨debug, present, calls⟩ := stopping
  obtain ⟨record, same, _, linked⟩ := valid.list
  cases present.symm.trans same
  obtain ⟨after, stored, consistent, relinked⟩ := kept.list
  have known_ : ¬ (debug.map ≠ some linkMap ∧ (world.custom.maps linkMap).lPrev = none) := by
    intro unlisted
    obtain ⟨front, back, split⟩ := List.append_of_mem member
    rw [split] at linked
    have first : front = [] := List.getLast?_eq_none_iff.mp (linked.prev_eq.symm.trans unlisted.2)
    exact unlisted.1 (linked.head_eq_some_iff.mpr first)
  obtain ⟨announced, final, stops, same, stillCalls, early, maps, notified⟩ :=
    CustomDebug.dropStops_eq present calls known_ dropping
  cases stored.symm.trans same
  rw [listed] at relinked
  have before : DoublyLinked announced.next announced.prev debug.map world.custom.tail
      world.listed :=
    linked.congr (fun node _ => congrArg LinkMap.lNext (congrFun maps node))
      (fun node _ => congrArg LinkMap.lPrev (congrFun maps node))
  have short : (world.listed.erase linkMap).length ≤ fuel :=
    Nat.le_trans List.length_erase_le (Nat.le_of_lt enough)
  have told := @Debugger.stops_eq debugger fuel announced _ _ after (_, _) _ _ ⟨early, stored⟩
    nofun consistent before relinked ⟨Nat.le_of_lt enough, short⟩
  rw [known, changes_erase valid.listed_nodup member] at told
  refine ⟨?_, ⟨after, stored, stillCalls⟩, ?_⟩
  · rw [DebugWorld.stops, stops, told, listed, stopsOf, eventsOf, if_pos member, if_pos member]
  · rw [notified, stopsOf, if_pos member]
    rfl

theorem followed_silent {action : DebugAction} (stopping : Stopping next.custom)
    (known : debugger.view = world.listed) (listed : next.listed = world.listed)
    (silent : world.stops action = []) (unseen : stopsOf world.listed action = [])
    (unreported : eventsOf world.listed action = [])
    (notified : next.custom.notified = world.custom.notified) :
    Followed fuel world debugger action next := by
  refine ⟨?_, stopping, ?_⟩
  · rw [silent, unseen, unreported, listed, ← known]
    simp
  · rw [unseen, notified]
    simp

theorem followed_step {action : DebugAction} (valid : WellLinked world)
    (stopping : Stopping world.custom) (enough : world.listed.length < fuel)
    (known : debugger.view = world.listed) (step : world.act action = some next) :
    Followed fuel world debugger action next := by
  obtain ⟨kept, listed⟩ := wellLinked_step valid step
  cases action with
  | add linkMap contents =>
      rw [DebugWorld.act] at step
      split at step
      · cases step
      · next fresh =>
          cases step
          exact followed_add stopping enough known (fun member => fresh (Or.inl member)) kept
            listed rfl
  | copy base host boxed =>
      rw [DebugWorld.act] at step
      split at step
      · cases step
      · cases step
        exact followed_silent stopping known rfl rfl rfl rfl rfl
  | drop linkMap =>
      rw [DebugWorld.act] at step
      split at step
      · next live =>
          obtain ⟨custom, dropping, same⟩ := Option.bind_eq_some_iff.mp step
          cases same
          by_cases member : linkMap ∈ world.listed
          · exact followed_drop valid stopping enough known member kept listed dropping
          · have unlisted := live.resolve_left member
            cases dropping.symm.trans (valid.drop_unlisted unlisted)
            obtain ⟨debug, present, _, linked⟩ := valid.list
            have notFirst : debug.map ≠ some linkMap := by
              intro first
              exact member (List.mem_of_head? (linked.head_eq.symm.trans first))
            have silent : world.stops (.drop linkMap) = [] :=
              CustomDebug.dropStops_unlisted present ⟨notFirst, valid.unlinked linkMap unlisted⟩
            refine followed_silent stopping known ?_ silent (if_neg member) (if_neg member) rfl
            rw [listed]
            exact List.erase_of_not_mem member
      · cases step

end Step

theorem length_listedAfter (nodes : List LinkMapAddress) (action : DebugAction) :
    (listedAfter nodes action).length ≤ nodes.length + 1 := by
  cases action with
  | add linkMap contents => simp [listedAfter]
  | copy base host boxed => simp [listedAfter]
  | drop linkMap => exact Nat.le_trans List.length_erase_le (Nat.le_succ _)

theorem session_run {actions : List DebugAction} {world next : DebugWorld} {debugger : Debugger}
    {fuel : Nat} (valid : WellLinked world) (stopping : Stopping world.custom)
    (enough : world.listed.length + actions.length ≤ fuel) (known : debugger.view = world.listed)
    (ran : TransitionSystem.runLabels DebugWorld.act world actions = some next) :
    TransitionSystem.runLabels (DebugSession.act fuel) (world, debugger) actions =
        some (next, ⟨debugger.seen ++ alongActions stopsOf world.listed actions, next.listed,
          debugger.events ++ alongActions eventsOf world.listed actions⟩) ∧
      next.custom.notified =
        world.custom.notified ++ (alongActions stopsOf world.listed actions).map Prod.fst := by
  induction actions generalizing world debugger with
  | nil =>
      cases ran
      rw [← known]
      simp [TransitionSystem.runLabels, alongActions]
  | cons action rest ih =>
      obtain ⟨middle, step, ran⟩ := Option.bind_eq_some_iff.mp ran
      obtain ⟨kept, listed⟩ := wellLinked_step valid step
      have bounded := length_listedAfter world.listed action
      rw [List.length_cons] at enough
      have followed := @followed_step world middle debugger fuel action valid stopping (by omega)
        known step
      obtain ⟨finished, notified⟩ :=
        @ih middle ⟨_, middle.listed, _⟩ kept followed.stopping (by rw [listed]; omega) rfl ran
      constructor
      · rw [TransitionSystem.runLabels, followed.act_eq step, Option.bind_some, finished, listed,
          alongActions, alongActions, List.append_assoc, List.append_assoc]
      · rw [notified, followed.notified, listed, alongActions, List.map_append, List.append_assoc]

/-- The list that a report turns another one into. -/
def applyEvent (nodes : List LinkMapAddress) : DebuggerEvent → List LinkMapAddress
  | .loaded linkMap => nodes ++ [linkMap]
  | .unloaded linkMap => nodes.erase linkMap

theorem foldl_applyEvent (nodes : List LinkMapAddress) (action : DebugAction) :
    (eventsOf nodes action).foldl applyEvent nodes = listedAfter nodes action := by
  cases action with
  | add linkMap contents => rfl
  | copy base host boxed => rfl
  | drop linkMap =>
      by_cases member : linkMap ∈ nodes
      · simp [eventsOf, member, applyEvent, listedAfter]
      · simp [eventsOf, member, listedAfter, List.erase_of_not_mem]

theorem foldl_alongActions (nodes : List LinkMapAddress) (actions : List DebugAction) :
    (alongActions eventsOf nodes actions).foldl applyEvent nodes =
      actions.foldl listedAfter nodes := by
  induction actions generalizing nodes with
  | nil => rfl
  | cons action rest ih =>
      rw [alongActions, List.foldl_append, foldl_applyEvent, ih, List.foldl_cons]

/-- A debugger that attaches at the start never loses the program: it finds an uncorrupted
list at every stop, it reads there what the operation has to show, it reports every object
that is loaded or unloaded once and nothing else, and in the end it knows the list. -/
theorem debugger_follows_program {start world : DebugWorld} {actions : List DebugAction}
    (fuel : Nat) (started : start.Started) (stopping : Stopping start.custom)
    (run : DebugWorld.system.Run start actions world)
    (enough : start.initial.length + actions.length ≤ fuel) :
    ∃ debugger, TransitionSystem.runLabels (DebugSession.act fuel)
        (start, .attached start.initial) actions = some (world, debugger) ∧
      debugger.view = world.listed ∧
      debugger.seen = alongActions stopsOf start.initial actions ∧
      debugger.events = alongActions eventsOf start.initial actions ∧
      debugger.events.foldl applyEvent start.initial = world.listed ∧
      world.custom.notified = start.custom.notified ++ debugger.seen.map Prod.fst := by
  have listed : start.listed = start.initial := by
    cases started with
    | internal => rfl
    | host _ _ _ _ => exact List.append_nil _
  have valid := wellLinked_started started
  have ran : TransitionSystem.runLabels DebugWorld.act start actions = some world :=
    run.runLabels_eq fun _ _ _ step => step
  obtain ⟨finished, notified⟩ :=
    @session_run actions start world (.attached start.initial) fuel valid stopping
      (by rw [listed]; exact enough) listed.symm ran
  rw [listed] at finished notified
  refine ⟨_, finished, rfl, rfl, rfl, ?_, notified⟩
  rw [(wellLinked_runLabels valid ran).2, listed]
  exact foldl_alongActions start.initial actions

/-- Two objects are loaded and the first one is unloaded. -/
theorem debugger_follows_program_unload : ∃ world debugger,
    TransitionSystem.runLabels (DebugSession.act 3)
      (⟨.initial fun _ => .zero, [], [], []⟩, .attached [])
      [.add (mapAt 0) .zero, .add (mapAt 1) .zero, .drop (mapAt 0)] = some (world, debugger) ∧
    debugger.view = [mapAt 1] ∧
    debugger.events = [.loaded (mapAt 0), .loaded (mapAt 1), .unloaded (mapAt 0)] ∧
    debugger.seen.map Prod.fst = [.add, .consistent, .add, .consistent, .delete, .consistent] := by
  let start : DebugWorld := ⟨.initial fun _ => .zero, [], [], []⟩
  have run := @TransitionSystem.Run.runLabels _ _ DebugWorld.system _ (fun _ _ _ step => step)
    _ _ _ _ _ .refl (rfl : TransitionSystem.runLabels DebugWorld.act start
      [.add (mapAt 0) .zero, .add (mapAt 1) .zero, .drop (mapAt 0)] = some _)
  obtain ⟨debugger, finished, view, seen, events, _⟩ :=
    debugger_follows_program 3 .internal ⟨_, rfl, rfl⟩ run (by decide)
  exact ⟨_, debugger, finished, view, events, by rw [seen]; rfl⟩

end DynLinker.Debug
