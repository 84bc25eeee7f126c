import DynLinker.Debug.LinkMapsProperties
import DynLinker.Debug.StartupMaps
import DynLinker.Registry.OpenProperties
import Mathlib.Data.Fintype.EquivFin

/-! When the list that `_r_debug` publishes stays complete. A later map is appended to
the tail that `DEBUG` remembers, so everything rests on that tail being the last map of
the published order. -/

set_option autoImplicit false

namespace DynLinker.Debug

open Lib Loader Registry

/-! ## The published order -/

theorem startupMaps_eq {rtld : LinkMapAddress} {base : Nat} {scope : List ModuleHandle}
    (owned : ∀ handle ∈ scope, ∀ elf, handle.elf = some elf → elf.userData.isSome)
    (apart : ∀ handle ∈ scope, ∀ elf, handle.elf = some elf → elf.base = base →
      handle.linkMap = some rtld) :
    ∃ libc, Manager.startupMaps (some (rtld, base)) scope =
      .ok ((scope.filterMap ModuleHandle.linkMap).filter fun linkMap => linkMap ≠ rtld, libc) := by
  induction scope with
  | nil => exact ⟨none, rfl⟩
  | cons handle rest ih =>
      obtain ⟨libc, mapped⟩ := ih
        (fun later member => owned later (List.mem_cons_of_mem _ member))
        (fun later member => apart later (List.mem_cons_of_mem _ member))
      cases native : handle.elf with
      | none =>
          have unmapped : handle.linkMap = none := by simp [ModuleHandle.linkMap, native]
          refine ⟨libc, ?_⟩
          rw [Manager.startupMaps, native, List.filterMap_cons_none unmapped]
          exact mapped
      | some elf =>
          obtain ⟨data, stored⟩ := Option.isSome_iff_exists.mp
            (owned handle List.mem_cons_self elf native)
          have own : handle.linkMap = some data.linkMap := by
            simp [ModuleHandle.linkMap, native, stored]
          have based := apart handle List.mem_cons_self elf native
          rw [own] at based
          have test : (some (rtld, base)).any (fun entry =>
              data.linkMap = entry.1 || elf.base = entry.2) = decide (data.linkMap = rtld) := by
            rw [Option.any_some, Bool.eq_iff_iff, Bool.or_eq_true, decide_eq_true_iff,
              decide_eq_true_iff]
            refine or_iff_left_of_imp ?_
            intro same
            exact Option.some.inj (based same)
          refine ⟨libc.or (if handle.name = "libc.so.6" then some data.linkMap else none), ?_⟩
          rw [Manager.startupMaps, native, List.filterMap_cons_some own]
          dsimp only
          rw [stored, mapped]
          change Except.ok (if (some (rtld, base)).any (fun entry =>
            data.linkMap = entry.1 || elf.base = entry.2) = true then _ else _, _) = _
          rw [test]
          by_cases interpreter : data.linkMap = rtld
          · rw [List.filter_cons_of_neg (by simpa using interpreter), decide_eq_true interpreter]
            rfl
          · rw [List.filter_cons_of_pos (by simpa using interpreter),
              decide_eq_false interpreter]
            rfl

/-- The hook of the replacement loader publishes the program, the interpreter, and the
rest of the load group. -/
theorem startupState_maps {Ctx : Type} [ElfLoader Ctx] {manager next : Manager Ctx}
    {root : ModuleId} {rtld : LinkMapAddress} {base : Nat} {state : Manager.StartupState}
    (accepted : manager.startupState root (some (rtld, base)) = .ok (.ok state, next)) :
    ∃ scope maps, ElfLoader.loadGroup next.linkCtx root = .ok scope ∧
      scope.head?.bind ModuleHandle.linkMap = some state.main ∧
      Manager.startupMaps (some (rtld, base)) scope = .ok (maps, state.libcMap) ∧
      state.maps = insertRtld rtld maps := by
  rw [Manager.startupState] at accepted
  split at accepted
  · cases accepted
  · obtain ⟨aliased, _, accepted⟩ := bind_eq_ok.mp accepted
    split at accepted
    · cases accepted
    · next scope grouping =>
        split at accepted
        · cases accepted
        · next main first =>
            obtain ⟨⟨maps, libc⟩, mapped, accepted⟩ := bind_eq_ok.mp accepted
            cases accepted
            refine ⟨scope, maps, grouping, first, mapped, ?_⟩
            cases maps with
            | nil => rfl
            | cons first rest => rfl

/-! ## Links and tail at the end of the startup -/

namespace CustomDebug

variable {custom : CustomDebug} {debug : GdbDebug}

theorem linkLoadedObjects_kept (prev : Option LinkMapAddress) (maps : List LinkMapAddress) :
    (custom.linkLoadedObjects prev maps).debug = custom.debug ∧
      (custom.linkLoadedObjects prev maps).tail = custom.tail ∧
      ∀ other ∉ maps, (custom.linkLoadedObjects prev maps).next other = custom.next other ∧
        (custom.linkLoadedObjects prev maps).prev other = custom.prev other := by
  induction maps generalizing custom prev with
  | nil => exact ⟨rfl, rfl, fun _ _ => ⟨rfl, rfl⟩⟩
  | cons linkMap rest ih =>
      obtain ⟨debug, tail, others⟩ :=
        @ih ((custom.setPrev linkMap prev).setNext linkMap rest.head?) (some linkMap)
      refine ⟨debug, tail, ?_⟩
      intro other outside
      obtain ⟨different, later⟩ := not_or.mp fun listed => outside (List.mem_cons.mpr listed)
      obtain ⟨next, prev⟩ := others other later
      rw [linkLoadedObjects]
      constructor
      · rw [next, next_setNext, Function.update_of_ne different, next_setPrev]
      · rw [prev, prev_setNext, prev_setPrev, Function.update_of_ne different]

/-- The loop leaves exactly the two walks over the maps it was given. -/
theorem linkLoadedObjects_segments (prev : Option LinkMapAddress) {maps : List LinkMapAddress}
    (distinct : maps.Nodup) :
    Segment (custom.linkLoadedObjects prev maps).next maps.head? maps none ∧
      Segment (custom.linkLoadedObjects prev maps).prev (maps.getLast?.or prev) maps.reverse
        prev := by
  induction maps generalizing custom prev with
  | nil => exact ⟨rfl, rfl⟩
  | cons linkMap rest ih =>
      obtain ⟨fresh, distinct⟩ := List.nodup_cons.mp distinct
      let written := (custom.setPrev linkMap prev).setNext linkMap rest.head?
      obtain ⟨forward, backward⟩ := @ih written (some linkMap) distinct
      obtain ⟨_, _, others⟩ := @linkLoadedObjects_kept written (some linkMap) rest
      obtain ⟨next, before⟩ := others linkMap fresh
      have nextOwn : written.next linkMap = rest.head? := by
        rw [next_setNext, Function.update_self]
      have prevOwn : written.prev linkMap = prev := by
        rw [prev_setNext, prev_setPrev, Function.update_self]
      have last : ((linkMap :: rest).getLast?).or prev = rest.getLast?.or (some linkMap) := by
        rw [List.getLast?_cons]
        cases rest.getLast? with
        | none => rfl
        | some later => rfl
      constructor
      · refine ⟨rfl, ?_⟩
        change Segment (written.linkLoadedObjects (some linkMap) rest).next
          ((written.linkLoadedObjects (some linkMap) rest).next linkMap) rest none
        rw [next, nextOwn]
        exact forward
      · rw [last, List.reverse_cons]
        refine Segment.append.mpr ⟨some linkMap, backward, rfl, ?_⟩
        exact before.trans prevOwn

theorem linkLoadedObjects_linked {maps : List LinkMapAddress} (distinct : maps.Nodup) :
    DoublyLinked (custom.linkLoadedObjects none maps).next
      (custom.linkLoadedObjects none maps).prev maps.head? maps.getLast? maps := by
  obtain ⟨forward, backward⟩ := @linkLoadedObjects_segments custom none maps distinct
  rw [Option.or_none] at backward
  exact ⟨distinct, forward, backward⟩

/-- Maps that are added to a list that has a tail move only the tail. -/
theorem addDebugLinkMap_foldl {maps : List LinkMapAddress} (present : custom.debug = some debug)
    (consistent : debug.state = .consistent) {tail : LinkMapAddress}
    (ends : custom.tail = some tail) :
    (maps.foldl addDebugLinkMap custom).debug = some debug ∧
      (maps.foldl addDebugLinkMap custom).tail = maps.getLast?.or (some tail) := by
  induction maps generalizing custom tail with
  | nil => exact ⟨present, ends⟩
  | cons linkMap rest ih =>
      have stored : (custom.addDebugLinkMap linkMap).debug = some debug := by
        unfold addDebugLinkMap
        rw [present, ends]
        change some { debug with state := .consistent } = some debug
        rw [← consistent]
      obtain ⟨_, newTail, _, _⟩ := @addDebugLinkMap_linking custom debug linkMap present
      obtain ⟨kept, last⟩ := ih stored newTail
      refine ⟨kept, last.trans ?_⟩
      rw [List.getLast?_cons]
      cases rest.getLast? with
      | none => rfl
      | some later => rfl

end CustomDebug

namespace StartupScope

variable (startup : StartupScope)

/-- What `DEBUG` remembers: the interpreter is its head, and the map that was loaded last
its tail. -/
theorem loadedMaps_remembered :
    (∃ debug, startup.loadedMaps.debug = some debug ∧ debug.map = some startup.rtld) ∧
      startup.loadedMaps.tail = startup.dependencies.getLast?.or (some startup.main) := by
  have folded := @CustomDebug.addDebugLinkMap_foldl
    ((((CustomDebug.initial startup.memory).addDebugLinkMap startup.rtld).addDebugLinkMap
      startup.main).resetLinks startup.rtld)
    ⟨true, some startup.rtld, true, .consistent⟩ startup.dependencies rfl rfl startup.main rfl
  exact ⟨⟨_, folded.1, rfl⟩, folded.2⟩

theorem state_eq : ∃ libc, startup.state =
    .ok ⟨startup.main, insertRtld startup.rtld startup.group, libc⟩ := by
  obtain ⟨libc, mapped⟩ := startupMaps_eq startup.owned startup.apart
  refine ⟨libc, ?_⟩
  rw [state, mapped]
  rfl

/-- The load group starts with the program. -/
theorem group_eq : ∃ rest, startup.group = startup.main :: rest := by
  obtain ⟨handle, first, own⟩ := Option.bind_eq_some_iff.mp startup.root
  obtain ⟨rest, scope⟩ := List.head?_eq_some_iff.mp first
  have different : startup.main ≠ startup.rtld := by
    intro same
    exact (List.nodup_cons.mp startup.distinct).1 (same ▸ List.mem_cons_self)
  rw [group, scope, List.filterMap_cons_some own,
    List.filter_cons_of_pos (by simpa using different)]
  exact ⟨_, rfl⟩

def published : List LinkMapAddress := insertRtld startup.rtld startup.group

theorem published_perm :
    startup.published.Perm (startup.rtld :: startup.main :: startup.dependencies) := by
  obtain ⟨rest, group⟩ := startup.group_eq
  have loaded : startup.group.Perm (startup.main :: startup.dependencies) := startup.loaded
  rw [published, group]
  rw [group] at loaded
  exact (List.Perm.swap _ _ _).trans (loaded.cons _)

theorem published_nodup : startup.published.Nodup :=
  startup.published_perm.nodup_iff.mpr startup.distinct

theorem published_head : startup.published.head? = some startup.main := by
  obtain ⟨rest, group⟩ := startup.group_eq
  rw [published, group]
  rfl

/-- The remembered tail is the published one exactly when there is a dependency and the
one loaded last is also the last of the load group. -/
theorem tail_published_iff :
    startup.loadedMaps.tail = startup.published.getLast? ↔
      startup.dependencies.getLast? = startup.group.getLast? := by
  obtain ⟨rest, group⟩ := startup.group_eq
  have loaded : startup.group.Perm (startup.main :: startup.dependencies) := startup.loaded
  have sameLength : rest.length = startup.dependencies.length := by
    have lengths := loaded.length_eq
    rw [group, List.length_cons, List.length_cons] at lengths
    exact Nat.succ.inj lengths
  have different : startup.main ≠ startup.rtld := by
    intro same
    exact (List.nodup_cons.mp startup.distinct).1 (same ▸ List.mem_cons_self)
  rw [startup.loadedMaps_remembered.2, published, group, insertRtld]
  cases rest with
  | nil =>
      have none := List.eq_nil_of_length_eq_zero sameLength.symm
      rw [none]
      constructor
      · intro same
        exact absurd (Option.some.inj same) different
      · intro same
        cases same
  | cons first others =>
      cases deps : startup.dependencies with
      | nil =>
          rw [deps] at sameLength
          cases sameLength
      | cons loadedFirst loadedOthers =>
          rw [List.getLast?_cons_cons, List.getLast?_cons_cons, List.getLast?_cons_cons,
            List.getLast?_cons, Option.some_or]

end StartupScope

/-! ## Later loads and unloads -/

/-- The published list followed by the maps that were loaded later. `DEBUG` still takes
the interpreter for its head, so it never takes a later map for it. -/
structure Appending (published : List LinkMapAddress) (head rtld : LinkMapAddress)
    (world : DebugWorld) : Prop where
  record : ∃ debug, world.custom.debug = some debug ∧ debug.map = some rtld
  linked : DoublyLinked world.custom.next world.custom.prev (some head) world.custom.tail
    (published ++ world.added)
  startup : published.Perm world.initial

namespace Appending

variable {published : List LinkMapAddress} {head rtld linkMap : LinkMapAddress}
  {world next : DebugWorld}

theorem complete (appending : Appending published head rtld world) : Complete head world := by
  refine ⟨published ++ world.added, appending.startup.append_right _, ?_⟩
  rw [← appending.linked.tail_eq]
  exact appending.linked

theorem tail_ne_none (appending : Appending published head rtld world) :
    world.custom.tail ≠ none := by
  rw [appending.linked.tail_eq]
  intro empty
  have first := appending.linked.head_eq
  rw [List.getLast?_eq_none_iff.mp empty] at first
  cases first

theorem add (appending : Appending published head rtld world) (fresh : ¬ world.Live linkMap)
    (contents : LinkMap) :
    Appending published head rtld { world with
      custom := (world.custom.setMap linkMap contents).addDebugLinkMap linkMap
      added := world.added ++ [linkMap] } := by
  obtain ⟨debug, present, first⟩ := appending.record
  have outside : linkMap ∉ published ++ world.added := by
    intro member
    refine fresh (.inl ?_)
    exact (appending.startup.append_right world.added).mem_iff.mp member
  obtain ⟨⟨brk, stored⟩, appended, _⟩ :=
    @CustomDebug.addDebugLinkMap_linked (world.custom.setMap linkMap contents) debug linkMap _ _
      present (CustomDebug.linked_setMap appending.linked outside contents) outside
  have hasTail : (world.custom.setMap linkMap contents).tail ≠ none := appending.tail_ne_none
  rw [if_neg hasTail] at stored appended
  refine ⟨⟨_, stored, first⟩, ?_, appending.startup⟩
  rw [← List.append_assoc]
  exact appended

theorem drop (appending : Appending published head rtld world) (interpreter : rtld ∈ published)
    (loaded : linkMap ∈ world.added) {custom : CustomDebug}
    (dropping : world.custom.dropExtraData linkMap = some custom) :
    Appending published head rtld {
      custom := custom
      initial := world.initial.erase linkMap
      added := world.added.erase linkMap
      unlisted := world.unlisted.erase linkMap } := by
  obtain ⟨debug, present, first⟩ := appending.record
  obtain ⟨early, late, split⟩ := List.append_of_mem loaded
  have distinct := appending.linked.distinct
  have outside : linkMap ∉ published := by
    intro member
    exact List.disjoint_of_nodup_append distinct member loaded
  have notEarly : linkMap ∉ early := by
    intro member
    have addedDistinct := (List.nodup_append.mp distinct).2.1
    rw [split] at addedDistinct
    exact List.disjoint_of_nodup_append addedDistinct member List.mem_cons_self
  have linked := appending.linked
  rw [split, ← List.append_assoc] at linked
  have notFirst : debug.map = some linkMap ↔ published ++ early = [] := by
    constructor
    · intro same
      rw [first] at same
      cases same
      exact absurd interpreter outside
    · intro empty
      rw [List.append_eq_nil_iff.mp empty |>.1] at interpreter
      cases interpreter
  obtain ⟨dropped, brk, accepted, stored, removed, _⟩ :=
    CustomDebug.dropExtraData_linked present linked notFirst
  cases dropping.symm.trans accepted
  have before : world.custom.prev linkMap ≠ none := by
    rw [linked.prev_eq]
    intro empty
    rw [List.append_eq_nil_iff.mp (List.getLast?_eq_none_iff.mp empty) |>.1] at interpreter
    cases interpreter
  rw [if_neg before] at stored removed
  have initialKept : world.initial.erase linkMap = world.initial := by
    refine List.erase_of_not_mem ?_
    intro member
    exact outside (appending.startup.mem_iff.mpr member)
  refine ⟨⟨_, stored, first⟩, ?_, ?_⟩
  · rw [split, List.erase_append_right _ notEarly, List.erase_cons_head, ← List.append_assoc]
    exact removed
  · rw [initialKept]
    exact appending.startup

theorem step (appending : Appending published head rtld world) (interpreter : rtld ∈ published)
    {action : DebugAction}
    (step : (DebugWorld.system.restrict LoadsOrUnloads).step world action next) :
    Appending published head rtld next := by
  obtain ⟨allowed, step⟩ := step
  change world.act action = some next at step
  cases action with
  | add linkMap contents =>
      rw [DebugWorld.act] at step
      split at step
      · cases step
      · next fresh =>
          cases step
          exact appending.add fresh contents
  | copy base host boxed => cases allowed
  | drop linkMap =>
      rw [DebugWorld.act] at step
      split at step
      · obtain ⟨custom, dropping, same⟩ := Option.bind_eq_some_iff.mp step
        cases same
        exact appending.drop interpreter allowed dropping
      · cases step

end Appending

theorem mapAt_injective : Function.Injective mapAt := by
  intro left right same
  exact Nat.succ.inj (congrArg LinkMapAddress.value same)

theorem exists_fresh (maps : List LinkMapAddress) : ∃ linkMap, linkMap ∉ maps := by
  have infinite : Infinite LinkMapAddress := Infinite.of_injective mapAt mapAt_injective
  obtain ⟨linkMap, outside⟩ := Infinite.exists_notMem_finset maps.toFinset
  exact ⟨linkMap, fun member => outside (List.mem_toFinset.mpr member)⟩

namespace StartupScope

variable (startup : StartupScope)

def publishedMaps : CustomDebug :=
  startup.loadedMaps.linkLoadedObjects none startup.published

theorem publishLoadedGlobals_eq :
    startup.publishLoadedGlobals = .ok (startup.publishedMaps, startup.main) := by
  obtain ⟨libc, state⟩ := startup.state_eq
  rw [publishLoadedGlobals, state]
  rfl

theorem publishedMaps_linked :
    DoublyLinked startup.publishedMaps.next startup.publishedMaps.prev (some startup.main)
      startup.published.getLast? startup.published := by
  have linked := @CustomDebug.linkLoadedObjects_linked startup.loadedMaps _ startup.published_nodup
  rw [startup.published_head] at linked
  exact linked

theorem publishedMaps_tail : startup.publishedMaps.tail = startup.loadedMaps.tail :=
  (CustomDebug.linkLoadedObjects_kept none startup.published).2.1

theorem publishedMaps_record :
    ∃ debug, startup.publishedMaps.debug = some debug ∧ debug.map = some startup.rtld := by
  obtain ⟨debug, present, first⟩ := startup.loadedMaps_remembered.1
  refine ⟨debug, ?_, first⟩
  exact (CustomDebug.linkLoadedObjects_kept none startup.published).1.trans present

theorem publishedMaps_tail_mem : ∃ tail, startup.publishedMaps.tail = some tail ∧
    tail ∈ startup.published := by
  rw [publishedMaps_tail, startup.loadedMaps_remembered.2]
  cases last : startup.dependencies.getLast? with
  | none =>
      refine ⟨startup.main, rfl, startup.published_perm.mem_iff.mpr ?_⟩
      exact List.mem_cons_of_mem _ List.mem_cons_self
  | some loaded =>
      refine ⟨loaded, rfl, startup.published_perm.mem_iff.mpr ?_⟩
      exact List.mem_cons_of_mem _ (List.mem_cons_of_mem _ (List.mem_of_getLast? last))

/-- The world after one more map was loaded. -/
def afterLoad (linkMap : LinkMapAddress) : DebugWorld where
  custom := (startup.publishedMaps.setMap linkMap .zero).addDebugLinkMap linkMap
  initial := startup.rtld :: startup.main :: startup.dependencies
  added := [linkMap]
  unlisted := []

/-- A map that is appended after another map than the last one cuts the rest off: the
remembered tail would have two successors. -/
theorem afterLoad_not_complete {linkMap : LinkMapAddress} (fresh : linkMap ∉ startup.published)
    (wrong : startup.publishedMaps.tail ≠ startup.published.getLast?) :
    ¬ Complete startup.main (startup.afterLoad linkMap) := by
  rintro ⟨nodes, perm, linked⟩
  obtain ⟨debug, present, _⟩ := startup.publishedMaps_record
  obtain ⟨tail, remembered, member⟩ := startup.publishedMaps_tail_mem
  obtain ⟨front, back, split⟩ := List.append_of_mem member
  cases back with
  | nil =>
      rw [remembered, split, List.getLast?_concat] at wrong
      exact wrong rfl
  | cons following rest =>
      have order := startup.publishedMaps_linked
      have split' : startup.published = (front ++ [tail]) ++ following :: rest := by
        rw [split, List.append_assoc]
        rfl
      have followingListed : following ∈ startup.published := by
        rw [split']
        exact List.mem_append_right _ List.mem_cons_self
      have different : following ≠ linkMap := by
        rintro rfl
        exact fresh followingListed
      obtain ⟨_, _, _, prev⟩ := @CustomDebug.addDebugLinkMap_linking
        (startup.publishedMaps.setMap linkMap .zero) debug linkMap present
      have followingPrev : (startup.afterLoad linkMap).custom.prev following = some tail := by
        rw [split'] at order
        change CustomDebug.prev (CustomDebug.addDebugLinkMap _ _) following = some tail
        rw [prev, Function.update_of_ne different, CustomDebug.prev_setMap,
          Function.update_of_ne different, order.prev_eq, List.getLast?_concat]
      have loadedPrev : (startup.afterLoad linkMap).custom.prev linkMap = some tail := by
        change CustomDebug.prev (CustomDebug.addDebugLinkMap _ _) linkMap = some tail
        rw [prev, Function.update_self]
        exact remembered
      have followingMember : following ∈ nodes := by
        refine perm.mem_iff.mpr (List.mem_append_left _ ?_)
        exact startup.published_perm.mem_iff.mp followingListed
      have loadedMember : linkMap ∈ nodes :=
        perm.mem_iff.mpr (List.mem_append_right _ (List.mem_singleton_self _))
      have first := linked.next_of_prev followingMember followingPrev
      have second := linked.next_of_prev loadedMember loadedPrev
      exact different (Option.some.inj (first.symm.trans second))

theorem published_appending
    (ends : startup.publishedMaps.tail = startup.published.getLast?) :
    Appending startup.published startup.main startup.rtld
      (startup.world startup.publishedMaps) where
  record := startup.publishedMaps_record
  linked := by
    change DoublyLinked _ _ _ startup.publishedMaps.tail (startup.published ++ [])
    rw [List.append_nil, ends]
    exact startup.publishedMaps_linked
  startup := startup.published_perm

theorem tail_of_staysComplete
    (stays : startup.StaysComplete startup.publishedMaps startup.main) :
    startup.publishedMaps.tail = startup.published.getLast? := by
  by_contra wrong
  obtain ⟨linkMap, fresh⟩ := exists_fresh startup.published
  refine startup.afterLoad_not_complete fresh wrong (stays [.add linkMap .zero] _ ?_)
  refine TransitionSystem.Run.snoc .refl ⟨trivial, ?_⟩
  change DebugWorld.act _ (.add linkMap .zero) = some (startup.afterLoad linkMap)
  rw [DebugWorld.act, if_neg]
  · rfl
  · rintro (listed | unlisted)
    · have member : linkMap ∈ (startup.rtld :: startup.main :: startup.dependencies) ++ [] :=
        listed
      rw [List.append_nil] at member
      exact fresh (startup.published_perm.mem_iff.mpr member)
    · cases unlisted

theorem staysComplete_of_tail
    (ends : startup.publishedMaps.tail = startup.published.getLast?) :
    startup.StaysComplete startup.publishedMaps startup.main := by
  intro actions world run
  have interpreter : startup.rtld ∈ startup.published :=
    startup.published_perm.mem_iff.mpr List.mem_cons_self
  have appending := run.preserves
    (fun _ _ _ appending step => Appending.step appending interpreter step)
    (startup.published_appending ends)
  exact appending.complete

end StartupScope

/-- The published list stays complete through every later load and unload exactly when
there is a dependency and the one loaded last is also last in the load group. -/
theorem rtld_list_complete_iff (startup : StartupScope) :
    ∃ custom head, startup.publishLoadedGlobals = .ok (custom, head) ∧
      (startup.StaysComplete custom head ↔
        startup.dependencies.getLast? = startup.group.getLast?) := by
  refine ⟨_, _, startup.publishLoadedGlobals_eq, ?_⟩
  rw [← startup.tail_published_iff, ← startup.publishedMaps_tail]
  exact ⟨startup.tail_of_staysComplete, startup.staysComplete_of_tail⟩

/-- An object of a load group, with a map and a page range of its own. -/
def groupObject (index : Nat) (name : String) : ModuleHandle where
  instanceId := ⟨index⟩
  name := name
  ranges := [(65536 * (index + 1), 65536 * (index + 1) + 4096)]
  symbols := []
  elf := some ⟨none, name, [], 65536 * (index + 1), some [⟨1, 0, 0x1000⟩], none,
    some ⟨name, mapAt index⟩⟩

/-- A program with two libraries; the interpreter is needed by the first of them. -/
def libcStartup : StartupScope where
  memory _ := .zero
  rtld := mapAt 0
  rtldBase := 65536
  main := mapAt 1
  dependencies := [mapAt 2, mapAt 3]
  scope := [groupObject 1 "", groupObject 2 "/lib/libm.so.6", groupObject 0 "/lib/ld.so",
    groupObject 3 "/lib/libc.so.6"]
  distinct := by decide
  root := rfl
  owned := by
    intro handle member elf native
    simp only [List.mem_cons, List.not_mem_nil, or_false] at member
    rcases member with rfl | rfl | rfl | rfl
    all_goals
      cases native
      rfl
  apart := by
    intro handle member elf native based
    simp only [List.mem_cons, List.not_mem_nil, or_false] at member
    rcases member with rfl | rfl | rfl | rfl
    all_goals
      cases native
      first
      | rfl
      | exact absurd based (by decide)
  loaded := by decide

/-- libc was loaded last and ends the group. -/
theorem rtld_list_complete_libc : ∃ custom head,
    libcStartup.publishLoadedGlobals = .ok (custom, head) ∧
      libcStartup.StaysComplete custom head := by
  obtain ⟨custom, head, published, complete⟩ := rtld_list_complete_iff libcStartup
  exact ⟨custom, head, published, complete.mpr rfl⟩

/-- A program without dependencies, in its own load group. -/
def loneProgram : ModuleHandle where
  instanceId := ⟨0⟩
  name := ""
  ranges := [(65536, 69632)]
  symbols := []
  elf := some ⟨none, "", [], 65536, some [⟨1, 0, 0x1000⟩], none, some ⟨"", mapAt 1⟩⟩

def loneStartup : StartupScope where
  memory _ := .zero
  rtld := mapAt 0
  rtldBase := 4096
  main := mapAt 1
  dependencies := []
  scope := [loneProgram]
  distinct := by decide
  root := rfl
  owned := by
    intro handle member elf native
    cases List.mem_singleton.mp member
    cases native
    rfl
  apart := by
    intro handle member elf native based
    cases List.mem_singleton.mp member
    cases native
    cases based
  loaded := List.Perm.refl _

/-- Its list is not complete after the first library is loaded. -/
theorem rtld_list_incomplete_alone : ∃ (startup : StartupScope) (custom : CustomDebug)
    (head : LinkMapAddress), startup.rtld = mapAt 0 ∧ startup.main = mapAt 1 ∧
      startup.dependencies = [] ∧ startup.scope = [loneProgram] ∧
      startup.publishLoadedGlobals = .ok (custom, head) ∧
      ¬ startup.StaysComplete custom head := by
  refine ⟨loneStartup, _, _, rfl, rfl, rfl, rfl, loneStartup.publishLoadedGlobals_eq, ?_⟩
  intro stays
  have ends := loneStartup.tail_of_staysComplete stays
  rw [loneStartup.publishedMaps_tail, loneStartup.tail_published_iff] at ends
  cases ends

end DynLinker.Debug
