import DynLinker.Registry.LeaseConservation

/-! C handles are counters. An entry of the handle table holds one lease for each
open that was not closed yet, all on the module whose link map is the handle. -/

set_option autoImplicit false

namespace DynLinker.Registry

open Lib Loader ElfLoader

variable {Ctx : Type} [ElfLoader Ctx] [LawfulElfLoader Ctx]

def entryCount (entry : Option HandleState) : Nat :=
  entry.elim 0 fun state => state.extraLeases.length + 1

/-- The entry belongs to its handle and all its leases are on one module. -/
def KeyedEntry (handle : Nat) (state : HandleState) : Prop :=
  (∃ address : LinkMapAddress, state.opened.linkMap = .ok address ∧ address.value = handle) ∧
    ∃ lease, state.opened.lease = .new lease ∧
      ∀ extra ∈ state.extraLeases, ∃ inner, extra = .new inner ∧ inner.id = lease.id

structure Tabled (world : World Ctx) : Prop where
  conserved : Conserved world
  rooted : ∀ opened ∈ world.openedValues, Rooted world.view opened
  keyed : ∀ handle state, world.manager.handles.lookup handle = some state →
    KeyedEntry handle state
  counted : ∀ handle, world.opens handle =
    world.closes handle + entryCount (world.manager.handles.lookup handle)

/-! ## Live libraries keep their module -/

omit [LawfulElfLoader Ctx] in
theorem mem_holdings {Holder Item : Type} {contents : Holder → Multiset Item}
    {holders : List Holder} {item : Item} :
    item ∈ holdings contents holders ↔ ∃ holder ∈ holders, item ∈ contents holder := by
  induction holders with
  | nil => simp
  | cons head rest ih => simp [ih]

omit [LawfulElfLoader Ctx] in
theorem lease_mem_of_openedValue {world : World Ctx} {opened : OpenedLibrary}
    (live : opened ∈ world.openedValues) : opened.lease ∈ world.leases := by
  simp only [World.openedValues, List.mem_append, List.mem_map] at live
  simp only [World.leases, World.libraryLeases, World.tableLeases, mapHoldings, Multiset.mem_add,
    mem_holdings, Multiset.mem_singleton, HandleState.leases]
  rcases live with (waiting | ⟨library, owned, rfl⟩) | ⟨entry, kept, rfl⟩
  · exact .inl (.inl (.inl (.inr (.inl ⟨opened, waiting, rfl⟩))))
  · exact .inl (.inl (.inl (.inr (.inr ⟨library, owned, rfl⟩))))
  · exact .inl (.inl (.inl (.inl ⟨entry, kept, .inl rfl⟩)))

omit [LawfulElfLoader Ctx] in
theorem rooted_effect {before after : World Ctx} (effect : StepEffect before after)
    (conserved : Conserved after)
    (rooted : ∀ opened ∈ before.openedValues, Rooted before.view opened) :
    ∀ opened ∈ after.openedValues, Rooted after.view opened := by
  intro opened live
  rcases effect.rooted opened live with old | new
  · obtain ⟨lease, handle, leased, found, first⟩ := rooted opened old
    refine ⟨lease, handle, leased, ?_, first⟩
    cases effect.leases with
    | gains leases grown outstanding held => exact grown.handleOf found
    | gives lost middle unloaded grown same gone held =>
        -- the library still holds its lease, so its module was not unloaded
        obtain ⟨inner, sameLease, outstanding⟩ :=
          conserved.lease_live (lease_mem_of_openedValue live)
        rw [leased] at sameLease
        cases sameLease
        exact gone.handleOf (grown.handleOf found) (.inl ⟨lease, outstanding, rfl⟩)
  · exact new

omit [LawfulElfLoader Ctx] in
theorem linkMap_of_rooted {view : ContextView} {opened : OpenedLibrary}
    {address : LinkMapAddress} (rooted : Rooted view opened)
    (mapped : opened.linkMap = .ok address) :
    ∃ lease handle, opened.lease = .new lease ∧ view.handleOf lease.id = some handle ∧
      handle.linkMap = some address := by
  obtain ⟨lease, handle, leased, found, first⟩ := rooted
  refine ⟨lease, handle, leased, found, ?_⟩
  obtain ⟨module, downcast, mapped⟩ := bind_eq_ok.mp mapped
  obtain ⟨root, rooted, downcast⟩ := bind_eq_ok.mp downcast
  obtain ⟨data, attached, mapped⟩ := bind_eq_ok.mp mapped
  cases mapped
  cases (expectSome_eq_ok.mp rooted).symm.trans first
  exact Option.bind_eq_some_iff.mpr ⟨module, expectSome_eq_ok.mp downcast,
    Option.bind_eq_some_iff.mpr ⟨data, expectSome_eq_ok.mp attached, rfl⟩⟩

/-- Link maps tell committed modules apart. -/
theorem same_module_of_linkMap {world : World Ctx} {left right : ModuleId}
    {leftHandle rightHandle : ModuleHandle} {address : LinkMapAddress}
    (leftFound : world.view.handleOf left = some leftHandle)
    (rightFound : world.view.handleOf right = some rightHandle)
    (leftMapped : leftHandle.linkMap = some address)
    (rightMapped : rightHandle.linkMap = some address) : left = right := by
  obtain ⟨leftRecord, leftMember, rfl, rfl⟩ := ContextView.handleOf_mem_order leftFound
  obtain ⟨rightRecord, rightMember, rfl, rfl⟩ := ContextView.handleOf_mem_order rightFound
  rw [LawfulElfLoader.linkMap_unique world.manager.linkCtx leftRecord rightRecord address
    leftMember rightMember leftMapped rightMapped]

/-! ## The table through one step -/

omit [ElfLoader Ctx] [LawfulElfLoader Ctx] in
theorem KeyedEntry.pop {handle : Nat} {state rest : HandleState}
    (keyed : KeyedEntry handle state) (left : state.pop.2 = some rest) :
    KeyedEntry handle rest := by
  obtain ⟨address, lease, leased, extras⟩ := keyed
  rw [HandleState.pop] at left
  split at left
  · cases left
    refine ⟨address, lease, leased, ?_⟩
    intro extra member
    exact extras extra (List.mem_of_mem_dropLast member)
  · cases left

omit [ElfLoader Ctx] [LawfulElfLoader Ctx] in
theorem entryCount_pop (state : HandleState) :
    entryCount (some state) = entryCount state.pop.2 + 1 := by
  rw [HandleState.pop]
  split
  · next last final =>
      have nonempty : state.extraLeases ≠ [] := by
        intro empty
        rw [empty] at final
        cases final
      have positive := List.length_pos_of_ne_nil nonempty
      simp only [entryCount, Option.elim_some, List.length_dropLast]
      omega
  · next final =>
      have empty : state.extraLeases = [] := List.getLast?_eq_none_iff.mp final
      simp [entryCount, empty]

omit [ElfLoader Ctx] [LawfulElfLoader Ctx] in
theorem entryCount_push (entry : Option HandleState) (opened : OpenedLibrary) :
    entryCount (some (HandleState.push entry opened)) = entryCount entry + 1 := by
  cases entry with
  | none => rfl
  | some state => simp [entryCount, HandleState.push]

omit [ElfLoader Ctx] [LawfulElfLoader Ctx] in
theorem LinkMapAddress.eq_of_value {left right : LinkMapAddress}
    (same : left.value = right.value) : left = right := by
  cases left
  cases right
  cases same
  rfl

theorem keyed_push {world : World Ctx} (tabled : Tabled world) {opened : OpenedLibrary}
    (live : opened ∈ world.openedValues) {address : LinkMapAddress}
    (mapped : opened.linkMap = .ok address) :
    KeyedEntry address.value
      (HandleState.push (world.manager.handles.lookup address.value) opened) := by
  cases found : world.manager.handles.lookup address.value with
  | none =>
      obtain ⟨lease, _, leased, _⟩ := tabled.rooted opened live
      exact ⟨⟨address, mapped, rfl⟩, lease, leased, by simp [HandleState.push]⟩
  | some state =>
      obtain ⟨⟨known, knownMapped, knownValue⟩, lease, leased, extras⟩ :=
        tabled.keyed address.value state found
      cases LinkMapAddress.eq_of_value knownValue
      have kept : state.opened ∈ world.openedValues := by
        refine List.mem_append_right _ (List.mem_map.mpr ?_)
        exact ⟨⟨address.value, state⟩, AList.mem_lookup_iff.mp found, rfl⟩
      obtain ⟨first, firstHandle, firstLease, firstFound, firstMap⟩ :=
        linkMap_of_rooted (tabled.rooted state.opened kept) knownMapped
      obtain ⟨second, secondHandle, secondLease, secondFound, secondMap⟩ :=
        linkMap_of_rooted (tabled.rooted opened live) mapped
      have same := same_module_of_linkMap firstFound secondFound firstMap secondMap
      rw [leased] at firstLease
      cases firstLease
      refine ⟨⟨address, knownMapped, rfl⟩, lease, leased, ?_⟩
      intro extra member
      rcases List.mem_append.mp member with old | new
      · exact extras extra old
      · cases List.mem_singleton.mp new
        exact ⟨second, secondLease, same.symm⟩

omit [LawfulElfLoader Ctx] in
/-- One entry of the table is written, and its counters with it. -/
theorem Tabled.replace {before after : World Ctx} (tabled : Tabled before)
    (conserved : Conserved after)
    (rooted : ∀ opened ∈ after.openedValues, Rooted after.view opened) {handle : Nat}
    {entry : Option HandleState}
    (handles : after.manager.handles = (before.manager.replaceHandle handle entry).handles)
    (keyed : ∀ state, entry = some state → KeyedEntry handle state)
    (counted : after.opens handle = after.closes handle + entryCount entry)
    (opens : ∀ other, other ≠ handle → after.opens other = before.opens other)
    (closes : ∀ other, other ≠ handle → after.closes other = before.closes other) :
    Tabled after := by
  refine ⟨conserved, rooted, ?_, ?_⟩
  · intro other state found
    rw [handles] at found
    by_cases same : other = handle
    · subst same
      rw [Manager.replaceHandle_lookup] at found
      exact keyed state found
    · rw [Manager.replaceHandle_lookup_ne _ same] at found
      exact tabled.keyed other state found
  · intro other
    rw [handles]
    by_cases same : other = handle
    · subst same
      rw [Manager.replaceHandle_lookup]
      exact counted
    · rw [Manager.replaceHandle_lookup_ne _ same, opens other same, closes other same]
      exact tabled.counted other

theorem tabled_effect {before after : World Ctx} (tabled : Tabled before)
    (effect : StepEffect before after) : Tabled after := by
  have conserved := conserved_effect tabled.conserved effect
  have rooted := rooted_effect effect conserved tabled.rooted
  cases effect.table with
  | same handles opens closes =>
      refine ⟨conserved, rooted, ?_, ?_⟩
      · rw [handles]
        exact tabled.keyed
      · rw [handles, opens, closes]
        exact tabled.counted
  | registered opened handle live registering opens closes =>
      obtain ⟨address, mapped, rfl, manager⟩ := Manager.registerHandle_spec registering
      have keyed := keyed_push tabled live mapped
      have count := tabled.counted address.value
      have handles : after.manager.handles = (before.manager.replaceHandle address.value
          (some (HandleState.push (before.manager.handles.lookup address.value) opened))).handles :=
        congrArg Manager.handles manager
      refine tabled.replace conserved rooted handles ?_ ?_ ?_ ?_
      · intro state written
        cases written
        exact keyed
      · rw [opens, closes, Function.update_self, entryCount_push]
        omega
      · intro other different
        rw [opens, Function.update_of_ne different]
      · intro other _
        rw [closes]
  | closed handle unloaded releasing opens closes =>
      obtain ⟨state, inner, found, _, _, handles⟩ := Manager.releaseHandle_spec releasing
      have keyed := tabled.keyed handle state found
      have count := tabled.counted handle
      rw [found, entryCount_pop] at count
      refine tabled.replace conserved rooted handles (fun rest left => keyed.pop left) ?_ ?_ ?_
      · rw [opens, closes, Function.update_self]
        omega
      · intro other _
        rw [opens]
      · intro other different
        rw [closes, Function.update_of_ne different]

theorem tabled_new : Tabled (World.new : World Ctx) where
  conserved := conserved_new
  rooted opened live := by cases live
  keyed handle state found := by cases found
  counted _ := rfl

theorem tabled_inductive :
    (World.system : TransitionSystem (World Ctx) (Action Ctx)).Inductive Tabled where
  initially _ initial := initial ▸ tabled_new
  preserved _ _ _ tabled step := tabled_effect tabled (act_effect tabled.conserved step)

/-! ## What a handle means -/

/-- The link map of a committed module, as a handle. -/
def linkMapOf (view : ContextView) (id : ModuleId) : Option Nat :=
  ((view.handleOf id).bind ModuleHandle.linkMap).map (·.value)

omit [LawfulElfLoader Ctx] in
theorem Tabled.known_iff {world : World Ctx} (tabled : Tabled world) (handle : Nat) :
    (world.manager.handles.lookup handle).isSome ↔ world.closes handle < world.opens handle := by
  have count := tabled.counted handle
  cases found : world.manager.handles.lookup handle with
  | none =>
      rw [found] at count
      simp only [entryCount, Option.elim_none] at count
      simp [count]
  | some state =>
      rw [found] at count
      simp only [entryCount, Option.elim_some] at count
      simp only [Option.isSome_some, true_iff]
      omega

omit [LawfulElfLoader Ctx] in
theorem Tabled.null_unknown {world : World Ctx} (tabled : Tabled world) :
    world.manager.handles.lookup 0 = none := by
  cases found : world.manager.handles.lookup 0 with
  | none => rfl
  | some state =>
      obtain ⟨⟨address, _, null⟩, _⟩ := tabled.keyed 0 state found
      exact absurd null address.nonnull

/-- Closing a known handle always gives a live lease back. -/
theorem Tabled.releaseHandle_total {world : World Ctx} (tabled : Tabled world) {handle : Nat}
    {state : HandleState} (found : world.manager.handles.lookup handle = some state) :
    ∃ unloaded next, world.manager.releaseHandle handle = .ok (some unloaded, next) := by
  have held : state.pop.1 ∈ world.leases := by
    rw [World.leases, World.tableLeases, tableLeases_pop found]
    simp
  obtain ⟨inner, live, outstanding⟩ := tabled.conserved.lease_live held
  have replaced : inner ∈ (world.manager.replaceHandle handle state.pop.2).view.outstanding := by
    rw [Manager.view, Manager.replaceHandle_linkCtx]
    exact outstanding
  obtain ⟨unloaded, next, releasing⟩ := Manager.release_total replaced
  refine ⟨unloaded, next, ?_⟩
  rw [Manager.releaseHandle, found]
  refine bind_eq_ok.mpr ⟨(inner, ⟨none⟩), ?_, bind_eq_ok.mpr ⟨(unloaded, next), releasing, rfl⟩⟩
  rw [live]
  rfl

theorem Tabled.dlclose_eq {world : World Ctx} (tabled : Tabled world) (handle : Nat) :
    ∃ next, world.dlcloseAt handle =
        .ok (decide (world.closes handle < world.opens handle), next) ∧
      (¬ world.closes handle < world.opens handle → next = world) := by
  rw [World.dlcloseAt]
  cases found : world.manager.handles.lookup handle with
  | none =>
      have unknown : ¬ world.closes handle < world.opens handle := by
        rw [← tabled.known_iff handle, found]
        exact Bool.false_ne_true
      rw [decide_eq_false unknown]
      split
      · exact ⟨world, rfl, fun _ => rfl⟩
      · rw [Manager.releaseHandle, found]
        exact ⟨world, rfl, fun _ => rfl⟩
  | some state =>
      have known : world.closes handle < world.opens handle := by
        rw [← tabled.known_iff handle, found]
        rfl
      have nonnull : handle ≠ 0 := by
        rintro rfl
        rw [tabled.null_unknown] at found
        cases found
      obtain ⟨unloaded, next, releasing⟩ := tabled.releaseHandle_total found
      rw [decide_eq_true known, if_neg nonnull, releasing]
      exact ⟨_, rfl, fun unknown => absurd known unknown⟩

omit [LawfulElfLoader Ctx] in
theorem Tabled.entry_leases {world : World Ctx} (tabled : Tabled world) {handle : Nat}
    {state : HandleState} (found : world.manager.handles.lookup handle = some state)
    {lease : ModuleLease} (member : lease ∈ state.leases) :
    ∃ inner, lease = .new inner ∧ linkMapOf world.view inner.id = some handle := by
  obtain ⟨⟨address, mapped, rfl⟩, first, leased, extras⟩ := tabled.keyed handle state found
  have kept : state.opened ∈ world.openedValues :=
    List.mem_append_right _ (List.mem_map.mpr
      ⟨⟨address.value, state⟩, AList.mem_lookup_iff.mp found, rfl⟩)
  obtain ⟨root, rootHandle, rootLease, rootFound, rootMap⟩ :=
    linkMap_of_rooted (tabled.rooted state.opened kept) mapped
  rw [leased] at rootLease
  cases rootLease
  have rootLink : linkMapOf world.view first.id = some address.value := by
    rw [linkMapOf, rootFound, Option.bind_some, rootMap]
    rfl
  simp only [HandleState.leases, Multiset.mem_add, Multiset.mem_singleton, Multiset.mem_coe]
    at member
  rcases member with rfl | extra
  · exact ⟨first, leased, rootLink⟩
  · obtain ⟨inner, same, sameId⟩ := extras lease extra
    exact ⟨inner, same, sameId ▸ rootLink⟩

theorem linkMapOf_injective {world : World Ctx} {left right : ModuleId} {handle : Nat}
    (leftLink : linkMapOf world.view left = some handle)
    (rightLink : linkMapOf world.view right = some handle) : left = right := by
  obtain ⟨leftAddress, leftBound, leftValue⟩ := Option.map_eq_some_iff.mp leftLink
  obtain ⟨rightAddress, rightBound, rightValue⟩ := Option.map_eq_some_iff.mp rightLink
  obtain ⟨leftHandle, leftFound, leftMap⟩ := Option.bind_eq_some_iff.mp leftBound
  obtain ⟨rightHandle, rightFound, rightMap⟩ := Option.bind_eq_some_iff.mp rightBound
  cases LinkMapAddress.eq_of_value (leftValue.trans rightValue.symm)
  exact same_module_of_linkMap leftFound rightFound leftMap rightMap

omit [LawfulElfLoader Ctx] in
/-- Leases of other entries are on other modules. -/
theorem Tabled.leasesOn_others {world : World Ctx} (tabled : Tabled world) {id : ModuleId}
    {handle : Nat} (mapped : linkMapOf world.view id = some handle)
    {others : AList fun _ : Nat => HandleState}
    (apart : ∀ other state, others.lookup other = some state →
      other ≠ handle ∧ world.manager.handles.lookup other = some state) :
    leasesOn id (mapHoldings HandleState.leases others) = 0 := by
  rw [leasesOn, Multiset.countP_eq_zero]
  intro lease member names
  obtain ⟨entry, kept, member⟩ := mem_holdings.mp member
  obtain ⟨different, found⟩ := apart entry.1 entry.2 (AList.mem_lookup_iff.mpr kept)
  obtain ⟨inner, rfl, link⟩ := tabled.entry_leases found member
  have same : inner.id = id := by simpa [ModuleLease.names, ModuleLease.new] using names
  rw [same, mapped] at link
  exact different (Option.some.inj link).symm

theorem Tabled.leasesOn_module {world : World Ctx} (tabled : Tabled world) {id : ModuleId}
    {handle : Nat} (mapped : linkMapOf world.view id = some handle) :
    leasesOn id world.tableLeases = world.opens handle - world.closes handle := by
  have count := tabled.counted handle
  cases found : world.manager.handles.lookup handle with
  | none =>
      rw [found] at count
      simp only [entryCount, Option.elim_none] at count
      rw [World.tableLeases, tabled.leasesOn_others mapped, count]
      · omega
      · intro other state known
        refine ⟨?_, known⟩
        rintro rfl
        rw [found] at known
        cases known
  | some state =>
      rw [found] at count
      simp only [entryCount, Option.elim_some] at count
      have own : leasesOn id state.leases = state.extraLeases.length + 1 := by
        have all : ∀ lease ∈ state.leases, lease.names id = true := by
          intro lease member
          obtain ⟨inner, rfl, link⟩ := tabled.entry_leases found member
          simp [ModuleLease.names, ModuleLease.new, linkMapOf_injective link mapped]
        rw [leasesOn, Multiset.countP_eq_card.mpr all]
        simp [HandleState.leases]
      have rest : leasesOn id (mapHoldings HandleState.leases
          (world.manager.handles.erase handle)) = 0 := by
        apply tabled.leasesOn_others mapped
        intro other state known
        by_cases same : other = handle
        · subst same
          rw [AList.lookup_erase] at known
          cases known
        · rw [AList.lookup_erase_ne same] at known
          exact ⟨same, known⟩
      rw [leasesOn] at own rest
      rw [World.tableLeases, mapHoldings_erase _ found, leasesOn, Multiset.countP_add, own, rest]
      omega

omit [LawfulElfLoader Ctx] in
theorem Tabled.handleFind_known {world : World Ctx} (tabled : Tabled world) {handle : Nat}
    (known : world.closes handle < world.opens handle) :
    ∃ id scope, linkMapOf world.view id = some handle ∧
      scope.head? = world.view.handleOf id ∧
      ∀ name, world.manager.handleFind handle name = findSymbol scope name := by
  obtain ⟨state, found⟩ := Option.isSome_iff_exists.mp ((tabled.known_iff handle).mpr known)
  have kept : state.opened ∈ world.openedValues :=
    List.mem_append_right _ (List.mem_map.mpr
      ⟨⟨handle, state⟩, AList.mem_lookup_iff.mp found, rfl⟩)
  obtain ⟨lease, root, leased, rootFound, first⟩ := tabled.rooted state.opened kept
  have own : state.opened.lease ∈ state.leases := by simp [HandleState.leases]
  obtain ⟨inner, same, link⟩ := tabled.entry_leases found own
  rw [leased] at same
  cases same
  refine ⟨lease.id, state.opened.scope, link, first.trans rootFound.symm, ?_⟩
  intro name
  rw [Manager.handleFind, found]
  rfl

/-- In every reachable state a C handle is the counter of its opens and closes:
`dlclose` succeeds while an open is left and otherwise changes nothing, the lookups
know the handle exactly then, and the table holds that many leases on its module. -/
theorem handle_refines_counter (world : World Ctx) (reached : World.system.Reachable world)
    (handle : Nat) :
    (∃ next, world.dlcloseAt handle =
        .ok (decide (world.closes handle < world.opens handle), next) ∧
      (¬ world.closes handle < world.opens handle → next = world)) ∧
    (world.manager.handleLinkMap handle = some handle ↔
      world.closes handle < world.opens handle) ∧
    (world.closes handle < world.opens handle →
      ∃ id scope, linkMapOf world.view id = some handle ∧
        scope.head? = world.view.handleOf id ∧
        ∀ name, world.manager.handleFind handle name = findSymbol scope name) ∧
    (¬ world.closes handle < world.opens handle →
      ∀ name, world.manager.handleFind handle name = none) ∧
    ∀ id, linkMapOf world.view id = some handle →
      leasesOn id world.tableLeases = world.opens handle - world.closes handle := by
  have tabled : Tabled world := tabled_inductive.reachable reached
  refine ⟨tabled.dlclose_eq handle, ?_, tabled.handleFind_known, ?_, ?_⟩
  · rw [← tabled.known_iff handle, Manager.handleLinkMap]
    split
    · next known => simp [known]
    · next unknown => simp [unknown]
  · intro unknown name
    rw [← tabled.known_iff handle, Option.not_isSome_iff_eq_none] at unknown
    rw [Manager.handleFind, unknown]
    rfl
  · intro id mapped
    exact tabled.leasesOn_module mapped

/-- Two opens and one close of the program's own handle. -/
theorem handle_refines_counter_self_open :
    ∃ world, (World.new : World (ReferenceContext [])).runActions leaseActions = some world ∧
      world.opens 0x500 = 2 ∧ world.closes 0x500 = 1 ∧
      world.manager.handleLinkMap 0x500 = some 0x500 := by
  have counted : ((World.new : World (ReferenceContext [])).runActions leaseActions).map
      (fun world => (world.opens 0x500, world.closes 0x500)) = some (2, 1) := by
    decide +kernel
  obtain ⟨world, ran, counts⟩ := Option.map_eq_some_iff.mp counted
  obtain ⟨opens, closes⟩ := Prod.mk.inj counts
  have refines := handle_refines_counter world (World.reachable_of_runActions ran) 0x500
  refine ⟨world, ran, opens, closes, refines.2.1.mpr ?_⟩
  rw [opens, closes]
  decide

end DynLinker.Registry
