import DynLinker.Loader.Context

/-! Bookkeeping of acquisitions, and the order in which recorded data may grow.
`Extends` is what every operation short of an unload does to the records. -/

set_option autoImplicit false

namespace DynLinker.Loader

namespace ContextView

def handleOf (view : ContextView) (id : ModuleId) : Option ModuleHandle :=
  (view.find id).map (·.handle)

def flagsOf (view : ContextView) (id : ModuleId) : Option OpenFlags :=
  (view.find id).map (·.flags)

/-- Every acquisition was made once and is in exactly one place, and what is
outstanding belongs to a committed module. -/
structure Accounted (view : ContextView) : Prop where
  nodup : view.issued.Nodup
  balance : view.issued.Perm (view.outstanding ++ (view.pinned ++ view.released))
  committed : ∀ lease ∈ view.outstanding, view.Committed lease.id

structure Extends (before after : ContextView) : Prop where
  order : before.order <+: after.order
  pinned : before.pinned ⊆ after.pinned
  released : after.released = before.released
  accounted : before.Accounted → after.Accounted

theorem find_some {view : ContextView} {id : ModuleId} {record : ModuleRecord}
    (found : view.find id = some record) : record ∈ view.modules ∧ record.id = id := by
  refine ⟨List.mem_of_find?_eq_some found, ?_⟩
  simpa using List.find?_some found

theorem committed_iff_find {view : ContextView} {id : ModuleId} :
    view.Committed id ↔ ∃ record, view.find id = some record := by
  constructor
  · intro committed
    obtain ⟨record, member, same⟩ := committed
    apply Option.isSome_iff_exists.mp
    rw [find, List.find?_isSome]
    exact ⟨record, member, decide_eq_true same⟩
  · intro found
    obtain ⟨record, found⟩ := found
    obtain ⟨member, same⟩ := find_some found
    exact ⟨record, member, same⟩

theorem committed_iff_order {view : ContextView} {id : ModuleId} :
    view.Committed id ↔ id ∈ view.order.map Prod.fst := by
  simp [Committed, order]

theorem handleOf_eq_order (view : ContextView) (id : ModuleId) :
    view.handleOf id = (view.order.find? fun entry => entry.1 = id).map (·.2) := by
  rw [handleOf, find, order, List.find?_map, Option.map_map]
  rfl

theorem handleOf_of_find {view : ContextView} {id : ModuleId} {record : ModuleRecord}
    (found : view.find id = some record) : view.handleOf id = some record.handle := by
  rw [handleOf, found]
  rfl

theorem handleOf_mem_order {view : ContextView} {id : ModuleId} {handle : ModuleHandle}
    (found : view.handleOf id = some handle) :
    ∃ record ∈ view.modules, record.id = id ∧ record.handle = handle := by
  obtain ⟨record, found, same⟩ := Option.map_eq_some_iff.mp found
  obtain ⟨member, identity⟩ := find_some found
  exact ⟨record, member, identity, same⟩

namespace Extends

theorem refl (view : ContextView) : view.Extends view :=
  ⟨List.prefix_rfl, List.Subset.refl _, rfl, id⟩

theorem trans {first second third : ContextView} (early : first.Extends second)
    (late : second.Extends third) : first.Extends third where
  order := early.order.trans late.order
  pinned := List.Subset.trans early.pinned late.pinned
  released := late.released.trans early.released
  accounted := fun accounted => late.accounted (early.accounted accounted)

theorem committed {before after : ContextView} (grown : before.Extends after) {id : ModuleId}
    (committed : before.Committed id) : after.Committed id := by
  rw [committed_iff_order] at committed ⊢
  exact (grown.order.map Prod.fst).subset committed

theorem handleOf {before after : ContextView} (grown : before.Extends after) {id : ModuleId}
    {handle : ModuleHandle} (found : before.handleOf id = some handle) :
    after.handleOf id = some handle := by
  rw [handleOf_eq_order] at found ⊢
  obtain ⟨entry, found, same⟩ := Option.map_eq_some_iff.mp found
  obtain ⟨rest, whole⟩ := grown.order
  rw [← whole, List.find?_append, found]
  exact congrArg some same

theorem isPinned {before after : ContextView} (grown : before.Extends after) {id : ModuleId}
    (pinned : before.Pinned id) : after.Pinned id := by
  obtain ⟨lease, member, same⟩ := pinned
  exact ⟨lease, grown.pinned member, same⟩

theorem head {before after : ContextView} (grown : before.Extends after)
    {entry : ModuleId × ModuleHandle} (first : before.order.head? = some entry) :
    after.order.head? = some entry := by
  obtain ⟨rest, whole⟩ := grown.order
  rw [← whole, List.head?_append, first]
  rfl

/-- Changes to keys, aliases, flags, dependencies or the global scope keep all
acquisitions and the load order. -/
theorem of_same {before after : ContextView} (order : after.order = before.order)
    (issued : after.issued = before.issued) (outstanding : after.outstanding = before.outstanding)
    (pinned : after.pinned = before.pinned) (released : after.released = before.released) :
    before.Extends after where
  order := order ▸ List.prefix_rfl
  pinned := pinned ▸ List.Subset.refl _
  released := released
  accounted accounted := by
    constructor
    · rw [issued]
      exact accounted.nodup
    · rw [issued, outstanding, pinned, released]
      exact accounted.balance
    · intro lease member
      rw [committed_iff_order, order, ← committed_iff_order]
      rw [outstanding] at member
      exact accounted.committed lease member

theorem append (view : ContextView) (records : List ModuleRecord) :
    view.Extends (view.append records) where
  order := by
    rw [ContextView.order, ContextView.order, ContextView.append, List.map_append]
    exact List.prefix_append _ _
  pinned := List.Subset.refl _
  released := rfl
  accounted accounted := by
    refine ⟨accounted.nodup, accounted.balance, ?_⟩
    intro lease member
    obtain ⟨record, present, same⟩ := accounted.committed lease member
    exact ⟨record, List.mem_append_left _ present, same⟩

theorem issue {view : ContextView} {lease : NativeModuleLease}
    (committed : view.Committed lease.id) (fresh : lease ∉ view.issued) :
    view.Extends (view.issue lease) where
  order := List.prefix_rfl
  pinned := List.Subset.refl _
  released := rfl
  accounted accounted := by
    refine ⟨List.nodup_cons.mpr ⟨fresh, accounted.nodup⟩, accounted.balance.cons lease, ?_⟩
    intro other member
    rcases List.mem_cons.mp member with rfl | old
    · exact committed
    · exact accounted.committed other old

theorem consume {view : ContextView} {lease : NativeModuleLease}
    (member : lease ∈ view.outstanding) : view.Extends (view.consume lease) where
  order := List.prefix_rfl
  pinned := List.subset_cons_self _ _
  released := rfl
  accounted accounted := by
    refine ⟨accounted.nodup, ?_, ?_⟩
    · have moved := (List.perm_cons_erase member).append_right (view.pinned ++ view.released)
      exact accounted.balance.trans (moved.trans List.perm_middle.symm)
    · intro other rest
      exact accounted.committed other (List.mem_of_mem_erase rest)

end Extends

theorem consume_issue (view : ContextView) (lease : NativeModuleLease) :
    ((view.issue lease).consume lease).outstanding = view.outstanding := by
  simp [issue, consume]

@[simp] theorem setFlags_order (view : ContextView) (id : ModuleId) (flags : OpenFlags) :
    (view.setFlags id flags).order = view.order := by
  simp only [order, setFlags, List.map_map]
  apply List.map_congr_left
  intro record _
  simp only [Function.comp_apply]
  split <;> rfl

theorem find_setFlags (view : ContextView) (id other : ModuleId) (flags : OpenFlags) :
    (view.setFlags id flags).find other = (view.find other).map fun record =>
      if record.id = id then { record with flags := flags } else record := by
  rw [find, setFlags, List.find?_map, find]
  congr 2
  funext record
  simp only [Function.comp_apply]
  split <;> rfl

theorem flagsOf_setFlags_self {view : ContextView} {id : ModuleId} (flags : OpenFlags)
    (committed : view.Committed id) : (view.setFlags id flags).flagsOf id = some flags := by
  obtain ⟨record, found⟩ := committed_iff_find.mp committed
  simp [flagsOf, find_setFlags, found, (find_some found).2]

theorem flagsOf_setFlags_ne {view : ContextView} {id other : ModuleId} (flags : OpenFlags)
    (different : other ≠ id) : (view.setFlags id flags).flagsOf other = view.flagsOf other := by
  rw [flagsOf, find_setFlags, flagsOf]
  cases found : view.find other with
  | none => rfl
  | some record =>
      have named : record.id ≠ id := by
        rw [(find_some found).2]
        exact different
      simp [named]

theorem flagsOf_eq_none {view : ContextView} {id : ModuleId} (absent : ¬ view.Committed id) :
    view.flagsOf id = none := by
  rw [flagsOf, Option.map_eq_none_iff]
  cases found : view.find id with
  | none => rfl
  | some record => exact absurd (committed_iff_find.mpr ⟨record, found⟩) absent

theorem flagsOf_append (view : ContextView) (records : List ModuleRecord) (id : ModuleId) :
    (view.append records).flagsOf id =
      (view.flagsOf id).or ((records.find? fun record => record.id = id).map (·.flags)) := by
  rw [flagsOf, find, append, List.find?_append, Option.map_or]
  rfl

/-! ## Releasing -/

theorem order_unload (view : ContextView) (unloaded : List ModuleId) :
    (view.unload unloaded).order = view.order.filter fun entry => entry.1 ∉ unloaded := by
  simp only [order, unload, List.filter_map]
  rfl

theorem find_unload {view : ContextView} {unloaded : List ModuleId} {id : ModuleId}
    (kept : id ∉ unloaded) : (view.unload unloaded).find id = view.find id := by
  simp only [find, unload, List.find?_filter]
  congr 1
  funext record
  by_cases same : record.id = id
  · simp [same, kept]
  · simp [same]

theorem handleOf_unload {view : ContextView} {unloaded : List ModuleId} {id : ModuleId}
    (kept : id ∉ unloaded) : (view.unload unloaded).handleOf id = view.handleOf id := by
  rw [handleOf, find_unload kept, handleOf]

theorem flagsOf_unload (view : ContextView) (unloaded : List ModuleId) (id : ModuleId) :
    (view.unload unloaded).flagsOf id = if id ∈ unloaded then none else view.flagsOf id := by
  split
  · next gone =>
      apply flagsOf_eq_none
      rintro ⟨record, member, rfl⟩
      exact of_decide_eq_true (List.mem_filter.mp member).2 gone
  · next kept => rw [flagsOf, find_unload kept, flagsOf]

/-- A lease goes back, and some modules go that nobody leases or pins. -/
structure Releases (before after : ContextView) (lease : NativeModuleLease)
    (unloaded : List ModuleId) : Prop where
  member : lease ∈ before.outstanding
  result : after = (before.retire lease).unload unloaded
  free : ∀ id ∈ unloaded, ¬ (before.retire lease).Leased id ∧ ¬ before.Pinned id

namespace Releases

variable {before after : ContextView} {lease : NativeModuleLease} {unloaded : List ModuleId}

theorem outstanding (gone : before.Releases after lease unloaded) :
    after.outstanding = before.outstanding.erase lease := by
  rw [gone.result]
  rfl

theorem kept (gone : before.Releases after lease unloaded) {id : ModuleId}
    (held : after.Leased id ∨ before.Pinned id) : id ∉ unloaded := by
  intro member
  obtain ⟨notLeased, notPinned⟩ := gone.free id member
  rcases held with leased | pinned
  · rw [gone.result] at leased
    exact notLeased leased
  · exact notPinned pinned

theorem handleOf (gone : before.Releases after lease unloaded) {id : ModuleId}
    {handle : ModuleHandle} (found : before.handleOf id = some handle)
    (held : after.Leased id ∨ before.Pinned id) : after.handleOf id = some handle := by
  have kept := gone.kept held
  rw [gone.result, handleOf_unload kept]
  exact found

theorem pinned (gone : before.Releases after lease unloaded) : after.pinned = before.pinned := by
  rw [gone.result]
  rfl

theorem accounted (gone : before.Releases after lease unloaded) (accounted : before.Accounted) :
    after.Accounted := by
  rw [gone.result]
  refine ⟨accounted.nodup, ?_, ?_⟩
  · have moved := (List.perm_cons_erase gone.member).append_right (before.pinned ++ before.released)
    refine accounted.balance.trans (moved.trans ?_)
    refine List.Perm.trans List.perm_middle.symm ?_
    exact List.Perm.append_left _ List.perm_middle.symm
  · intro other rest
    have kept : other.id ∉ unloaded := fun absent =>
      (gone.free other.id absent).1 ⟨other, rest, rfl⟩
    obtain ⟨record, present, same⟩ := accounted.committed other (List.mem_of_mem_erase rest)
    refine ⟨record, List.mem_filter.mpr ⟨present, ?_⟩, same⟩
    rw [same]
    exact decide_eq_true kept

theorem head (gone : before.Releases after lease unloaded) {entry : ModuleId × ModuleHandle}
    (first : before.order.head? = some entry) (pinned : before.Pinned entry.1) :
    after.order.head? = some entry := by
  have kept := gone.kept (.inr pinned)
  rw [gone.result, order_unload]
  change before.order.head? = some entry at first
  cases whole : before.order with
  | nil =>
      rw [whole] at first
      cases first
  | cons head rest =>
      rw [whole] at first
      cases first
      change (List.filter _ before.order).head? = _
      rw [whole]
      simp [kept]

end Releases

end ContextView

end DynLinker.Loader
