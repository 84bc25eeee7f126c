import DynLinker.Loader.ReferenceContext

/-! When a release unloads a module: as soon as no lease and no pin reaches it through
dependencies, and not before. The laws of `LawfulElfLoader` only say what a release may
not unload. -/

set_option autoImplicit false

namespace DynLinker.Loader

open Lib ElfLoader

/-- Some leased or pinned module depends on this one, or is this one. -/
def ContextView.Needed (view : ContextView) (id : ModuleId) : Prop :=
  ∃ lease ∈ view.outstanding ++ view.pinned, ∃ root ∈ view.modules, root.id = lease.id ∧
    ∃ record, view.InGroup root record ∧ record.id = id

/-- A release unloads exactly what nothing needs without the lease that goes back. -/
class CollectingElfLoader (Ctx : Type) [ElfLoader Ctx] : Prop where
  release_exact : ∀ (ctx next : Ctx) (lease : NativeModuleLease) (unloaded : List ModuleId),
    release ctx lease = .ok (unloaded, next) → ((view ctx).order.map Prod.fst).Nodup →
    ∀ id, id ∈ unloaded ↔ (view ctx).Committed id ∧ ¬ ((view ctx).retire lease).Needed id

namespace ContextView

/-- The same modules, with other leases out. -/
def withLeases (view : ContextView) (leases : List NativeModuleLease) : ContextView :=
  { view with outstanding := leases }

theorem needed_retire (view : ContextView) (lease : NativeModuleLease) (id : ModuleId) :
    (view.retire lease).Needed id ↔ (view.withLeases (view.outstanding.erase lease)).Needed id :=
  .rfl

variable {before after : ContextView} {held fewer : List NativeModuleLease}

/-- When only unneeded modules have gone, what fewer leases need is the same before and
after: everything on the way to a needed module is needed too. -/
theorem needed_of_kept
    (fewerModules : after.modules ⊆ before.modules)
    (kept : ∀ record ∈ before.modules, (before.withLeases held).Needed record.id →
      record ∈ after.modules)
    (pinned : after.pinned = before.pinned) (sublist : fewer ⊆ held) (id : ModuleId) :
    (after.withLeases fewer).Needed id ↔ (before.withLeases fewer).Needed id := by
  constructor
  · rintro ⟨lease, leased, root, listed, same, record, inGroup, named⟩
    rw [withLeases, pinned] at leased
    refine ⟨lease, leased, root, fewerModules listed, same, record, ?_, named⟩
    exact Relation.ReflTransGen.mono
      (fun source target edge => ⟨fewerModules edge.1, edge.2⟩) _ _ inGroup
  · rintro ⟨lease, leased, root, listed, same, record, inGroup, named⟩
    have stillHeld : lease ∈ held ++ before.pinned := by
      rcases List.mem_append.mp leased with out | pin
      · exact List.mem_append_left _ (sublist out)
      · exact List.mem_append_right _ pin
    have reached : ∀ member, before.InGroup root member → member ∈ before.modules →
        member ∈ after.modules := by
      intro member group present
      exact kept member present ⟨lease, stillHeld, root, listed, same, member, group, rfl⟩
    have group : after.InGroup root record := by
      induction inGroup generalizing id with
      | refl => exact .refl
      | tail early edge ih =>
          exact (ih _ rfl).tail ⟨reached _ (early.tail edge) edge.1, edge.2⟩
    refine ⟨lease, ?_, root, reached root .refl listed, same, record, group, named⟩
    rw [withLeases, pinned]
    exact leased

end ContextView

namespace ReferenceContext

theorem mem_unneeded_iff {view : ContextView} (unique : (view.order.map Prod.fst).Nodup)
    (id : ModuleId) : id ∈ unneeded view ↔ view.Committed id ∧ ¬ view.Needed id := by
  have reached : ∀ root ∈ view.modules, ∀ record,
      record ∈ FiniteReachability.reached view.modules edge root ↔ view.InGroup root record := by
    intro root listed record
    have sameEdges : FiniteReachability.ListedEdge view.modules edge = view.GroupEdge := by
      funext source target
      simp [FiniteReachability.ListedEdge, ContextView.GroupEdge, edge]
    rw [FiniteReachability.mem_reached_iff listed, sameEdges]
    rfl
  have sameRecord : ∀ left ∈ view.modules, ∀ right ∈ view.modules, left.id = right.id →
      left = right := by
    rw [ContextView.order, List.map_map] at unique
    exact List.inj_on_of_nodup_map unique
  constructor
  · intro member
    obtain ⟨record, kept, rfl⟩ := List.mem_map.mp (List.mem_dedup.mp member)
    obtain ⟨present, unreached⟩ := List.mem_filter.mp kept
    refine ⟨⟨record, present, rfl⟩, ?_⟩
    rintro ⟨lease, held, root, listed, same, other, inGroup, otherId⟩
    apply of_decide_eq_true unreached
    have otherListed : other ∈ view.modules := by
      cases inGroup with
      | refl => exact listed
      | tail _ edge => exact edge.1
    cases sameRecord other otherListed record present otherId
    exact ⟨lease, held, root, listed, same, (reached root listed record).mpr inGroup⟩
  · rintro ⟨⟨record, present, rfl⟩, unneeded⟩
    refine List.mem_dedup.mpr (List.mem_map.mpr ⟨record, List.mem_filter.mpr ⟨present, ?_⟩, rfl⟩)
    apply decide_eq_true
    rintro ⟨lease, held, root, listed, same, member⟩
    exact unneeded ⟨lease, held, root, listed, same, record,
      (reached root listed record).mp member, rfl⟩

instance {files : List (String × GraphModule)} : CollectingElfLoader (ReferenceContext files) where
  release_exact ctx next lease unloaded released unique id := by
    change (if lease ∈ ctx.view.outstanding then _ else _) = _ at released
    split at released
    · cases released
      have retired : ((ctx.view.retire lease).order.map Prod.fst).Nodup := unique
      exact mem_unneeded_iff retired id
    · cases released

end ReferenceContext

end DynLinker.Loader
