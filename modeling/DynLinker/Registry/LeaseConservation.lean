import DynLinker.Loader.ReferenceContext
import DynLinker.Registry.HostImportProperties
import DynLinker.Registry.WorldProperties

/-! In every run the acquisitions that are out are exactly those that live values
hold, and each acquisition is given back at most once. -/

set_option autoImplicit false

namespace DynLinker.Registry

open Lib Loader ElfLoader

variable {Ctx : Type} [ElfLoader Ctx] [LawfulElfLoader Ctx]

omit [LawfulElfLoader Ctx] in
theorem conserved_effect {before after : World Ctx} (conserved : Conserved before)
    (effect : StepEffect before after) : Conserved after := by
  obtain ⟨accounted, held⟩ := conserved
  cases effect.leases with
  | gains leases grown outstanding gained =>
      refine ⟨grown.accounted accounted, ?_⟩
      rw [gained, held, Multiset.coe_add, ← List.map_append]
      exact Multiset.coe_eq_coe.mpr (outstanding.map ModuleLease.new).symm
  | gives lease middle unloaded grown same gone lost =>
      refine ⟨gone.accounted (grown.accounted accounted), ?_⟩
      have member := gone.member
      rw [same] at member
      have split : (before.view.outstanding.map ModuleLease.new : Multiset ModuleLease) =
          {ModuleLease.new lease} +
            ((before.view.outstanding.erase lease).map ModuleLease.new : Multiset ModuleLease) := by
        rw [Multiset.singleton_add, Multiset.cons_coe, ← List.map_cons]
        exact Multiset.coe_eq_coe.mpr ((List.perm_cons_erase member).map _)
      rw [gone.outstanding, same]
      rw [held, split] at lost
      exact (add_left_cancel lost).symm

theorem conserved_new : Conserved (World.new : World Ctx) := by
  have start : (World.new : World Ctx).view = ContextView.empty := LawfulElfLoader.view_new
  refine ⟨?_, ?_⟩
  · rw [start]
    exact ⟨List.nodup_nil, .refl _, by simp [ContextView.empty]⟩
  · rw [start]
    rfl

theorem conserved_inductive :
    (World.system : TransitionSystem (World Ctx) (Action Ctx)).Inductive Conserved where
  initially _ initial := initial ▸ conserved_new
  preserved _ _ _ conserved step := conserved_effect conserved (act_effect conserved step)

def ModuleLease.names (id : ModuleId) (lease : ModuleLease) : Bool :=
  lease.inner.any fun inner => inner.id = id

/-- How many of the leases are on one module. -/
def leasesOn (id : ModuleId) (leases : Multiset ModuleLease) : Nat :=
  leases.countP fun lease => lease.names id

omit [LawfulElfLoader Ctx] in
theorem leasesOn_held {world : World Ctx} (conserved : Conserved world) (id : ModuleId) :
    world.view.outstanding.countP (fun lease => lease.id = id) =
      leasesOn id world.tableLeases + leasesOn id world.libraryLeases +
        leasesOn id world.snapshotLeases + leasesOn id world.destructorLeases +
        leasesOn id world.openingLeases := by
  have whole : leasesOn id world.leases =
      world.view.outstanding.countP (fun lease => lease.id = id) := by
    rw [conserved.held, leasesOn, Multiset.coe_countP, List.countP_map]
    apply List.countP_congr
    intro lease _
    simp [ModuleLease.names, ModuleLease.new]
  rw [← whole, World.leases]
  simp only [leasesOn, Multiset.countP_add]

theorem Conserved.drop_releases {world : World Ctx} (conserved : Conserved world)
    {lease : ModuleLease} (member : lease ∈ world.leases) :
    ∃ inner next, lease = .new inner ∧ inner ∉ world.view.released ∧
      world.manager.dropLease lease = .ok next ∧
      next.view.released = inner :: world.view.released := by
  obtain ⟨inner, rfl, outstanding⟩ := conserved.lease_live member
  obtain ⟨unloaded, next, releasing⟩ := Manager.release_total outstanding
  obtain ⟨gone, _⟩ := Manager.release_spec releasing
  refine ⟨inner, next, rfl, ?_, bind_eq_ok.mpr ⟨(unloaded, next), releasing, rfl⟩, ?_⟩
  · have apart := conserved.accounted.balance.nodup_iff.mp conserved.accounted.nodup
    have disjoint := (List.nodup_append.mp apart).2.2
    intro released
    exact disjoint inner outstanding inner (List.mem_append_right _ released) rfl
  · rw [gone.result]
    rfl

/-- In every reachable state the outstanding acquisitions of a module are those of
its handle, of live libraries, snapshots and thread destructors and of opens in
progress; no acquisition is made or given back twice, and giving one back works. -/
theorem lease_conservation (world : World Ctx) (reached : World.system.Reachable world) :
    (∀ id, world.view.outstanding.countP (fun lease => lease.id = id) =
      leasesOn id world.tableLeases + leasesOn id world.libraryLeases +
        leasesOn id world.snapshotLeases + leasesOn id world.destructorLeases +
        leasesOn id world.openingLeases) ∧
      world.view.issued.Nodup ∧
      world.view.issued.Perm
        (world.view.outstanding ++ (world.view.pinned ++ world.view.released)) ∧
      ∀ lease ∈ world.leases, ∃ inner next, lease = .new inner ∧
        inner ∉ world.view.released ∧ world.manager.dropLease lease = .ok next ∧
        next.view.released = inner :: world.view.released := by
  have conserved : Conserved world := conserved_inductive.reachable reached
  exact ⟨leasesOn_held conserved, conserved.accounted.nodup, conserved.accounted.balance,
    fun lease member => conserved.drop_releases member⟩

/-- A program that opens itself twice, closes one handle, walks the loaded objects
and registers a thread destructor. -/
def leaseActions : List (Action (ReferenceContext [])) := [
  .registerLoaded hostMain.loaded Manager.hostFlags,
  .registerInitialAliases,
  .openMain, .registerHandle 0,
  .openMain, .registerHandle 0,
  .dlclose 0x500,
  .libraryByAddr 0x10100, .intoElfLibrary 0, .cloneLibrary 0, .dropLibrary 0,
  .iteratePhdr,
  .registerDestructor 0x10200]

theorem lease_conservation_self_open :
    ∃ world, (World.new : World (ReferenceContext [])).runActions leaseActions = some world ∧
      world.view.outstanding.countP (fun lease => lease.id = ⟨0⟩) = 4 ∧
      world.view.outstanding.countP (fun lease => lease.id = ⟨0⟩) =
        leasesOn ⟨0⟩ world.tableLeases + leasesOn ⟨0⟩ world.libraryLeases +
          leasesOn ⟨0⟩ world.snapshotLeases + leasesOn ⟨0⟩ world.destructorLeases +
          leasesOn ⟨0⟩ world.openingLeases := by
  have counted : ((World.new : World (ReferenceContext [])).runActions leaseActions).map
      (fun world => world.view.outstanding.countP fun lease => lease.id = ⟨0⟩) = some 4 := by
    decide +kernel
  obtain ⟨world, ran, count⟩ := Option.map_eq_some_iff.mp counted
  refine ⟨world, ran, count, ?_⟩
  exact (lease_conservation world (World.reachable_of_runActions ran)).1 ⟨0⟩

end DynLinker.Registry
