import DynLinker.Loader.ReferenceContext
import DynLinker.Registry.RecordChanges

/-! The two counters of the registry against the committed modules. A module is counted
when its open succeeds or its object is registered, and counted off when it is released;
the modules of an open in progress are committed and not counted yet. -/

set_option autoImplicit false

namespace DynLinker.Registry

open Lib Loader ElfLoader

/-- Keys are taken out of a list in which no key stands twice. -/
theorem length_filter_keys {Key Value : Type} [DecidableEq Key] {entries : List (Key × Value)}
    (unique : (entries.map Prod.fst).Nodup) {keys : List Key} (nodup : keys.Nodup)
    (known : ∀ key ∈ keys, key ∈ entries.map Prod.fst) :
    (entries.filter fun entry => entry.1 ∉ keys).length + keys.length = entries.length := by
  have taken : ((entries.map Prod.fst).filter fun key => key ∈ keys).Perm keys := by
    refine (List.perm_ext_iff_of_nodup (unique.filter _) nodup).mpr ?_
    intro key
    rw [List.mem_filter, decide_eq_true_eq]
    exact ⟨And.right, fun member => ⟨known key member, member⟩⟩
  have halves := List.length_eq_length_filter_add (l := entries) fun entry => entry.1 ∈ keys
  rw [← taken.length_eq, List.filter_map, List.length_map]
  simp only [decide_not]
  change _ + (entries.filter fun entry => decide (entry.1 ∈ keys)).length = _
  omega

variable {Ctx : Type} [ElfLoader Ctx]

/-- The modules that opens in progress have committed. -/
def World.uncounted (world : World Ctx) : List ModuleId :=
  world.initialising.flatMap fun opening => opening.2.modules

theorem World.uncounted_perm {world : World Ctx} {index : Nat} {flags : OpenFlags}
    {load : LoadResult} (present : world.initialising[index]? = some (flags, load)) :
    world.uncounted.Perm (load.modules ++
      (world.initialising.eraseIdx index).flatMap fun opening => opening.2.modules) := by
  obtain ⟨bounded, same⟩ := List.getElem?_eq_some_iff.mp present
  have moved := (List.getElem_cons_eraseIdx_perm bounded).symm
  rw [same] at moved
  exact moved.flatMap_right _

/-! ## The load order -/

theorem unique_append {order added : List (ModuleId × ModuleHandle)}
    (unique : (order.map Prod.fst).Nodup) (nodup : (added.map Prod.fst).Nodup)
    (absent : ∀ id ∈ added.map Prod.fst, id ∉ order.map Prod.fst) :
    ((order ++ added).map Prod.fst).Nodup := by
  rw [List.map_append]
  refine List.nodup_append.mpr ⟨unique, nodup, ?_⟩
  intro id old other new same
  subst same
  exact absent id new old

/-- No module is in the load order twice. -/
theorem RecordChange.unique {before after : World Ctx} {action : Action Ctx}
    (change : RecordChange before action after)
    (unique : (before.view.order.map Prod.fst).Nodup) :
    (after.view.order.map Prod.fst).Nodup := by
  cases change with
  | steady manager initialising =>
      have order : after.view.order = before.view.order := manager.records.order
      rw [order]
      exact unique
  | promoted _ _ _ order =>
      rw [order]
      exact unique
  | registered id lib flags _ order absent =>
      rw [order]
      refine unique_append unique (List.nodup_singleton id) ?_
      intro other member
      cases List.mem_singleton.mp member
      rwa [← ContextView.committed_iff_order]
  | published flags load added order ids nodup absent =>
      rw [order]
      refine unique_append unique (ids ▸ nodup) ?_
      intro id member
      rw [ids] at member
      rw [← ContextView.committed_iff_order]
      exact absent id member
  | recorded _ _ _ _ _ order =>
      rw [order]
      exact unique
  | rolledBack _ _ _ _ _ order =>
      rw [order]
      exact unique.sublist (List.filter_sublist.map _)
  | released _ _ order =>
      rw [order]
      exact unique.sublist (List.filter_sublist.map _)

/-! ## The balance -/

structure Counted (world : World Ctx) : Prop where
  unique : (world.view.order.map Prod.fst).Nodup
  loads : ∀ opening ∈ world.initialising, opening.2.modules.Nodup
  balance : world.manager.adds + world.uncounted.length =
    world.manager.subs + world.view.order.length

namespace Counted

variable {before after : World Ctx} {action : Action Ctx}

theorem of_same (counted : Counted before) (order : after.view.order = before.view.order)
    (adds : after.manager.adds = before.manager.adds)
    (subs : after.manager.subs = before.manager.subs)
    (initialising : after.initialising = before.initialising) : Counted after := by
  refine ⟨order ▸ counted.unique, initialising ▸ counted.loads, ?_⟩
  rw [adds, subs, order, World.uncounted, initialising]
  exact counted.balance

/-- The modules of a load that is rolled back exactly go, and no others. -/
theorem rolled_order {load : LoadResult} {unloaded : List ModuleId}
    (order : after.view.order = before.view.order.filter fun entry => entry.1 ∉ unloaded)
    (own : ∀ id ∈ unloaded, id ∈ load.modules)
    (gone : ∀ id ∈ load.modules, before.view.Committed id ∧ ¬ after.view.Committed id) :
    after.view.order = before.view.order.filter fun entry => entry.1 ∉ load.modules := by
  rw [order]
  apply List.filter_congr
  intro entry listed
  rw [decide_eq_decide]
  refine not_congr ⟨own entry.1, ?_⟩
  intro member
  by_contra kept
  apply (gone entry.1 member).2
  rw [ContextView.committed_iff_order, order]
  exact List.mem_map_of_mem (List.mem_filter.mpr ⟨listed, decide_eq_true kept⟩)

theorem step (counted : Counted before) (exactly : ExactRollback before action)
    (change : RecordChange before action after) : Counted after := by
  have unique := change.unique counted.unique
  cases change with
  | steady manager initialising =>
      exact counted.of_same manager.records.order manager.adds manager.subs initialising
  | promoted _ _ _ order _ _ _ adds subs initialising =>
      exact counted.of_same order adds subs initialising
  | registered id lib flags _ order absent _ _ adds subs initialising =>
      refine ⟨unique, initialising ▸ counted.loads, ?_⟩
      have balance := counted.balance
      rw [adds, subs, order, World.uncounted, initialising, List.length_append]
      rw [World.uncounted] at balance
      simp only [List.length_singleton]
      omega
  | published flags load added order ids nodup absent _ _ adds subs initialising =>
      refine ⟨unique, ?_, ?_⟩
      · intro opening listed
        rw [initialising] at listed
        rcases List.mem_cons.mp listed with rfl | old
        · exact nodup
        · exact counted.loads opening old
      · have balance := counted.balance
        have lengths := congrArg List.length ids
        rw [List.length_map] at lengths
        rw [adds, subs, order, World.uncounted, initialising, List.flatMap_cons,
          List.length_append, List.length_append, lengths]
        rw [World.uncounted] at balance
        simp only
        omega
  | recorded index flags load _ present order _ _ adds subs initialising =>
      refine ⟨unique, ?_, ?_⟩
      · intro opening listed
        rw [initialising] at listed
        exact counted.loads opening (List.mem_of_mem_eraseIdx listed)
      · have balance := counted.balance
        have moved := (World.uncounted_perm present).length_eq
        rw [List.length_append] at moved
        rw [adds, subs, order, World.uncounted, initialising]
        omega
  | rolledBack index flags load unloaded present order _ _ free exact_ adds subs initialising =>
      have gone := exact_ exactly
      have rolled := rolled_order order (fun id member => (free id member).1) gone
      refine ⟨unique, ?_, ?_⟩
      · intro opening listed
        rw [initialising] at listed
        exact counted.loads opening (List.mem_of_mem_eraseIdx listed)
      · have balance := counted.balance
        have moved := (World.uncounted_perm present).length_eq
        rw [List.length_append] at moved
        have fewer := length_filter_keys counted.unique
          (counted.loads _ (List.mem_of_getElem? present))
          fun id member => ContextView.committed_iff_order.mp (gone id member).1
        rw [adds, subs, rolled, World.uncounted, initialising]
        simp only at fewer
        omega
  | released unloaded nodup order _ _ free adds subs initialising =>
      refine ⟨unique, initialising ▸ counted.loads, ?_⟩
      have balance := counted.balance
      have fewer := length_filter_keys counted.unique nodup
        fun id member => ContextView.committed_iff_order.mp (free id member).1
      rw [adds, subs, order, World.uncounted, initialising]
      rw [World.uncounted] at balance
      omega

end Counted

theorem RecordChange.monotone {before after : World Ctx} {action : Action Ctx}
    (change : RecordChange before action after) :
    before.manager.adds ≤ after.manager.adds ∧ before.manager.subs ≤ after.manager.subs := by
  cases change with
  | steady manager _ => exact ⟨manager.adds.ge, manager.subs.ge⟩
  | promoted _ _ _ _ _ _ _ adds subs _ => exact ⟨adds.ge, subs.ge⟩
  | registered _ _ _ _ _ _ _ _ adds subs _ => exact ⟨adds ▸ Nat.le_add_right _ _, subs.ge⟩
  | published _ _ _ _ _ _ _ _ _ adds subs _ => exact ⟨adds.ge, subs.ge⟩
  | recorded _ _ _ _ _ _ _ _ adds subs _ => exact ⟨adds ▸ Nat.le_add_right _ _, subs.ge⟩
  | rolledBack _ _ _ _ _ _ _ _ _ _ adds subs _ => exact ⟨adds.ge, subs.ge⟩
  | released _ _ _ _ _ _ adds subs _ => exact ⟨adds.ge, subs ▸ Nat.le_add_right _ _⟩

/-- The committed modules that are counted. -/
def World.countedOrder (world : World Ctx) : List (ModuleId × ModuleHandle) :=
  world.view.order.filter fun entry => entry.1 ∉ world.uncounted

theorem countedOrder_same {before after : World Ctx} (order : after.view.order = before.view.order)
    (initialising : after.initialising = before.initialising) :
    after.countedOrder = before.countedOrder := by
  rw [World.countedOrder, World.countedOrder, World.uncounted, World.uncounted, order, initialising]

/-- A step that moves neither counter leaves the counted modules alone. -/
theorem RecordChange.countedOrder {before after : World Ctx} {action : Action Ctx}
    (change : RecordChange before action after) (exactly : ExactRollback before action)
    (adds : after.manager.adds = before.manager.adds)
    (subs : after.manager.subs = before.manager.subs) :
    after.countedOrder = before.countedOrder := by
  cases change with
  | steady manager initialising => exact countedOrder_same manager.records.order initialising
  | promoted _ _ _ order _ _ _ _ _ initialising => exact countedOrder_same order initialising
  | registered _ _ _ _ _ _ _ _ counted _ _ => omega
  | published flags load added order ids nodup absent _ _ _ _ initialising =>
      have grown : after.uncounted = load.modules ++ before.uncounted := by
        rw [World.uncounted, initialising, List.flatMap_cons]
        rfl
      rw [World.countedOrder, World.countedOrder, order, grown, List.filter_append]
      have new : added.filter (fun entry => entry.1 ∉ load.modules ++ before.uncounted) = [] := by
        apply List.filter_eq_nil_iff.mpr
        intro entry listed
        rw [decide_eq_true_eq, not_not, ← ids]
        exact List.mem_append_left _ (List.mem_map_of_mem listed)
      rw [new, List.append_nil]
      apply List.filter_congr
      intro entry listed
      rw [decide_eq_decide, List.mem_append]
      refine not_congr ⟨fun member => member.resolve_left ?_, .inr⟩
      intro own
      exact absent entry.1 own (ContextView.committed_iff_order.mpr (List.mem_map_of_mem listed))
  | recorded index flags load _ present order _ _ counted _ initialising =>
      have none_new : load.modules = [] := List.eq_nil_of_length_eq_zero (by omega)
      have moved := World.uncounted_perm present
      rw [none_new, List.nil_append] at moved
      rw [World.countedOrder, World.countedOrder, order]
      apply List.filter_congr
      intro entry _
      rw [decide_eq_decide, World.uncounted, initialising]
      exact not_congr moved.mem_iff.symm
  | rolledBack index flags load unloaded present order _ _ free exact_ _ _ initialising =>
      have rolled := Counted.rolled_order order (fun id member => (free id member).1)
        (exact_ exactly)
      have moved := World.uncounted_perm present
      rw [World.countedOrder, World.countedOrder, rolled, List.filter_filter]
      apply List.filter_congr
      intro entry _
      rw [← Bool.decide_and, decide_eq_decide, moved.mem_iff, List.mem_append, not_or,
        World.uncounted, initialising, and_comm]
  | released unloaded _ order _ _ _ _ counted initialising =>
      have none_gone : unloaded = [] := List.eq_nil_of_length_eq_zero (by omega)
      refine countedOrder_same ?_ initialising
      rw [order, none_gone]
      simp

section

variable [LawfulElfLoader Ctx]

theorem counted_inductive : (World.system.restrict (@ExactRollback Ctx _)).Inductive Counted where
  initially world initial := by
    subst initial
    have empty : (World.new : World Ctx).view = ContextView.empty := LawfulElfLoader.view_new
    refine ⟨?_, ?_, ?_⟩
    · rw [empty]
      exact List.nodup_nil
    · intro opening impossible
      cases impossible
    · rw [empty]
      rfl
  preserved _ _ _ counted step := counted.step step.1 (.of_act step.2)

theorem counters_monotone {condition : World Ctx → Action Ctx → Prop} {early late : World Ctx}
    {actions : List (Action Ctx)} (run : (World.system.restrict condition).Run early actions late) :
    early.manager.adds ≤ late.manager.adds ∧ early.manager.subs ≤ late.manager.subs := by
  induction run with
  | refl => exact ⟨Nat.le_refl _, Nat.le_refl _⟩
  | snoc _ step ih =>
      obtain ⟨adds, subs⟩ := (RecordChange.of_act step.2).monotone
      exact ⟨ih.1.trans adds, ih.2.trans subs⟩

/-- Along every run in which rollbacks are exact, the counters only grow, and whenever no
open is in progress they differ by the number of committed modules. -/
theorem module_counters_balance (early late : World Ctx) (actions : List (Action Ctx))
    (reached : (World.system.restrict ExactRollback).Reachable early)
    (run : (World.system.restrict ExactRollback).Run early actions late) :
    (late.preparing = [] → late.initialising = [] →
      (late.manager.adds : Int) - late.manager.subs = late.view.modules.length) ∧
    early.manager.adds ≤ late.manager.adds ∧ early.manager.subs ≤ late.manager.subs := by
  refine ⟨?_, counters_monotone run⟩
  intro _ finished
  have counted := run.preserves counted_inductive.preserved (counted_inductive.reachable reached)
  have balance := counted.balance
  rw [World.uncounted, finished, List.flatMap_nil, List.length_nil, ContextView.order,
    List.length_map] at balance
  omega

end

/-- Two libraries with program headers. -/
def pluginLibrary : GraphModule where
  key := "/lib/libplugin.so"
  handle := ⟨⟨1⟩, "/lib/libplugin.so", [(0x20000, 0x24000)], [("entry", 0x20100)],
    some ⟨some "libplugin.so", "libplugin.so", [], 0x20000, some [⟨1, 0, 0x3f00⟩], none,
      some ⟨"/lib/libplugin.so", ⟨0x800, by decide⟩⟩⟩⟩
  flags := OpenFlags.empty
  dependencies := []

def brokenLibrary : GraphModule where
  key := "/lib/libbroken.so"
  handle := ⟨⟨2⟩, "/lib/libbroken.so", [(0x30000, 0x34000)], [],
    some ⟨some "libbroken.so", "libbroken.so", [], 0x30000, some [⟨1, 0, 0x3f00⟩], none,
      some ⟨"/lib/libbroken.so", ⟨0x900, by decide⟩⟩⟩⟩
  flags := OpenFlags.empty
  dependencies := []

abbrev PluginContext : Type :=
  ReferenceContext [("/lib/libplugin.so", pluginLibrary), ("/lib/libbroken.so", brokenLibrary)]

def openFile (path : String) (flags : OpenFlags) : Action PluginContext :=
  .openWith false path flags (.file path) none

/-- A constructor opens another library and fails; both opens of that library are closed
afterwards. -/
def failedOpen : List (Action PluginContext) := [
  openFile "/lib/libplugin.so" .rtldNow, .publish 0, .initialised 0,
  openFile "/lib/libbroken.so" .rtldNow, .publish 0,
  openFile "/lib/libplugin.so" .rtldNow, .initialiseFailed 0,
  .dropOpened 0, .dropOpened 0]

theorem module_counters_balance_failed :
    ∃ world : World PluginContext,
      (World.system.restrict ExactRollback).Run .new failedOpen world ∧
      world.manager.adds = 1 ∧ world.manager.subs = 1 ∧
      (world.manager.adds : Int) - world.manager.subs = world.view.modules.length := by
  have evaluated : (TransitionSystem.runLabels (World.actWhen ExactRollback) .new failedOpen).map
      (fun world : World PluginContext => decide (world.manager.adds = 1 ∧
        world.manager.subs = 1 ∧ world.preparing.length = 0 ∧ world.initialising.length = 0)) =
      some true := by
    decide +kernel
  obtain ⟨world, ran, facts⟩ := Option.map_eq_some_iff.mp evaluated
  obtain ⟨adds, subs, preparing, initialising⟩ := of_decide_eq_true facts
  have run := World.run_of_actWhen ran
  have balance := module_counters_balance .new world failedOpen (.start rfl) run
  exact ⟨world, run, adds, subs, balance.1 (List.eq_nil_of_length_eq_zero preparing)
    (List.eq_nil_of_length_eq_zero initialising)⟩

section

variable [LawfulElfLoader Ctx]

theorem countedOrder_run {condition : World Ctx → Action Ctx → Prop} {early late : World Ctx}
    {actions : List (Action Ctx)}
    (exactly : ∀ world action, condition world action → ExactRollback world action)
    (run : (World.system.restrict condition).Run early actions late)
    (adds : late.manager.adds = early.manager.adds)
    (subs : late.manager.subs = early.manager.subs) :
    late.countedOrder = early.countedOrder := by
  induction run with
  | refl => rfl
  | snoc before step ih =>
      have change := RecordChange.of_act step.2
      obtain ⟨lower, lowerSubs⟩ := counters_monotone before
      obtain ⟨upper, upperSubs⟩ := change.monotone
      -- the counters in between are squeezed between equal ones
      have last := change.countedOrder (exactly _ _ step.1) (by omega) (by omega)
      exact last.trans (ih (by omega) (by omega))

end

end DynLinker.Registry
