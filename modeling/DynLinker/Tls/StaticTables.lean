import DynLinker.Tls.RuntimeProperties
import Mathlib.Data.List.Pairwise

/-! The tables of static modules: where the modules lie below a thread pointer, and
that every call keeps the tables in step with each other. -/

set_option autoImplicit false

namespace DynLinker.Tls

open Lib

/-- The modules lie below the thread pointer, each below the ones before it. -/
structure Placed (used : Nat) (modules : List StaticTlsModule) : Prop where
  below : ∀ module ∈ modules, ∃ finish : Nat, module.offset = -(finish : Int) ∧
    module.info.memsz ≤ finish ∧ finish ≤ used
  ordered : modules.Pairwise fun early late =>
    late.offset + (late.info.memsz : Int) ≤ early.offset

/-- The initial thread's area holds its modules and the rseq area. -/
structure AreaValid (area : StaticTlsArea) (modules : List StaticTlsModule) : Prop where
  high : staticTlsArenaSize < area.tp
  fits : ∃ total, staticUsedWithRseq area.used = some total ∧ total ≤ staticTlsArenaSize
  placed : Placed area.used modules

structure TablesValid (runtime : Runtime) : Prop where
  ids : (runtime.staticModules.map (·.id)).Nodup
  known : ∀ module ∈ runtime.staticModules, module.id ≤ runtime.modules.length
  slots : ∀ id info offset, runtime.tlsModule id = some (.static info offset) →
    ∃ module ∈ runtime.staticModules, module.id = id ∧ module.info = info ∧ module.offset = offset
  absent : runtime.staticTls = none → runtime.staticModules = []
  area : ∀ area, runtime.staticTls = some area → AreaValid area runtime.staticModules

/-! ## Places -/

theorem Placed.nil (used : Nat) : Placed used [] where
  below _ impossible := by cases impossible
  ordered := .nil

theorem Placed.filter {used : Nat} {modules : List StaticTlsModule} (placed : Placed used modules)
    (keep : StaticTlsModule → Bool) : Placed used (modules.filter keep) where
  below module listed := placed.below module (List.mem_filter.mp listed).1
  ordered := placed.ordered.filter keep

theorem Placed.append {used finish id : Nat} {modules : List StaticTlsModule} {info : TlsInfo}
    (placed : Placed used modules) (beyond : used + info.memsz ≤ finish) :
    Placed finish (modules ++ [⟨id, info, none, -(finish : Int)⟩]) where
  below module listed := by
    rcases List.mem_append.mp listed with old | new
    · obtain ⟨other, offset, size, bounded⟩ := placed.below module old
      exact ⟨other, offset, size, by omega⟩
    · cases List.mem_singleton.mp new
      exact ⟨finish, rfl, Nat.le_trans (Nat.le_add_left _ _) beyond, Nat.le_refl _⟩
  ordered := by
    refine List.pairwise_append.mpr ⟨placed.ordered, List.pairwise_singleton _ _, ?_⟩
    intro module old other new
    cases List.mem_singleton.mp new
    obtain ⟨finished, offset, size, bounded⟩ := placed.below module old
    simp only
    omega

theorem Placed.region_apart {used tp : Nat} {modules : List StaticTlsModule}
    (placed : Placed used modules) (reach : used ≤ tp) :
    modules.Pairwise fun left right => (left.region tp).Apart (right.region tp) := by
  refine placed.ordered.imp_of_mem ?_
  intro early late earlyListed lateListed below
  obtain ⟨earlyEnd, earlyOffset, _, earlyBound⟩ := placed.below early earlyListed
  obtain ⟨lateEnd, lateOffset, _, lateBound⟩ := placed.below late lateListed
  right
  simp only [StaticTlsModule.region, offsetPtr]
  omega

theorem Placed.distinct_apart {used tp : Nat} {modules : List StaticTlsModule}
    (placed : Placed used modules) (reach : used ≤ tp) {left right : StaticTlsModule}
    (leftListed : left ∈ modules) (rightListed : right ∈ modules) (different : left ≠ right) :
    (left.region tp).Apart (right.region tp) := by
  have symmetric : Std.Symm fun left right : StaticTlsModule =>
      (left.region tp).Apart (right.region tp) := ⟨fun _ _ apart => apart.symm⟩
  exact (placed.region_apart reach).forall leftListed rightListed different

theorem Placed.above_rseq {used tp total : Nat} {modules : List StaticTlsModule}
    (placed : Placed used modules) (computed : staticUsedWithRseq used = some total)
    (reach : total ≤ tp) {module : StaticTlsModule} (listed : module ∈ modules) :
    (module.region tp).Apart ⟨tp - total, rseqAreaSize⟩ := by
  obtain ⟨finish, offset, _, bounded⟩ := placed.below module listed
  have room := staticUsedWithRseq_spec computed
  right
  simp only [StaticTlsModule.region, offsetPtr]
  omega

/-! ## Tables -/

/-- The distance that the static layout needs below a thread pointer. -/
theorem TablesValid.layout {runtime : Runtime} (valid : TablesValid runtime) :
    Placed runtime.staticUsedInfo.1 runtime.staticModules ∧
      ∃ total, staticUsedWithRseq runtime.staticUsedInfo.1 = some total := by
  rw [Runtime.staticUsedInfo]
  cases present : runtime.staticTls with
  | none =>
      rw [valid.absent present]
      exact ⟨.nil _, rseqAreaSize, staticUsedWithRseq_zero⟩
  | some area =>
      obtain ⟨_, ⟨total, computed, _⟩, placed⟩ := valid.area area present
      exact ⟨placed, total, computed⟩

theorem TablesValid.same {runtime next : Runtime} (valid : TablesValid runtime)
    (same : runtime.SameTables next) : TablesValid next := by
  obtain ⟨staticTls, staticModules, modules, _⟩ := same
  have slot : ∀ id, next.tlsModule id = runtime.tlsModule id := by
    intro id
    rw [Runtime.tlsModule, Runtime.tlsModule, modules]
  refine ⟨?_, ?_, ?_, ?_, ?_⟩
  · rw [staticModules]
    exact valid.ids
  · rw [staticModules, modules]
    exact valid.known
  · intro id info offset found
    rw [slot] at found
    rw [staticModules]
    exact valid.slots id info offset found
  · rw [staticTls, staticModules]
    exact valid.absent
  · rw [staticTls, staticModules]
    exact valid.area

namespace TablesValid

variable {runtime : Runtime}

theorem new : TablesValid .new where
  ids := List.nodup_nil
  known _ impossible := by cases impossible
  slots id info offset found := by
    rw [Runtime.tlsModule, Runtime.new, slotAt] at found
    split at found
    · cases found
    · cases found
  absent _ := rfl
  area _ impossible := by cases impossible

theorem congr {next : Runtime} (valid : TablesValid runtime)
    (staticTls : next.staticTls = runtime.staticTls)
    (staticModules : next.staticModules = runtime.staticModules)
    (modules : next.modules = runtime.modules) : TablesValid next := by
  have before : TablesValid { runtime with allocations := next.allocations } :=
    ⟨valid.ids, valid.known, valid.slots, valid.absent, valid.area⟩
  exact before.same ⟨staticTls, staticModules, modules, rfl⟩

theorem registerDynamic (valid : TablesValid runtime) (info : TlsInfo)
    (source : Option TlsImageSource) :
    TablesValid { runtime with modules := runtime.modules ++ [some (.dynamic info source)] } where
  ids := valid.ids
  known module listed := by
    rw [List.length_append]
    exact Nat.le_add_right_of_le (valid.known module listed)
  slots id other offset found := by
    rw [Runtime.tlsModule, Runtime.slotAt_append] at found
    split at found
    · cases found
    · exact valid.slots id other offset found
  absent := valid.absent
  area := valid.area

theorem replaceDynamic (valid : TablesValid runtime) {id : Nat} {info : TlsInfo}
    {old : Option TlsImageSource} (source : Option TlsImageSource)
    (slot : runtime.tlsModule id = some (.dynamic info old)) :
    TablesValid { runtime with
      modules := runtime.modules.set (id - 1) (some (.dynamic info source)) } := by
  obtain ⟨positive, bounded⟩ := Runtime.bounded_of_tlsModule slot
  refine ⟨valid.ids, ?_, ?_, valid.absent, valid.area⟩
  · rw [List.length_set]
    exact valid.known
  · intro other found offset registered
    rw [Runtime.tlsModule] at registered
    by_cases same : other = id
    · rw [same, Runtime.slotAt_set_self _ _ positive, if_pos bounded] at registered
      cases registered
    · rw [Runtime.slotAt_set_ne _ _ positive same] at registered
      exact valid.slots other found offset registered

theorem unregister (valid : TablesValid runtime) (id : Nat) :
    TablesValid (runtime.unregisterModule id) := by
  rw [Runtime.unregisterModule]
  split
  · exact valid
  · next positive =>
      refine ⟨?_, ?_, ?_, ?_, ?_⟩
      · exact valid.ids.sublist (List.filter_sublist.map _)
      · intro module listed
        rw [List.length_set]
        exact valid.known module (List.mem_filter.mp listed).1
      · intro other info offset registered
        rw [Runtime.tlsModule] at registered
        by_cases same : other = id
        · rw [same, Runtime.slotAt_set_self _ _ positive, ite_self] at registered
          cases registered
        · rw [Runtime.slotAt_set_ne _ _ positive same] at registered
          obtain ⟨module, listed, sameId, rest⟩ := valid.slots other info offset registered
          refine ⟨module, List.mem_filter.mpr ⟨listed, ?_⟩, sameId, rest⟩
          rw [sameId]
          exact decide_eq_true same
      · intro absent
        simp only [valid.absent absent, List.filter_nil]
      · intro area present
        obtain ⟨high, fits, placed⟩ := valid.area area present
        exact ⟨high, fits, placed.filter _⟩

theorem registerStatic (valid : TablesValid runtime) {area : StaticTlsArea} {info : TlsInfo}
    {finish align : Nat} (present : runtime.staticTls = some area)
    (placing : Runtime.placeStatic area.used info = some (finish, align)) :
    TablesValid (runtime.withStatic area info finish align) := by
  obtain ⟨beyond, fits⟩ := Runtime.placeStatic_spec placing
  obtain ⟨high, _, placed⟩ := valid.area area present
  refine ⟨?_, ?_, ?_, ?_, ?_⟩
  · simp only [Runtime.withStatic, List.map_append, List.map_singleton]
    refine List.nodup_append.mpr ⟨valid.ids, List.nodup_singleton _, ?_⟩
    intro id old other new
    obtain ⟨module, listed, rfl⟩ := List.mem_map.mp old
    have bounded := valid.known module listed
    rw [List.mem_singleton.mp new]
    omega
  · intro module listed
    simp only [Runtime.withStatic, List.length_append, List.length_singleton]
    rcases List.mem_append.mp listed with old | new
    · exact Nat.le_succ_of_le (valid.known module old)
    · cases List.mem_singleton.mp new
      exact Nat.le_refl _
  · intro id found offset registered
    rw [Runtime.tlsModule, Runtime.withStatic, Runtime.slotAt_append] at registered
    split at registered
    · next new =>
        cases registered
        exact ⟨_, List.mem_append_right _ (List.mem_singleton.mpr rfl), new.symm, rfl, rfl⟩
    · obtain ⟨module, listed, rest⟩ := valid.slots id found offset registered
      exact ⟨module, List.mem_append_left _ listed, rest⟩
  · intro impossible
    cases impossible
  · intro found same
    cases same
    exact ⟨high, fits, placed.append beyond⟩

/-- Publishing a source changes neither ids nor places. -/
theorem publishedModules_shape {modules : List StaticTlsModule} {id : Nat}
    {source : TlsImageSource} {module : StaticTlsModule}
    (listed : module ∈ Runtime.publishedModules modules id source) :
    ∃ old ∈ modules, module.id = old.id ∧ module.info = old.info ∧ module.offset = old.offset ∧
      (module.id ≠ id → module = old) ∧ (module.id = id → module.source = some source) := by
  obtain ⟨old, member, rfl⟩ := List.mem_map.mp listed
  by_cases same : old.id = id
  · refine ⟨old, member, ?_⟩
    simp [same]
  · refine ⟨old, member, ?_⟩
    simp [same]

theorem publishedModules_placed {used id : Nat} {modules : List StaticTlsModule}
    {source : TlsImageSource} (placed : Placed used modules) :
    Placed used (Runtime.publishedModules modules id source) where
  below module listed := by
    obtain ⟨old, member, _, info, offset, _⟩ := publishedModules_shape listed
    rw [info, offset]
    exact placed.below old member
  ordered := by
    refine List.pairwise_map.mpr (placed.ordered.imp ?_)
    intro early late below
    split <;> split <;> exact below

theorem publish (valid : TablesValid runtime) {module : StaticTlsModule}
    (source : TlsImageSource)
    (slot : runtime.tlsModule module.id = some (.static module.info module.offset)) :
    TablesValid (runtime.withSource module source) := by
  obtain ⟨positive, bounded⟩ := Runtime.bounded_of_tlsModule slot
  have ids : (Runtime.publishedModules runtime.staticModules module.id source).map (·.id) =
      runtime.staticModules.map (·.id) := by
    rw [Runtime.publishedModules, List.map_map]
    apply List.map_congr_left
    intro other _
    simp only [Function.comp]
    split <;> rfl
  have kept : ∀ old ∈ runtime.staticModules,
      ∃ new ∈ (runtime.withSource module source).staticModules,
        new.id = old.id ∧ new.info = old.info ∧ new.offset = old.offset := by
    intro old member
    refine ⟨_, List.mem_map.mpr ⟨old, member, rfl⟩, ?_⟩
    split <;> exact ⟨rfl, rfl, rfl⟩
  refine ⟨?_, ?_, ?_, ?_, ?_⟩
  · exact ids ▸ valid.ids
  · intro new member
    obtain ⟨old, oldMember, sameId, _⟩ := publishedModules_shape member
    rw [sameId, Runtime.withSource, List.length_set]
    exact valid.known old oldMember
  · intro id info offset registered
    have before : runtime.tlsModule id = some (.static info offset) := by
      rw [Runtime.tlsModule, Runtime.withSource] at registered
      by_cases same : id = module.id
      · rw [same, Runtime.slotAt_set_self _ _ positive, if_pos bounded] at registered
        rw [same, slot]
        exact registered
      · rw [Runtime.slotAt_set_ne _ _ positive same] at registered
        exact registered
    obtain ⟨old, member, rfl, rfl, rfl⟩ := valid.slots id info offset before
    exact kept old member
  · intro absent
    simp only [Runtime.withSource, valid.absent absent]
    rfl
  · intro area present
    obtain ⟨high, fits, placed⟩ := valid.area area present
    exact ⟨high, fits, publishedModules_placed placed⟩

theorem withArea (valid : TablesValid runtime)
    (absent : runtime.staticTls = none) {base : Nat} (positive : base ≠ 0) :
    TablesValid (runtime.withArea base) := by
  refine ⟨valid.ids, valid.known, valid.slots, ?_, ?_⟩
  · intro impossible
    cases impossible
  · intro area present
    cases present
    rw [show (runtime.withArea base).staticModules = [] from valid.absent absent]
    refine ⟨?_, ⟨rseqAreaSize, staticUsedWithRseq_zero, by decide⟩, .nil _⟩
    simp only
    omega

end TablesValid

end DynLinker.Tls
