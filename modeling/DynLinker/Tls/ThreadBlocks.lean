import DynLinker.Tls.StaticTables
import DynLinker.Tls.ThreadVectors
import DynLinker.Tls.WorldProperties

/-! Where the blocks of a thread lie: below its thread pointer, or in memory of their own
that the thread's vector points to; and when these places are in order. -/

set_option autoImplicit false

namespace DynLinker.Tls

open Lib

/-! ## Blocks -/

/-- The segment of a module and, for a static one, its distance from thread pointers. -/
def TlsModule.placement : TlsModule → TlsInfo × Option Int
  | .dynamic info _ => (info, none)
  | .static info offset => (info, some offset)

namespace Runtime

def placement (runtime : Runtime) (id : Nat) : Option (TlsInfo × Option Int) :=
  (runtime.tlsModule id).map TlsModule.placement

/-- A thread's block of a registered module, once it has one. -/
def block (runtime : Runtime) (tp id : Nat) : Option Region :=
  match runtime.placement id with
  | none => none
  | some (info, some offset) => some ⟨offsetPtr tp offset, info.memsz⟩
  | some (info, none) => (runtime.dtvValue tp id).map fun base => ⟨base, info.memsz⟩

variable {runtime next : Runtime} {tp id : Nat}

theorem placement_eq_some_iff {info : TlsInfo} {offset : Option Int} :
    runtime.placement id = some (info, offset) ↔
      (∃ source, offset = none ∧ runtime.tlsModule id = some (.dynamic info source)) ∨
      ∃ place, offset = some place ∧ runtime.tlsModule id = some (.static info place) := by
  rw [placement, Option.map_eq_some_iff]
  constructor
  · rintro ⟨module, slot, same⟩
    cases module with
    | dynamic segment source =>
        cases same
        exact .inl ⟨source, rfl, slot⟩
    | static segment place =>
        cases same
        exact .inr ⟨place, rfl, slot⟩
  · rintro (⟨source, rfl, slot⟩ | ⟨place, rfl, slot⟩)
    · exact ⟨_, slot, rfl⟩
    · exact ⟨_, slot, rfl⟩

theorem placement_bounded {place : TlsInfo × Option Int}
    (found : runtime.placement id = some place) : id ≤ runtime.modules.length := by
  obtain ⟨module, slot, _⟩ := Option.map_eq_some_iff.mp found
  have bounded := (bounded_of_tlsModule slot).2
  omega

theorem block_congr (places : next.placement id = runtime.placement id)
    (vector : next.dtvValue tp id = runtime.dtvValue tp id) :
    next.block tp id = runtime.block tp id := by
  rw [block, block, places, vector]

theorem block_static {info : TlsInfo} {offset : Int}
    (place : runtime.placement id = some (info, some offset)) :
    runtime.block tp id = some ⟨offsetPtr tp offset, info.memsz⟩ := by
  rw [block, place]

theorem block_dynamic {info : TlsInfo} (place : runtime.placement id = some (info, none)) :
    runtime.block tp id = (runtime.dtvValue tp id).map fun base => ⟨base, info.memsz⟩ := by
  rw [block, place]

/-- Modules may come and go; the ones that stay keep their segment and their place. -/
structure SlotsKeep (runtime next : Runtime) : Prop where
  grows : runtime.modules.length ≤ next.modules.length
  kept : ∀ id, id ≤ runtime.modules.length → ∀ place, next.placement id = some place →
    runtime.placement id = some place

theorem placement_same (same : next.modules = runtime.modules) (id : Nat) :
    next.placement id = runtime.placement id := by
  rw [placement, tlsModule, same]
  rfl

theorem SlotsKeep.of_modules (same : next.modules = runtime.modules) :
    SlotsKeep runtime next := by
  refine ⟨(congrArg List.length same).ge, ?_⟩
  intro id _ place found
  rw [placement_same same] at found
  exact found

theorem placement_append {module : TlsModule} {other : Nat}
    (appended : next.modules = runtime.modules ++ [some module])
    (old : other ≤ runtime.modules.length) : next.placement other = runtime.placement other := by
  rw [placement, tlsModule, appended, slotAt_append, if_neg (by omega)]
  rfl

theorem placement_set_ne {index other : Nat} {slot : Option TlsModule} (positive : index ≠ 0)
    (replaced : next.modules = runtime.modules.set (index - 1) slot) (different : other ≠ index) :
    next.placement other = runtime.placement other := by
  rw [placement, tlsModule, replaced, slotAt_set_ne _ _ positive different]
  rfl

/-- A module is replaced by one with the same place. -/
theorem placement_set {index other : Nat} {module old : TlsModule}
    (slot : runtime.tlsModule index = some old) (same : module.placement = old.placement)
    (replaced : next.modules = runtime.modules.set (index - 1) (some module)) :
    next.placement other = runtime.placement other := by
  obtain ⟨positive, bounded⟩ := bounded_of_tlsModule slot
  by_cases this : other = index
  · subst this
    rw [placement, tlsModule, replaced, slotAt_set_self _ _ positive, if_pos bounded,
      placement, slot, Option.map_some, Option.map_some, same]
  · exact placement_set_ne positive replaced this

end Runtime

/-! ## The invariant -/

/-- The storage of a thread reaches as far as the static modules do, and the vector leads
to their blocks and to the thread's own dynamic blocks, one for each module. -/
structure ThreadValid (world : World) (tp : Nat) : Prop where
  stored : ∃ storage ∈ world.storages, storage.tp = tp ∧
    world.runtime.staticUsedInfo.1 ≤ storage.tp - storage.base
  known : ∀ id value, world.runtime.dtvValue tp id = some value →
    id ≤ world.runtime.modules.length
  static : ∀ id info offset value, world.runtime.placement id = some (info, some offset) →
    world.runtime.dtvValue tp id = some value → value = offsetPtr tp offset
  dynamic : ∀ id info value, world.runtime.placement id = some (info, none) →
    world.runtime.dtvValue tp id = some value → ∃ block ∈ world.runtime.dynamicBlocks,
      block.tp = tp ∧ block.ptr = value ∧ max info.memsz 1 ≤ pageRoundedSize block.layout
  distinct : ∀ id other info otherInfo value,
    world.runtime.placement id = some (info, none) →
    world.runtime.placement other = some (otherInfo, none) →
    world.runtime.dtvValue tp id = some value → world.runtime.dtvValue tp other = some value →
    id = other

structure Isolated (world : World) : Prop where
  tables : TablesValid world.runtime
  listed : ∀ module ∈ world.runtime.staticModules,
    world.runtime.placement module.id = some (module.info, some module.offset)
  based : ∀ storage ∈ world.storages, 0 < storage.base ∧ storage.base ≤ storage.tp
  mapped : world.regions.Pairwise Region.Apart
  threads : ∀ tp ∈ world.live, ThreadValid world tp

theorem ThreadValid.keep {world next : World} {tp : Nat} (valid : ThreadValid world tp)
    (slots : world.runtime.SlotsKeep next.runtime)
    (same : next.runtime.tcbs tp = world.runtime.tcbs tp)
    (blocks : ∀ block ∈ world.runtime.dynamicBlocks, block.tp = tp →
      block ∈ next.runtime.dynamicBlocks)
    (stored : ∀ storage ∈ world.storages, storage.tp = tp →
      world.runtime.staticUsedInfo.1 ≤ storage.tp - storage.base →
      storage ∈ next.storages ∧ next.runtime.staticUsedInfo.1 ≤ storage.tp - storage.base) :
    ThreadValid next tp := by
  have vector : ∀ id, next.runtime.dtvValue tp id = world.runtime.dtvValue tp id :=
    Runtime.dtvValue_congr same
  refine ⟨?_, ?_, ?_, ?_, ?_⟩
  · obtain ⟨storage, listed, own, reach⟩ := valid.stored
    obtain ⟨stays, room⟩ := stored storage listed own reach
    exact ⟨storage, stays, own, room⟩
  · intro id value found
    rw [vector] at found
    exact (valid.known id value found).trans slots.grows
  · intro id info offset value place found
    rw [vector] at found
    exact valid.static id info offset value
      (slots.kept id (valid.known id value found) _ place) found
  · intro id info value place found
    rw [vector] at found
    obtain ⟨block, listed, own, rest⟩ := valid.dynamic id info value
      (slots.kept id (valid.known id value found) _ place) found
    exact ⟨block, blocks block listed own, own, rest⟩
  · intro id other info otherInfo value place otherPlace found otherFound
    rw [vector] at found otherFound
    exact valid.distinct id other info otherInfo value
      (slots.kept id (valid.known id value found) _ place)
      (slots.kept other (valid.known other value otherFound) _ otherPlace) found otherFound

instance : Std.Symm Region.Apart where
  symm _ _ apart := Region.Apart.symm apart

theorem regions_congr {world next : World} (storages : next.storages = world.storages)
    (blocks : next.runtime.dynamicBlocks = world.runtime.dynamicBlocks)
    (leaked : next.runtime.leaked = world.runtime.leaked) : next.regions = world.regions := by
  rw [World.regions, World.regions, storages, blocks, leaked]

theorem mapped_grow {world next : World} {region : Region}
    (mapped : world.regions.Pairwise Region.Apart)
    (added : next.regions.Perm (region :: world.regions))
    (fresh : ∀ used ∈ world.regions, region.Apart used) :
    next.regions.Pairwise Region.Apart := by
  apply (added.pairwise_iff fun apart => Std.Symm.symm _ _ apart).mpr
  exact List.pairwise_cons.mpr ⟨fresh, mapped⟩

theorem mapped_shrink {world next : World} {kept : List Region}
    (mapped : world.regions.Pairwise Region.Apart) (reordered : next.regions.Perm kept)
    (sublist : kept.Sublist world.regions) : next.regions.Pairwise Region.Apart := by
  apply (reordered.pairwise_iff fun apart => Std.Symm.symm _ _ apart).mpr
  exact mapped.sublist sublist

namespace Isolated

variable {world next : World}

theorem storages_apart (isolated : Isolated world) {left right : Storage}
    (leftListed : left ∈ world.storages) (rightListed : right ∈ world.storages)
    (different : left ≠ right) : left.region.Apart right.region := by
  have whole := (List.pairwise_append.mp (List.pairwise_append.mp isolated.mapped).1).1
  have symmetric : Std.Symm fun left right : Storage => left.region.Apart right.region :=
    ⟨fun _ _ apart => apart.symm⟩
  exact (List.pairwise_map.mp whole).forall leftListed rightListed different

theorem blocks_apart (isolated : Isolated world) {left right : DynamicTlsBlock}
    (leftListed : left ∈ world.runtime.dynamicBlocks)
    (rightListed : right ∈ world.runtime.dynamicBlocks) (different : left ≠ right) :
    Region.Apart ⟨left.ptr, pageRoundedSize left.layout⟩
      ⟨right.ptr, pageRoundedSize right.layout⟩ := by
  have whole := (List.pairwise_append.mp (List.pairwise_append.mp isolated.mapped).1).2.1
  have symmetric : Std.Symm fun left right : DynamicTlsBlock =>
      Region.Apart ⟨left.ptr, pageRoundedSize left.layout⟩
        ⟨right.ptr, pageRoundedSize right.layout⟩ := ⟨fun _ _ apart => apart.symm⟩
  exact (List.pairwise_map.mp whole).forall leftListed rightListed different

theorem storage_block_apart (isolated : Isolated world) {storage : Storage}
    {block : DynamicTlsBlock} (storageListed : storage ∈ world.storages)
    (blockListed : block ∈ world.runtime.dynamicBlocks) :
    storage.region.Apart ⟨block.ptr, pageRoundedSize block.layout⟩ := by
  have whole := (List.pairwise_append.mp (List.pairwise_append.mp isolated.mapped).1).2.2
  exact whole _ (List.mem_map_of_mem storageListed) _ (List.mem_map.mpr ⟨block, blockListed, rfl⟩)

theorem nonnull (isolated : Isolated world) {tp : Nat} (stored : world.HasStorage tp) :
    tp ≠ 0 := by
  obtain ⟨storage, listed, rfl⟩ := stored
  have := isolated.based storage listed
  omega

theorem hasStorage (isolated : Isolated world) {tp : Nat} (member : tp ∈ world.live) :
    world.HasStorage tp := by
  obtain ⟨storage, listed, own, _⟩ := (isolated.threads tp member).stored
  exact ⟨storage, listed, own⟩

theorem storage_unique (isolated : Isolated world) {left right : Storage}
    (leftListed : left ∈ world.storages) (rightListed : right ∈ world.storages)
    (same : left.tp = right.tp) : left = right := by
  by_contra different
  have apart := isolated.storages_apart leftListed rightListed different
  have leftBased := isolated.based left leftListed
  have rightBased := isolated.based right rightListed
  simp only [Region.Apart, Storage.region, tlsTcbSize] at apart
  omega

/-- No live thread's pointer lies in fresh memory. -/
theorem live_outside (isolated : Isolated world) {tp ptr size : Nat}
    (fresh : ∀ used ∈ world.regions, Region.Apart ⟨ptr, size⟩ used) (member : tp ∈ world.live) :
    ¬ (ptr ≤ tp ∧ tp < ptr + size) := by
  obtain ⟨storage, listed, rfl⟩ := isolated.hasStorage member
  have based := isolated.based storage listed
  have apart := fresh storage.region
    (List.mem_append_left _ (List.mem_append_left _ (List.mem_map_of_mem listed)))
  simp only [Region.Apart, Storage.region, tlsTcbSize] at apart
  omega

theorem fresh_inside {ptr size inner : Nat}
    (fresh : ∀ used ∈ world.regions, Region.Apart ⟨ptr, size⟩ used) (covered : inner ≤ size) :
    ∀ used ∈ world.regions, Region.Apart ⟨ptr, inner⟩ used := by
  intro used listed
  refine ((fresh used listed).symm.inside ?_).symm
  exact ⟨Nat.le_refl _, Nat.add_le_add_left covered _⟩

theorem allocZeroed_live (isolated : Isolated world) {tp ptr size : Nat} {layout : Layout}
    (fresh : ∀ used ∈ world.regions, Region.Apart ⟨ptr, size⟩ used)
    (covered : layout.size ≤ size) (member : tp ∈ world.live) :
    (world.runtime.allocZeroed layout ptr).tcbs tp = world.runtime.tcbs tp :=
  Runtime.allocZeroed_tcbs (isolated.live_outside (fresh_inside fresh covered) member)

/-- The initial thread's area is made away from every live thread. -/
theorem area_live (isolated : Isolated world) {tp base : Nat}
    (fresh : ∀ used ∈ world.regions, Region.Apart ⟨base, pageRoundedSize Runtime.arenaLayout⟩ used)
    (member : tp ∈ world.live) :
    ((world.runtime.allocZeroed Runtime.arenaLayout base).initTcb
      (base + staticTlsArenaSize)).tcbs tp = world.runtime.tcbs tp := by
  have away := isolated.live_outside (fresh_inside fresh Runtime.arenaLayout_covered) member
  have different : tp ≠ base + staticTlsArenaSize := by
    rintro rfl
    exact away ⟨Nat.le_add_right _ _, Nat.add_lt_add_left (by decide) _⟩
  exact (Function.update_of_ne different _ _).trans (Runtime.allocZeroed_tcbs away)

end Isolated

end DynLinker.Tls
