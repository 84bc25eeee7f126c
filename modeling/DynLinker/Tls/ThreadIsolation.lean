import DynLinker.Tls.ThreadBlocks

/-! Every call keeps the places of the blocks in order, as long as the storages of the
threads have room for the static layout. -/

set_option autoImplicit false

namespace DynLinker.Tls

open Lib

namespace Isolated

variable {world next : World}

/-- The tables change; memory, storages and threads do not. -/
theorem retable (isolated : Isolated world) (tables : TablesValid next.runtime)
    (listed : ∀ module ∈ next.runtime.staticModules,
      next.runtime.placement module.id = some (module.info, some module.offset))
    (slots : world.runtime.SlotsKeep next.runtime) (regions : next.regions = world.regions)
    (storages : next.storages = world.storages) (live : next.live = world.live)
    (tcbs : next.runtime.tcbs = world.runtime.tcbs)
    (blocks : next.runtime.dynamicBlocks = world.runtime.dynamicBlocks)
    (room : ∀ storage ∈ world.storages, storage.tp ∈ world.live →
      world.runtime.staticUsedInfo.1 ≤ storage.tp - storage.base →
      next.runtime.staticUsedInfo.1 ≤ storage.tp - storage.base) : Isolated next := by
  refine ⟨tables, listed, storages ▸ isolated.based, regions ▸ isolated.mapped, ?_⟩
  intro tp member
  rw [live] at member
  refine (isolated.threads tp member).keep slots (congrFun tcbs tp) ?_ ?_
  · intro block present _
    rw [blocks]
    exact present
  · rintro storage present rfl reach
    rw [storages]
    exact ⟨present, room storage present member reach⟩

theorem registerDynamic (isolated : Isolated world) (info : TlsInfo) :
    Isolated (world.registerWith (world.runtime.registerDynamicModule info)) := by
  cases registering : world.runtime.registerDynamicModule info with
  | error error => exact isolated
  | ok pair =>
      obtain ⟨id, next⟩ := pair
      obtain ⟨_, rfl⟩ := Runtime.registerModule_spec registering
      refine isolated.retable (isolated.tables.registerDynamic info none) ?_ ?_ rfl rfl rfl rfl rfl
        fun _ _ _ reach => reach
      · intro module present
        exact (Runtime.placement_append rfl (isolated.tables.known module present)).trans
          (isolated.listed module present)
      · refine ⟨?_, ?_⟩
        · change world.runtime.modules.length ≤ (world.runtime.modules ++ [_]).length
          rw [List.length_append]
          exact Nat.le_add_right _ _
        · intro other bounded place found
          exact (Runtime.placement_append rfl bounded).symm.trans found

theorem unregister (isolated : Isolated world) (id : Nat) :
    Isolated { world with runtime := world.runtime.unregisterModule id } := by
  by_cases positive : id = 0
  · rw [Runtime.unregisterModule, if_pos positive]
    exact isolated
  · have tables := isolated.tables.unregister id
    rw [Runtime.unregisterModule, if_neg positive] at tables ⊢
    refine isolated.retable tables ?_ ?_ rfl rfl rfl rfl rfl fun _ _ _ reach => reach
    · intro module present
      obtain ⟨before, different⟩ := List.mem_filter.mp present
      exact (Runtime.placement_set_ne positive rfl (of_decide_eq_true different)).trans
        (isolated.listed module before)
    · refine ⟨(List.length_set).ge, ?_⟩
      intro other _ place found
      by_cases same : other = id
      · rw [Runtime.placement, Runtime.tlsModule, same, Runtime.slotAt_set_self _ _ positive,
          ite_self] at found
        cases found
      · exact (Runtime.placement_set_ne positive rfl same).symm.trans found

theorem registerIn (isolated : Isolated world) {area : StaticTlsArea}
    (present : world.runtime.staticTls = some area) (info : TlsInfo)
    (room : ∀ placed ∈ Runtime.placeStatic area.used info, ∀ storage ∈ world.storages,
      storage.tp ∈ world.live → placed.1 ≤ storage.tp - storage.base) :
    Isolated (world.registerIn area info) := by
  rw [World.registerIn]
  rcases Runtime.registerStaticIn_cases world.runtime area info with
    ⟨error, failed⟩ | ⟨finish, align, placing, succeeded⟩
  · rw [failed]
    exact isolated
  · rw [succeeded]
    have storages : World.storages { world with
        runtime := world.runtime.withStatic area info finish align } = world.storages := by
      simp only [World.storages, World.arena, present, Runtime.withStatic]
    refine isolated.retable (isolated.tables.registerStatic present placing) ?_ ?_ ?_ storages rfl
      rfl rfl fun storage listed member _ => room _ placing storage listed member
    · intro module listed
      rcases List.mem_append.mp listed with old | new
      · exact (Runtime.placement_append rfl (isolated.tables.known module old)).trans
          (isolated.listed module old)
      · cases List.mem_singleton.mp new
        refine Runtime.placement_eq_some_iff.mpr (.inr ⟨_, rfl, ?_⟩)
        change slotAt (world.runtime.modules ++ [_]) (world.runtime.modules.length + 1) = _
        rw [Runtime.slotAt_append, if_pos rfl]
    · refine ⟨?_, ?_⟩
      · change world.runtime.modules.length ≤ (world.runtime.modules ++ [_]).length
        rw [List.length_append]
        exact Nat.le_add_right _ _
      · intro other bounded place found
        exact (Runtime.placement_append rfl bounded).symm.trans found
    · exact regions_congr storages rfl rfl

/-- Fresh memory is mapped; no thread runs in it yet. -/
theorem grow (isolated : Isolated world) {region : Region} (tables : TablesValid next.runtime)
    (modules : next.runtime.modules = world.runtime.modules)
    (statics : next.runtime.staticModules = world.runtime.staticModules)
    (used : next.runtime.staticUsedInfo.1 = world.runtime.staticUsedInfo.1)
    (added : next.regions.Perm (region :: world.regions))
    (fresh : ∀ used ∈ world.regions, region.Apart used)
    (storages : ∀ storage ∈ world.storages, storage ∈ next.storages)
    (based : ∀ storage ∈ next.storages, storage ∈ world.storages ∨
      0 < storage.base ∧ storage.base ≤ storage.tp)
    (live : next.live = world.live)
    (tcbs : ∀ tp ∈ world.live, next.runtime.tcbs tp = world.runtime.tcbs tp)
    (blocks : next.runtime.dynamicBlocks = world.runtime.dynamicBlocks) : Isolated next := by
  refine ⟨tables, ?_, ?_, mapped_grow isolated.mapped added fresh, ?_⟩
  · intro module listed
    rw [statics] at listed
    rw [Runtime.placement_same modules]
    exact isolated.listed module listed
  · intro storage listed
    rcases based storage listed with old | new
    · exact isolated.based storage old
    · exact new
  · intro tp member
    rw [live] at member
    refine (isolated.threads tp member).keep (.of_modules modules) (tcbs tp member) ?_ ?_
    · intro block listed _
      rw [blocks]
      exact listed
    · intro storage listed _ reach
      rw [used]
      exact ⟨storages storage listed, reach⟩

theorem emptyThread {tp : Nat}
    (stored : ∃ storage ∈ world.storages, storage.tp = tp ∧
      world.runtime.staticUsedInfo.1 ≤ storage.tp - storage.base)
    (empty : ∀ id, world.runtime.dtvValue tp id = none) : ThreadValid world tp := by
  refine ⟨stored, ?_, ?_, ?_, ?_⟩
  · intro id value found
    rw [empty] at found
    cases found
  · intro id info offset value _ found
    rw [empty] at found
    cases found
  · intro id info value _ found
    rw [empty] at found
    cases found
  · intro id other info otherInfo value _ _ found
    rw [empty] at found
    cases found

theorem join (isolated : Isolated world) {tp : Nat} (thread : ThreadValid world tp) :
    Isolated { world with live := tp :: world.live } := by
  have same : ∀ other, ThreadValid world other →
      ThreadValid { world with live := tp :: world.live } other :=
    fun _ valid => ⟨valid.stored, valid.known, valid.static, valid.dynamic, valid.distinct⟩
  refine ⟨isolated.tables, isolated.listed, isolated.based, isolated.mapped, ?_⟩
  intro other member
  rcases List.mem_cons.mp member with rfl | old
  · exact same other thread
  · exact same other (isolated.threads other old)

theorem withArea (isolated : Isolated world) (absent : world.runtime.staticTls = none) {base : Nat}
    (unused : world.Unused ⟨base, pageRoundedSize Runtime.arenaLayout⟩) :
    Isolated (world.withArea base) := by
  let area : World := { world with runtime := world.runtime.withArea base }
  have storages : area.storages = ⟨base + staticTlsArenaSize, base⟩ :: world.storages :=
    World.storages_withArea absent base
  have grown : Isolated area := by
    refine isolated.grow (isolated.tables.withArea absent unused.1) rfl rfl ?_ (.of_eq ?_)
      (fresh_inside unused.2 Runtime.arenaLayout_covered) ?_ ?_ rfl
      (fun tp member => isolated.area_live unused.2 member) rfl
    · simp only [area, Runtime.staticUsedInfo, absent, Runtime.withArea]
    · rw [World.regions, storages, List.map_cons, World.region_arena]
      rfl
    · intro storage listed
      rw [storages]
      exact List.mem_cons_of_mem _ listed
    · intro storage listed
      rw [storages] at listed
      rcases List.mem_cons.mp listed with rfl | old
      · exact .inr ⟨Nat.pos_of_ne_zero unused.1, Nat.le_add_right _ _⟩
      · exact .inl old
  have empty : ∀ id, area.runtime.dtvValue (base + staticTlsArenaSize) id = none := by
    intro id
    have initial : area.runtime.tcbs = ((world.runtime.allocZeroed Runtime.arenaLayout base).initTcb
        (base + staticTlsArenaSize)).tcbs := rfl
    rw [Runtime.dtvValue_congr (congrFun initial _)]
    exact Runtime.initTcb_dtvValue _ _ id
  have listed : ⟨base + staticTlsArenaSize, base⟩ ∈ area.storages := by
    rw [storages]
    exact List.mem_cons_self
  exact grown.join (emptyThread ⟨_, listed, rfl, Nat.zero_le _⟩ empty)

theorem registerStatic (isolated : Isolated world) (info : TlsInfo) {base : Nat}
    (installed : Bool) (granted : world.Granted base world.wantedArena)
    (room : ∀ placed ∈ Runtime.placeStatic world.runtime.staticUsedInfo.1 info,
      ∀ storage ∈ world.storages, storage.tp ∈ world.live →
      placed.1 ≤ storage.tp - storage.base) :
    Isolated (world.registerStaticAt info base installed) := by
  cases present : world.runtime.staticTls with
  | some area =>
      rw [World.registerStaticAt_known present]
      rw [Runtime.staticUsedInfo, present] at room
      exact isolated.registerIn present info room
  | none =>
      have unused : world.Unused ⟨base, pageRoundedSize Runtime.arenaLayout⟩ := by
        rw [World.wantedArena, present] at granted
        exact granted.2
      cases installed with
      | false =>
          rw [World.registerStaticAt_refused present]
          refine isolated.grow (isolated.tables.same ⟨rfl, rfl, rfl, rfl⟩) rfl rfl rfl
            List.perm_middle unused.2 (fun _ listed => listed) (fun _ listed => .inl listed) rfl
            (fun tp member => isolated.area_live unused.2 member) rfl
      | true =>
          rw [World.registerStaticAt_first present]
          refine (isolated.withArea present unused).registerIn rfl info ?_
          rintro ⟨finish, align⟩ placing storage listed member
          obtain ⟨_, total, computed, fits⟩ := Runtime.placeStatic_spec placing
          have beyond := staticUsedWithRseq_spec computed
          have own : base + staticTlsArenaSize - base = staticTlsArenaSize :=
            Nat.add_sub_cancel_left _ _
          rw [World.storages_withArea present] at listed
          rcases List.mem_cons.mp listed with rfl | old
          · simp only
            omega
          · rcases List.mem_cons.mp member with same | before
            · -- the new area is the only storage with this thread pointer
              obtain rfl := (isolated.withArea present unused).storage_unique
                (World.storages_withArea present base ▸ List.mem_cons_of_mem _ old)
                (World.storages_withArea present base ▸ List.mem_cons_self) same
              simp only
              omega
            · have cursor : world.runtime.staticUsedInfo.1 = 0 := by
                rw [Runtime.staticUsedInfo, present]
              rw [cursor] at room
              exact room (finish, align) placing storage old before

/-- A thread starts, or starts over. -/
theorem init (isolated : Isolated world) {storage : Storage} {result : Nat × Runtime}
    (present : storage ∈ world.storages)
    (room : world.runtime.staticUsedInfo.1 ≤ storage.tp - storage.base)
    (accepted : world.runtime.init storage.tp = .ok result) :
    Isolated (world.addLive result) := by
  have nonnull := isolated.nonnull ⟨storage, present, rfl⟩
  obtain ⟨same, ⟨memory, tcbs, written⟩, others, stored⟩ := Runtime.init_vectors nonnull accepted
  obtain ⟨tp, next⟩ := result
  obtain rfl : tp = storage.tp := same
  simp only at written others stored
  -- every entry is the one of a static module
  have static : ∀ id value, next.dtvValue storage.tp id = some value → ∃ info offset,
      next.placement id = some (info, some offset) ∧ value = offsetPtr storage.tp offset := by
    intro id value found
    obtain ⟨module, listed, rfl, rfl⟩ := stored id value found
    refine ⟨module.info, module.offset, ?_, rfl⟩
    rw [written]
    exact isolated.listed module listed
  have thread : ThreadValid (world.addLive (storage.tp, next)) storage.tp := by
    refine ⟨?_, ?_, ?_, ?_, ?_⟩
    · subst written
      exact ⟨storage, present, rfl, room⟩
    · intro id value found
      obtain ⟨info, offset, place, _⟩ := static id value found
      exact Runtime.placement_bounded place
    · intro id info offset value place found
      obtain ⟨_, _, known, rfl⟩ := static id value found
      cases place.symm.trans known
      rfl
    · intro id info value place found
      obtain ⟨_, _, known, _⟩ := static id value found
      cases place.symm.trans known
    · intro id other info otherInfo value place _ found
      obtain ⟨_, _, known, _⟩ := static id value found
      cases place.symm.trans known
  refine ⟨?_, ?_, ?_, ?_, ?_⟩
  · exact isolated.tables.same (written ▸ ⟨rfl, rfl, rfl, rfl⟩)
  · subst written
    exact isolated.listed
  · subst written
    exact isolated.based
  · subst written
    exact isolated.mapped
  · intro other member
    by_cases this : other = storage.tp
    · rw [this]
      exact thread
    · rw [World.addLive, if_neg nonnull] at member
      have before : other ∈ world.live := (List.mem_cons.mp member).resolve_left this
      refine (isolated.threads other before).keep (.of_modules (written ▸ rfl))
        (others other this) ?_ ?_
      · subst written
        exact fun _ listed _ => listed
      · subst written
        exact fun _ listed _ reach => ⟨listed, reach⟩

theorem allocate (isolated : Isolated world) {base : Nat} {result : Nat × Runtime}
    (granted : world.Granted base (world.runtime.storageLayout.map Prod.snd))
    (accepted : world.runtime.allocate base = .ok result) : Isolated (world.addLive result) := by
  cases chosen : world.runtime.storageLayout with
  | none =>
      rw [Runtime.allocate, Runtime.allocateStorage, chosen] at accepted
      cases accepted
      exact isolated
  | some pair =>
      obtain ⟨staticSize, layout⟩ := pair
      rw [Runtime.allocate, Runtime.allocateStorage, chosen] at accepted
      rw [chosen] at granted
      obtain ⟨⟨total, computed, reach⟩, size, covered⟩ := Runtime.storageLayout_spec chosen
      have unused : world.Unused ⟨base, pageRoundedSize layout⟩ := granted.2
      let storage : Storage := ⟨base + staticSize, base⟩
      let allocated : World := { world with runtime := { world.runtime.allocZeroed layout base with
        allocations := world.runtime.allocations ++ [⟨base + staticSize, base, layout⟩] } }
      have region : storage.region = ⟨base, layout.size⟩ := by
        simp only [storage, Storage.region, size, Region.mk.injEq, true_and]
        omega
      have storages : allocated.storages.Perm (storage :: world.storages) := by
        change (world.arena ++ (world.runtime.allocations ++ [_]).map _ ++ world.provided).Perm _
        rw [List.map_append, List.map_singleton, ← List.append_assoc, List.append_assoc]
        exact List.perm_middle
      have tables : TablesValid allocated.runtime :=
        ⟨isolated.tables.ids, isolated.tables.known, isolated.tables.slots, isolated.tables.absent,
          isolated.tables.area⟩
      have grown : Isolated allocated := by
        refine isolated.grow tables rfl rfl rfl ?_ (fresh_inside unused.2 covered) ?_ ?_ rfl
          (fun tp member => isolated.allocZeroed_live unused.2 covered member) rfl
        · rw [← region]
          exact ((storages.map Storage.region).append_right _).append_right _
        · intro other listed
          exact storages.mem_iff.mpr (List.mem_cons_of_mem _ listed)
        · intro other listed
          rcases List.mem_cons.mp (storages.mem_iff.mp listed) with rfl | old
          · exact .inr ⟨Nat.pos_of_ne_zero unused.1, Nat.le_add_right _ _⟩
          · exact .inl old
      have room : allocated.runtime.staticUsedInfo.1 ≤ storage.tp - storage.base := by
        have beyond := staticUsedWithRseq_spec computed
        change world.runtime.staticUsedInfo.1 ≤ base + staticSize - base
        omega
      exact grown.init (storages.mem_iff.mpr List.mem_cons_self) room accepted

theorem provide (isolated : Isolated world) {storage : Storage}
    (based : storage.base ≤ storage.tp) (unused : world.Unused storage.region) :
    Isolated { world with
      runtime := world.runtime.allocZeroed ⟨storage.region.size, 1⟩ storage.base
      provided := world.provided ++ [storage] } := by
  have storages : (World.storages { world with
      provided := world.provided ++ [storage] }).Perm (storage :: world.storages) := by
    change (world.arena ++ _ ++ (world.provided ++ [storage])).Perm _
    rw [← List.append_assoc]
    exact List.perm_append_singleton _ _
  refine isolated.grow (isolated.tables.same ⟨rfl, rfl, rfl, rfl⟩) rfl rfl rfl
    (((storages.map Storage.region).append_right _).append_right _) unused.2 ?_ ?_ rfl
    (fun tp member => isolated.allocZeroed_live unused.2 (Nat.le_refl _) member) rfl
  · intro other listed
    exact storages.mem_iff.mpr (List.mem_cons_of_mem _ listed)
  · intro other listed
    rcases List.mem_cons.mp (storages.mem_iff.mp listed) with rfl | old
    · exact .inr ⟨Nat.pos_of_ne_zero unused.1, based⟩
    · exact .inl old

theorem rewrite (isolated : Isolated world) (memory : ByteMemory) :
    Isolated { world with runtime := { world.runtime with memory := memory } } := by
  refine isolated.retable (isolated.tables.same ⟨rfl, rfl, rfl, rfl⟩) isolated.listed
    (.of_modules rfl) rfl rfl rfl rfl rfl fun _ _ _ reach => reach

/-- An entry of a static module is written. -/
theorem store (isolated : Isolated world) {runtime : Runtime} {tp id : Nat} {info : TlsInfo}
    {offset : Int} (stores : world.runtime.Stores runtime tp id (offsetPtr tp offset))
    (place : world.runtime.placement id = some (info, some offset)) :
    Isolated { world with runtime := runtime } := by
  obtain ⟨⟨memory, tcbs, rfl⟩, others, kept, stored⟩ := stores
  refine ⟨isolated.tables.same ⟨rfl, rfl, rfl, rfl⟩, isolated.listed, isolated.based,
    isolated.mapped, ?_⟩
  intro other member
  by_cases this : other = tp
  · subst this
    have before := isolated.threads other member
    -- an entry of a dynamic module is not the one that is written
    have older : ∀ found segment value, world.runtime.placement found = some (segment, none) →
        Runtime.dtvValue { world.runtime with memory := memory, tcbs := tcbs } other found =
          some value → world.runtime.dtvValue other found = some value := by
      intro found segment value dynamic present
      have different : found ≠ id := by
        rintro rfl
        cases place.symm.trans dynamic
      exact (kept found different).symm.trans present
    refine ⟨before.stored, ?_, ?_, ?_, ?_⟩
    · intro found value present
      by_cases same : found = id
      · rw [same]
        exact Runtime.placement_bounded place
      · exact before.known found value ((kept found same).symm.trans present)
    · intro found segment distance value known present
      by_cases same : found = id
      · subst same
        rcases stored value present with written | old
        · cases place.symm.trans known
          exact written
        · exact before.static found segment distance value known old
      · exact before.static found segment distance value known
          ((kept found same).symm.trans present)
    · intro found segment value dynamic present
      exact before.dynamic found segment value dynamic (older found segment value dynamic present)
    · intro found second segment secondSegment value dynamic secondDynamic present secondPresent
      exact before.distinct found second segment secondSegment value dynamic secondDynamic
        (older found segment value dynamic present)
        (older second secondSegment value secondDynamic secondPresent)
  · exact (isolated.threads other member).keep (.of_modules rfl) (others other this)
      (fun _ listed _ => listed) fun _ listed _ reach => ⟨listed, reach⟩

/-- The image of a static module is published: the initial thread gets its entry. -/
theorem publish (isolated : Isolated world) {module : StaticTlsModule} {source : TlsImageSource}
    {result : Except TlsError Unit} {runtime : Runtime}
    (present : module ∈ world.runtime.staticModules)
    (slot : world.runtime.tlsModule module.id = some (.static module.info module.offset))
    (accepted : world.runtime.initStaticTls module.info source module.id module.offset =
      .ok (result, runtime)) : Isolated { world with runtime := runtime } := by
  cases made : world.runtime.staticTls with
  | none =>
      rw [isolated.tables.absent made] at present
      cases present
  | some area =>
      obtain ⟨middle, initialising, rfl⟩ := Runtime.initStaticTls_spec isolated.tables.ids present
        slot made accepted
      obtain ⟨memory, same⟩ := middle.initRseqArea_eq area.tp area.used
      rw [same]
      have places : ∀ other, (world.runtime.withSource module source).placement other =
          world.runtime.placement other := fun other => Runtime.placement_set slot rfl rfl
      have published : Isolated
          { world with runtime := world.runtime.withSource module source } := by
        refine isolated.retable (isolated.tables.publish source slot) ?_
          ⟨(List.length_set).ge, fun other _ place found => (places other).symm.trans found⟩
          rfl rfl rfl rfl rfl fun _ _ _ reach => reach
        intro other listed
        obtain ⟨old, oldListed, sameId, sameInfo, sameOffset, _⟩ :=
          TablesValid.publishedModules_shape listed
        rw [sameId, sameInfo, sameOffset]
        exact (places old.id).trans (isolated.listed old oldListed)
      have stored := published.store (Runtime.initStaticTlsModule_stores initialising)
        ((places module.id).trans (isolated.listed module present))
      exact stored.rewrite memory

theorem initTls (isolated : Isolated world) {source : TlsImageSource} {id : Nat}
    {offset : Option Int} {result : Except TlsError Unit} {runtime : Runtime}
    (accepted : world.runtime.initTlsModule source id offset = .ok (result, runtime)) :
    Isolated { world with runtime := runtime } := by
  rcases Runtime.initTlsModule_cases accepted with
    rfl | ⟨info, old, slot, rfl⟩ | ⟨info, registered, slot, _, initialising⟩
  · exact isolated
  · have places : ∀ other, Runtime.placement { world.runtime with
        modules := world.runtime.modules.set (id - 1) (some (.dynamic info (some source))) } other =
        world.runtime.placement other := by
      intro other
      exact @Runtime.placement_set _ _ id other (.dynamic info (some source)) _ slot rfl rfl
    refine isolated.retable (isolated.tables.replaceDynamic _ slot) ?_
      ⟨(List.length_set).ge, fun other _ place found => (places other).symm.trans found⟩ rfl rfl rfl
      rfl rfl fun _ _ _ reach => reach
    intro module listed
    exact (places module.id).trans (isolated.listed module listed)
  · obtain ⟨module, listed, rfl, rfl, rfl⟩ := isolated.tables.slots id info registered slot
    exact isolated.publish listed slot initialising

/-- Fresh memory is not where a block lies already. -/
theorem fresh_block {ptr size : Nat} (positive : 0 < size)
    (fresh : ∀ used ∈ world.regions, Region.Apart ⟨ptr, size⟩ used) {block : DynamicTlsBlock}
    (listed : block ∈ world.runtime.dynamicBlocks) (mapped : 0 < pageRoundedSize block.layout) :
    block.ptr ≠ ptr := by
  have apart := fresh ⟨block.ptr, pageRoundedSize block.layout⟩
    (List.mem_append_left _ (List.mem_append_right _ (List.mem_map.mpr ⟨block, listed, rfl⟩)))
  simp only [Region.Apart] at apart
  omega

/-- The vector of a thread gains an entry: a new block for a dynamic module. -/
theorem gainBlock {tp id ptr : Nat} {info : TlsInfo} {layout : Layout} {memory : ByteMemory}
    {tcbs : Nat → Tcb} {runtime : Runtime} (before : ThreadValid world tp)
    (gained : runtime = { world.runtime with
      memory := memory, tcbs := tcbs
      dynamicBlocks := world.runtime.dynamicBlocks ++ [⟨tp, ptr, layout⟩] })
    (place : world.runtime.placement id = some (info, none))
    (covered : max info.memsz 1 ≤ pageRoundedSize layout)
    (fresh : ∀ block ∈ world.runtime.dynamicBlocks, 0 < pageRoundedSize block.layout →
      block.ptr ≠ ptr)
    (older : ∀ found, found ≠ id →
      runtime.dtvValue tp found = world.runtime.dtvValue tp found)
    (own : runtime.dtvValue tp id = some ptr) :
    ThreadValid { world with runtime := runtime } tp := by
  subst gained
  -- what the vector held before does not point into the new block
  have apart : ∀ found segment, world.runtime.placement found = some (segment, none) →
      world.runtime.dtvValue tp found ≠ some ptr := by
    intro found segment dynamic present
    obtain ⟨block, listed, _, pointed, large⟩ := before.dynamic found segment ptr dynamic present
    exact fresh block listed (by omega) pointed
  refine ⟨before.stored, ?_, ?_, ?_, ?_⟩
  · intro found value present
    by_cases same : found = id
    · rw [same]
      exact Runtime.placement_bounded place
    · exact before.known found value ((older found same).symm.trans present)
  · intro found segment distance value known present
    have different : found ≠ id := by
      rintro rfl
      cases place.symm.trans known
    exact before.static found segment distance value known
      ((older found different).symm.trans present)
  · intro found segment value dynamic present
    by_cases same : found = id
    · subst same
      obtain rfl := Option.some.inj (own.symm.trans present)
      cases place.symm.trans dynamic
      exact ⟨_, List.mem_append_right _ (List.mem_singleton.mpr rfl), rfl, rfl, covered⟩
    · obtain ⟨block, listed, rest⟩ := before.dynamic found segment value dynamic
        ((older found same).symm.trans present)
      exact ⟨block, List.mem_append_left _ listed, rest⟩
  · intro found second segment secondSegment value dynamic secondDynamic present secondPresent
    by_cases same : found = id
    · by_cases secondSame : second = id
      · rw [same, secondSame]
      · subst same
        obtain rfl := Option.some.inj (own.symm.trans present)
        exact absurd ((older second secondSame).symm.trans secondPresent)
          (apart second secondSegment secondDynamic)
    · by_cases secondSame : second = id
      · subst secondSame
        obtain rfl := Option.some.inj (own.symm.trans secondPresent)
        exact absurd ((older found same).symm.trans present) (apart found segment dynamic)
      · exact before.distinct found second segment secondSegment value dynamic secondDynamic
          ((older found same).symm.trans present)
          ((older second secondSame).symm.trans secondPresent)

/-- A thread gets a block of its own for a dynamic module. -/
theorem fill (isolated : Isolated world) {tp id ptr : Nat} {info : TlsInfo}
    {source : Option TlsImageSource} {layout : Layout} {block : Option Nat} {runtime : Runtime}
    (member : tp ∈ world.live)
    (slot : world.runtime.tlsModule id = some (.dynamic info source))
    (size : layout.size = max info.memsz 1) (covered : layout.size ≤ pageRoundedSize layout)
    (unused : world.Unused ⟨ptr, pageRoundedSize layout⟩)
    (accepted : world.runtime.fillDynamicBlock tp id info source layout ptr =
      .ok (block, runtime)) :
    Isolated { world with runtime := runtime } := by
  have kept := fun other (live : other ∈ world.live) =>
    isolated.allocZeroed_live unused.2 covered live
  rcases Runtime.fillDynamicBlock_vectors accepted with
    ⟨memory, leaked, _, rfl, rfl | rfl⟩ | ⟨stored, _, ⟨memory, tcbs, rfl⟩, rfl, others, older, own⟩
  · refine ⟨isolated.tables.same ⟨rfl, rfl, rfl, rfl⟩, isolated.listed, isolated.based,
      isolated.mapped, ?_⟩
    intro other live
    exact (isolated.threads other live).keep (.of_modules rfl) (kept other live)
      (fun _ listed _ => listed) fun _ listed _ reach => ⟨listed, reach⟩
  · exact isolated.grow (isolated.tables.same ⟨rfl, rfl, rfl, rfl⟩) rfl rfl rfl List.perm_middle
      unused.2 (fun _ listed => listed) (fun _ listed => .inl listed) rfl kept rfl
  · refine ⟨isolated.tables.same ⟨rfl, rfl, rfl, rfl⟩, isolated.listed, isolated.based, ?_, ?_⟩
    · refine mapped_grow isolated.mapped ?_ unused.2
      change (_ ++ (world.runtime.dynamicBlocks ++ [_]).map _ ++ _).Perm _
      rw [List.map_append, List.map_singleton, ← List.append_assoc, List.append_assoc]
      exact List.perm_middle
    · intro other live
      by_cases this : other = tp
      · subst this
        rw [if_neg unused.1] at own
        refine gainBlock (isolated.threads other live) rfl
          (Runtime.placement_eq_some_iff.mpr (.inl ⟨source, rfl, slot⟩)) (size ▸ covered) ?_ ?_ own
        · intro block listed large
          exact fresh_block (by omega) unused.2 listed large
        · intro found different
          exact (older found different).trans (Runtime.dtvValue_congr (kept other live) found)
      · refine (isolated.threads other live).keep (.of_modules rfl)
          ((others other this).trans (kept other live)) ?_ fun _ listed _ reach => ⟨listed, reach⟩
        exact fun _ listed _ => List.mem_append_left _ listed

theorem getAddr (isolated : Isolated world) {tp id tiOffset ptr addr : Nat} {runtime : Runtime}
    (live : tp = 0 ∨ tp ∈ world.live)
    (granted : world.Granted ptr (world.runtime.wantedBlock tp id))
    (accepted : world.runtime.getAddr tp id tiOffset ptr = .ok (addr, runtime)) :
    Isolated { world with runtime := runtime } := by
  cases Runtime.getAddr_answers accepted with
  | null => exact isolated
  | static _ _ => exact isolated
  | known _ _ => exact isolated
  | filled slot nonnull _ wanted size filling =>
      rw [wanted] at granted
      exact isolated.fill (live.resolve_left nonnull) slot size (Runtime.wantedBlock_covered wanted)
        granted.2 filling

theorem deallocate (isolated : Isolated world) {tp : Nat} (stored : world.HasStorage tp)
    (deallocTcb : Bool) :
    Isolated { world with
      runtime := world.runtime.dlDeallocateTls tp deallocTcb
      live := world.live.filter fun other => other ≠ tp } := by
  obtain ⟨others, leaked, freed⟩ :=
    world.runtime.dlDeallocateTls_vectors (isolated.nonnull stored) deallocTcb
  obtain ⟨tcbs, blocks, allocations, result, kept, reordered, sublist, stays⟩ :=
    world.runtime.dlDeallocateTls_spec tp deallocTcb
  rw [result] at others leaked freed ⊢
  have tables : TablesValid { world.runtime with
      tcbs := tcbs, dynamicBlocks := blocks, allocations := allocations } :=
    ⟨isolated.tables.ids, isolated.tables.known, isolated.tables.slots, isolated.tables.absent,
      isolated.tables.area⟩
  let storages := world.arena ++ kept.map (fun allocation => ⟨allocation.tp, allocation.base⟩) ++
    world.provided
  have left : (World.storages { world with runtime := { world.runtime with
      tcbs := tcbs, dynamicBlocks := blocks, allocations := allocations } }).Perm storages :=
    ((reordered.map _).append_left world.arena).append_right world.provided
  have fewer : storages.Sublist world.storages :=
    ((sublist.map _).append_left world.arena).append_right world.provided
  refine ⟨tables, isolated.listed, ?_, ?_, ?_⟩
  · intro storage listed
    exact isolated.based storage (fewer.subset (left.mem_iff.mp listed))
  · exact mapped_shrink isolated.mapped
      (((left.map _).append (freed.map _)).append_right world.runtime.leaked)
      (((fewer.map _).append (List.filter_sublist.map _)).append_right world.runtime.leaked)
  · intro other member
    obtain ⟨live, different⟩ := List.mem_filter.mp member
    have away : other ≠ tp := of_decide_eq_true different
    refine (isolated.threads other live).keep (.of_modules rfl) (others other away) ?_ ?_
    · rintro block listed rfl
      exact freed.mem_iff.mpr (List.mem_filter.mpr ⟨listed, by simp [away]⟩)
    · rintro storage listed rfl reach
      refine ⟨left.mem_iff.mpr ?_, reach⟩
      rcases List.mem_append.mp listed with early | provided
      · rcases List.mem_append.mp early with arena | allocated
        · exact List.mem_append_left _ (List.mem_append_left _ arena)
        · obtain ⟨allocation, present, rfl⟩ := List.mem_map.mp allocated
          exact List.mem_append_left _ (List.mem_append_right _
            (List.mem_map.mpr ⟨allocation, stays allocation present away, rfl⟩))
      · exact List.mem_append_right _ provided

theorem reclaim (isolated : Isolated world) {tp : Nat} (ended : tp ∉ world.live) :
    Isolated { world with provided := world.provided.filter fun storage => storage.tp ≠ tp } := by
  have fewer : (World.storages { world with
      provided := world.provided.filter fun storage => storage.tp ≠ tp }).Sublist world.storages :=
    (List.Sublist.refl _).append List.filter_sublist
  refine ⟨isolated.tables, isolated.listed, ?_, ?_, ?_⟩
  · intro storage listed
    exact isolated.based storage (fewer.subset listed)
  · exact mapped_shrink isolated.mapped (.refl _) (((fewer.map _).append_right _).append_right _)
  · intro other member
    refine (isolated.threads other member).keep (.of_modules rfl) rfl (fun _ listed _ => listed) ?_
    rintro storage listed rfl reach
    refine ⟨?_, reach⟩
    rcases List.mem_append.mp listed with early | provided
    · exact List.mem_append_left _ early
    · refine List.mem_append_right _ (List.mem_filter.mpr ⟨provided, decide_eq_true ?_⟩)
      rintro rfl
      exact ended member

theorem new : Isolated .new where
  tables := .new
  listed _ impossible := by cases impossible
  based _ impossible := by cases impossible
  mapped := .nil
  threads _ impossible := by cases impossible

end Isolated

/-! ## Runs -/

/-- Static modules come from `register_static_module` and are placed where the storage of
every live thread has room for them; a thread starts in storage that reaches as far as
the modules there are. -/
def RoomFor (world : World) : Action → Prop
  | .registerDynamic _ => True
  | .registerStatic info _ _ =>
      ∀ placed ∈ Runtime.placeStatic world.runtime.staticUsedInfo.1 info,
        ∀ storage ∈ world.storages, storage.tp ∈ world.live →
        placed.1 ≤ storage.tp - storage.base
  | .addStatic _ _ => False
  | .initTls _ _ _ => True
  | .unregister _ => True
  | .getAddr _ _ _ _ => True
  | .allocate _ => True
  | .provide _ => True
  | .init tp => ∀ storage ∈ world.storages, storage.tp = tp →
      world.runtime.staticUsedInfo.1 ≤ storage.tp - storage.base
  | .deallocate _ _ => True
  | .reclaim _ => True

instance (world : World) (action : Action) : Decidable (RoomFor world action) :=
  match action with
  | .registerDynamic _ => inferInstanceAs (Decidable True)
  | .registerStatic info _ _ => inferInstanceAs (Decidable
      (∀ placed ∈ Runtime.placeStatic world.runtime.staticUsedInfo.1 info,
        ∀ storage ∈ world.storages, storage.tp ∈ world.live →
        placed.1 ≤ storage.tp - storage.base))
  | .addStatic _ _ => inferInstanceAs (Decidable False)
  | .initTls _ _ _ => inferInstanceAs (Decidable True)
  | .unregister _ => inferInstanceAs (Decidable True)
  | .getAddr _ _ _ _ => inferInstanceAs (Decidable True)
  | .allocate _ => inferInstanceAs (Decidable True)
  | .provide _ => inferInstanceAs (Decidable True)
  | .init tp => inferInstanceAs (Decidable (∀ storage ∈ world.storages, storage.tp = tp →
      world.runtime.staticUsedInfo.1 ≤ storage.tp - storage.base))
  | .deallocate _ _ => inferInstanceAs (Decidable True)
  | .reclaim _ => inferInstanceAs (Decidable True)

theorem isolated_step {world next : World} {action : Action} (isolated : Isolated world)
    (room : RoomFor world action) (step : World.Transition world action next) : Isolated next := by
  cases step with
  | registerDynamic => exact isolated.registerDynamic _
  | registerStatic granted => exact isolated.registerStatic _ _ granted room
  | addStatic => exact room.elim
  | initTls accepted => exact isolated.initTls accepted
  | unregister => exact isolated.unregister _
  | getAddr live granted accepted => exact isolated.getAddr live granted accepted
  | allocate granted accepted => exact isolated.allocate granted accepted
  | provide based unused => exact isolated.provide based unused
  | init stored accepted =>
      obtain ⟨storage, listed, rfl⟩ := stored
      exact isolated.init listed (room storage listed rfl) accepted
  | deallocate stored => exact isolated.deallocate stored _
  | reclaim ended => exact isolated.reclaim ended

theorem isolated_inductive : (World.system.restrict RoomFor).Inductive Isolated where
  initially _ initial := initial ▸ .new
  preserved _ _ _ isolated step :=
    isolated_step isolated step.1 (World.transition_of_act step.2)

end DynLinker.Tls
