import DynLinker.Tls.StaticTables
import DynLinker.Tls.WorldProperties

/-! Static blocks on live threads. A thread gets its blocks when it starts; a module
that is published later reaches only the initial thread. So the blocks are there on
every thread as long as static modules are published before other threads start. -/

set_option autoImplicit false

namespace DynLinker.Tls

open Lib

def Storage.Apart (left right : Storage) : Prop := left.region.Apart right.region

instance : Std.Symm Storage.Apart where
  symm _ _ apart := Region.Apart.symm apart

/-- The storage reaches far enough below the thread pointer for the static layout. -/
def Runtime.Roomy (runtime : Runtime) (storage : Storage) : Prop :=
  ∃ total, staticUsedWithRseq runtime.staticUsedInfo.1 = some total ∧
    total ≤ storage.tp - storage.base

/-- The published modules have their blocks in this storage. -/
def Runtime.Serves (runtime : Runtime) (storage : Storage) : Prop :=
  ∀ module ∈ runtime.staticModules, module.source ≠ none →
    (storage.base : Int) ≤ storage.tp + module.offset ∧ runtime.Holds storage.tp module

structure StoragesValid (world : World) : Prop where
  apart : world.storages.Pairwise Storage.Apart
  based : ∀ storage ∈ world.storages, 0 < storage.base ∧ storage.base ≤ storage.tp
  stored : ∀ tp ∈ world.live, world.HasStorage tp

structure Settled (world : World) : Prop where
  tables : TablesValid world.runtime
  storages : StoragesValid world
  served : ∀ storage ∈ world.storages, storage.tp ∈ world.live → world.runtime.Serves storage

/-! ## Blocks and storages -/

theorem Placed.inside {used base tp : Nat} {modules : List StaticTlsModule}
    (placed : Placed used modules) {module : StaticTlsModule} (listed : module ∈ modules)
    (fits : (base : Int) ≤ tp + module.offset) :
    (module.region tp).Inside (Storage.region ⟨tp, base⟩) := by
  obtain ⟨finish, offset, size, _⟩ := placed.below module listed
  simp only [StaticTlsModule.region, offsetPtr, Storage.region, Region.Inside]
  omega

namespace StoragesValid

variable {world : World}

theorem unique (valid : StoragesValid world) {left right : Storage}
    (leftListed : left ∈ world.storages) (rightListed : right ∈ world.storages)
    (same : left.tp = right.tp) : left = right := by
  by_contra different
  have apart := valid.apart.forall leftListed rightListed different
  obtain ⟨_, leftBased⟩ := valid.based left leftListed
  obtain ⟨_, rightBased⟩ := valid.based right rightListed
  simp only [Storage.Apart, Region.Apart, Storage.region, tlsTcbSize] at apart
  omega

end StoragesValid

theorem Runtime.Serves.frame {runtime next : Runtime} {storage : Storage}
    (serves : runtime.Serves storage) (valid : TablesValid runtime)
    (modules : next.staticModules = runtime.staticModules)
    (agree : next.memory.Agree runtime.memory storage.region) : next.Serves storage := by
  intro module listed published
  rw [modules] at listed
  obtain ⟨fits, held⟩ := serves module listed published
  exact ⟨fits, held.agree (agree.inside (valid.layout.1.inside listed fits))⟩

theorem storages_same {world next : World} (same : world.runtime.SameTables next.runtime)
    (provided : next.provided = world.provided) : next.storages = world.storages := by
  rw [World.storages, World.storages, World.arena, World.arena, same.staticTls, same.allocations,
    provided]

theorem StoragesValid.same {world next : World} (valid : StoragesValid world)
    (storages : next.storages = world.storages) (live : ∀ tp ∈ next.live, tp ∈ world.live) :
    StoragesValid next := by
  refine ⟨?_, ?_, ?_⟩
  · rw [storages]
    exact valid.apart
  · rw [storages]
    exact valid.based
  · intro tp member
    rw [World.HasStorage, storages]
    exact valid.stored tp (live tp member)

/-- A call that writes no thread's storage. -/
theorem Settled.frame {world next : World} (settled : Settled world)
    (same : world.runtime.SameTables next.runtime) (provided : next.provided = world.provided)
    (live : ∀ tp ∈ next.live, tp ∈ world.live)
    (agree : ∀ storage ∈ world.storages,
      next.runtime.memory.Agree world.runtime.memory storage.region) : Settled next := by
  have storages := storages_same same provided
  refine ⟨settled.tables.same same, settled.storages.same storages live, ?_⟩
  intro storage listed member
  rw [storages] at listed
  exact (settled.served storage listed (live _ member)).frame settled.tables same.staticModules
    (agree storage listed)

/-- New storage, which no live thread uses yet. -/
theorem Settled.extend {world next : World} (settled : Settled world) (storage : Storage)
    (tables : TablesValid next.runtime)
    (modules : next.runtime.staticModules = world.runtime.staticModules)
    (added : next.storages.Perm (storage :: world.storages))
    (based : 0 < storage.base ∧ storage.base ≤ storage.tp)
    (fresh : ∀ other ∈ world.storages, storage.Apart other)
    (live : next.live = world.live)
    (agree : ∀ other ∈ world.storages,
      next.runtime.memory.Agree world.runtime.memory other.region) : Settled next := by
  have valid : StoragesValid next := by
    refine ⟨?_, ?_, ?_⟩
    · apply (added.pairwise_iff fun apart => Std.Symm.symm _ _ apart).mpr
      exact List.pairwise_cons.mpr ⟨fresh, settled.storages.apart⟩
    · intro other listed
      rcases List.mem_cons.mp (added.mem_iff.mp listed) with rfl | old
      · exact based
      · exact settled.storages.based other old
    · intro tp member
      rw [live] at member
      obtain ⟨other, listed, same⟩ := settled.storages.stored tp member
      exact ⟨other, added.mem_iff.mpr (List.mem_cons_of_mem _ listed), same⟩
  refine ⟨tables, valid, ?_⟩
  intro other listed member
  rw [live] at member
  obtain ⟨owner, owned, same⟩ := settled.storages.stored _ member
  -- the thread's storage was there before, so this is it
  obtain rfl := valid.unique listed (added.mem_iff.mpr (List.mem_cons_of_mem _ owned)) same.symm
  exact (settled.served _ owned member).frame settled.tables modules (agree _ owned)

/-- A thread starts in storage that is large enough. -/
theorem Settled.serve {world : World} (settled : Settled world) {storage : Storage}
    {result : Nat × Runtime} (listed : storage ∈ world.storages)
    (roomy : world.runtime.Roomy storage)
    (accepted : world.runtime.init storage.tp = .ok result) :
    Settled (world.addLive result) := by
  obtain ⟨total, computed, reach⟩ := roomy
  obtain ⟨placed, _⟩ := settled.tables.layout
  obtain ⟨positive, based⟩ := settled.storages.based storage listed
  have used := staticUsedWithRseq_spec computed
  have nonnull : storage.tp ≠ 0 := by omega
  obtain ⟨same, rewritten, held⟩ := Runtime.init_spec nonnull computed
    (placed.region_apart (by omega)) (fun module member =>
      placed.above_rseq computed (by omega) member) accepted
  have fits : ∀ module ∈ world.runtime.staticModules,
      (storage.base : Int) ≤ storage.tp + module.offset := by
    intro module member
    obtain ⟨finish, offset, _, bounded⟩ := placed.below module member
    omega
  have storages : (world.addLive result).storages = world.storages :=
    storages_same rewritten.sameTables rfl
  have serves : result.2.Serves storage := by
    intro module member _
    rw [rewritten.sameTables.staticModules] at member
    exact ⟨fits module member, held module member⟩
  -- everything that is written lies in the storage of this thread
  have outside : ∀ other ∈ world.storages, other ≠ storage →
      result.2.memory.Agree world.runtime.memory other.region := by
    intro other otherListed different
    have apart : other.region.Apart storage.region :=
      settled.storages.apart.forall otherListed listed different
    apply rewritten.agree
    intro region written
    apply apart.inside
    rcases List.mem_append.mp written with block | rseq
    · obtain ⟨module, member, rfl⟩ := List.mem_map.mp block
      exact placed.inside member (fits module member)
    · cases List.mem_singleton.mp rseq
      simp only [Region.Inside, Storage.region]
      omega
  refine ⟨settled.tables.same rewritten.sameTables, ?_, ?_⟩
  · refine ⟨storages ▸ settled.storages.apart, storages ▸ settled.storages.based, ?_⟩
    intro tp member
    rw [World.addLive, same, if_neg nonnull] at member
    rw [World.HasStorage, storages]
    rcases List.mem_cons.mp member with rfl | old
    · exact ⟨storage, listed, rfl⟩
    · exact settled.storages.stored tp old
  · intro other otherListed member
    rw [storages] at otherListed
    rw [World.addLive, same, if_neg nonnull] at member
    by_cases this : other = storage
    · rw [this]
      exact serves
    · have old : other.tp ∈ world.live := by
        rcases List.mem_cons.mp member with sameTp | old
        · exact absurd (settled.storages.unique otherListed listed sameTp) this
        · exact old
      exact (settled.served other otherListed old).frame settled.tables
        rewritten.sameTables.staticModules (outside other otherListed this)

/-! ## Steps -/

/-- The tables change, and no module gets a source. -/
theorem Settled.retable {world next : World} (settled : Settled world)
    (tables : TablesValid next.runtime) (storages : next.storages = world.storages)
    (live : next.live = world.live) (memory : next.runtime.memory = world.runtime.memory)
    (published : ∀ module ∈ next.runtime.staticModules, module.source ≠ none →
      module ∈ world.runtime.staticModules) : Settled next := by
  refine ⟨tables, settled.storages.same storages (by simp [live]), ?_⟩
  intro storage listed member module moduleListed source
  rw [storages] at listed
  rw [live] at member
  obtain ⟨fits, held⟩ := settled.served storage listed member module
    (published module moduleListed source) source
  exact ⟨fits, held.agree (memory ▸ .refl _ _)⟩

theorem Settled.registerDynamic {world : World} (settled : Settled world) (info : TlsInfo) :
    Settled (world.registerWith (world.runtime.registerDynamicModule info)) := by
  cases registering : world.runtime.registerDynamicModule info with
  | error error => exact settled
  | ok pair =>
      obtain ⟨id, next⟩ := pair
      obtain ⟨_, rfl⟩ := Runtime.registerModule_spec registering
      exact settled.retable (settled.tables.registerDynamic info none) rfl rfl rfl
        fun _ listed _ => listed

theorem Settled.unregister {world : World} (settled : Settled world) (id : Nat) :
    Settled { world with runtime := world.runtime.unregisterModule id } := by
  have same : (world.runtime.unregisterModule id).staticTls = world.runtime.staticTls ∧
      (world.runtime.unregisterModule id).allocations = world.runtime.allocations ∧
      (world.runtime.unregisterModule id).memory = world.runtime.memory := by
    rw [Runtime.unregisterModule]
    split
    · exact ⟨rfl, rfl, rfl⟩
    · exact ⟨rfl, rfl, rfl⟩
  obtain ⟨area, allocations, memory⟩ := same
  refine settled.retable (settled.tables.unregister id) ?_ rfl memory ?_
  · simp only [World.storages, World.arena, area, allocations]
  · intro module listed _
    change module ∈ (world.runtime.unregisterModule id).staticModules at listed
    rw [Runtime.unregisterModule] at listed
    split at listed
    · exact listed
    · exact (List.mem_filter.mp listed).1

theorem Settled.registerIn {world : World} (settled : Settled world) {area : StaticTlsArea}
    (present : world.runtime.staticTls = some area) (info : TlsInfo) :
    Settled (world.registerIn area info) := by
  rw [World.registerIn]
  rcases Runtime.registerStaticIn_cases world.runtime area info with
    ⟨error, failed⟩ | ⟨finish, align, placing, succeeded⟩
  · rw [failed]
    exact settled
  · rw [succeeded]
    refine settled.retable (settled.tables.registerStatic present placing) ?_ rfl rfl ?_
    · simp only [World.storages, World.arena, present, World.afterRegisterStatic,
        Runtime.withStatic]
    · intro module listed source
      rcases List.mem_append.mp listed with old | new
      · exact old
      · cases List.mem_singleton.mp new
        exact absurd rfl source

theorem Settled.arena_unique {world : World} (settled : Settled world) {area : StaticTlsArea}
    (present : world.runtime.staticTls = some area) {storage : Storage}
    (listed : storage ∈ world.storages) (initial : storage.tp = area.tp) :
    storage = ⟨area.tp, area.tp - staticTlsArenaSize⟩ := by
  refine settled.storages.unique listed ?_ initial
  rw [World.storages, World.arena, present]
  exact List.mem_append_left _ (List.mem_append_left _ (List.mem_singleton.mpr rfl))

/-- A static module is published while only the initial thread exists. -/
theorem Settled.publish {world : World} (settled : Settled world) {module : StaticTlsModule}
    {source : TlsImageSource} {result : Except TlsError Unit} {next : Runtime}
    (listed : module ∈ world.runtime.staticModules)
    (slot : world.runtime.tlsModule module.id = some (.static module.info module.offset))
    (alone : ∀ tp ∈ world.live, world.IsInitial tp)
    (accepted : world.runtime.initStaticTls module.info source module.id module.offset =
      .ok (result, next)) :
    Settled { world with runtime := next } := by
  cases present : world.runtime.staticTls with
  | none =>
      rw [settled.tables.absent present] at listed
      cases listed
  | some area =>
      obtain ⟨high, ⟨total, computed, reach⟩, placed⟩ := settled.tables.area area present
      obtain ⟨middle, initialising, rfl⟩ := Runtime.initStaticTls_spec settled.tables.ids listed
        slot present accepted
      obtain ⟨written, held⟩ := Runtime.initStaticTlsModule_spec initialising
      have rseq := Runtime.initRseqArea_rewrites middle area.tp computed
      have whole := written.trans rseq
      have used := staticUsedWithRseq_spec computed
      have tables := settled.tables.publish source slot
      have storages : World.storages { world with runtime := middle.initRseqArea area.tp area.used }
          = world.storages :=
        @storages_same { world with runtime := world.runtime.withSource module source } _
          whole.sameTables rfl
      refine ⟨tables.same whole.sameTables,
        settled.storages.same storages fun _ member => member, ?_⟩
      intro storage storageListed member other otherListed published
      rw [storages] at storageListed
      have initial : storage.tp = area.tp := by
        have isInitial := alone storage.tp member
        rw [World.IsInitial, present] at isInitial
        exact (Option.some.inj isInitial).symm
      obtain rfl := settled.arena_unique present storageListed initial
      rw [whole.sameTables.staticModules] at otherListed
      obtain ⟨old, oldListed, sameId, sameInfo, sameOffset, kept, renewed⟩ :=
        TablesValid.publishedModules_shape otherListed
      constructor
      · obtain ⟨finish, offset, _, bounded⟩ := placed.below old oldListed
        rw [sameOffset]
        simp only
        omega
      · by_cases same : other.id = module.id
        · -- the module itself: its block was just written
          have sameModule : old = module := List.inj_on_of_nodup_map settled.tables.ids oldListed
            listed (sameId.symm.trans same)
          have exact_ : other = ⟨module.id, module.info, some source, module.offset⟩ := by
            rw [← renewed same, ← same, ← sameModule, ← sameInfo, ← sameOffset]
          rw [exact_]
          apply held.agree
          apply rseq.agree
          intro region rseqRegion
          cases List.mem_singleton.mp rseqRegion
          have above : (module.region area.tp).Apart ⟨area.tp - total, rseqAreaSize⟩ :=
            placed.above_rseq computed (by omega) listed
          exact above
        · -- another module: its block is apart from what was written
          obtain rfl := kept same
          obtain ⟨_, before⟩ := settled.served _ storageListed member other oldListed published
          apply before.agree
          apply whole.agree
          intro region regionListed
          rcases List.mem_append.mp regionListed with block | area
          · cases List.mem_singleton.mp block
            have different : other ≠ module := fun equal => same (equal ▸ rfl)
            have apart : (other.region area.tp).Apart (module.region area.tp) :=
              placed.distinct_apart (by omega) oldListed listed different
            exact apart
          · cases List.mem_singleton.mp area
            exact placed.above_rseq computed (by omega) oldListed

theorem unused_apart {world : World} {region : Region} (unused : world.Unused region)
    {storage : Storage} (listed : storage ∈ world.storages) : region.Apart storage.region := by
  apply unused.2
  exact List.mem_append_left _ (List.mem_append_left _ (List.mem_map_of_mem listed))

/-- Zeroing fresh memory touches no thread's storage. -/
theorem allocZeroed_agree {world : World} {layout : Layout} {ptr size : Nat}
    (unused : world.Unused ⟨ptr, size⟩) (covered : layout.size ≤ size) {storage : Storage}
    (listed : storage ∈ world.storages) :
    (world.runtime.allocZeroed layout ptr).memory.Agree world.runtime.memory storage.region := by
  apply (Runtime.allocZeroed_rewrites world.runtime layout ptr).agree
  intro region member
  cases List.mem_singleton.mp member
  refine (unused_apart unused listed).symm.inside ?_
  exact ⟨Nat.le_refl _, Nat.add_le_add_left covered _⟩

theorem Settled.withArea {world : World} (settled : Settled world)
    (absent : world.runtime.staticTls = none) {base : Nat}
    (unused : world.Unused ⟨base, pageRoundedSize Runtime.arenaLayout⟩) :
    Settled (world.withArea base) := by
  have positive : base ≠ 0 := unused.1
  have storages : World.storages { world with runtime := world.runtime.withArea base } =
      ⟨base + staticTlsArenaSize, base⟩ :: world.storages := World.storages_withArea absent base
  have extended : Settled { world with runtime := world.runtime.withArea base } := by
    refine settled.extend ⟨base + staticTlsArenaSize, base⟩
      (settled.tables.withArea absent positive) rfl (.of_eq storages) ⟨?_, ?_⟩ ?_ rfl ?_
    · exact Nat.pos_of_ne_zero positive
    · exact Nat.le_add_right _ _
    · intro other listed
      rw [Storage.Apart, World.region_arena]
      refine ((unused_apart unused listed).symm.inside ?_).symm
      exact ⟨Nat.le_refl _, Nat.add_le_add_left Runtime.arenaLayout_covered _⟩
    · intro other listed
      exact allocZeroed_agree unused Runtime.arenaLayout_covered listed
  refine ⟨extended.tables, ⟨extended.storages.apart, extended.storages.based, ?_⟩, ?_⟩
  · intro tp member
    rcases List.mem_cons.mp member with rfl | old
    · refine ⟨⟨base + staticTlsArenaSize, base⟩, ?_, rfl⟩
      exact storages ▸ List.mem_cons_self
    · exact extended.storages.stored tp old
  · intro storage _ _ module listed
    rw [show (world.withArea base).runtime.staticModules = [] from
      settled.tables.absent absent] at listed
    cases listed

theorem Settled.registerStatic {world : World} (settled : Settled world) (info : TlsInfo)
    {base : Nat} (installed : Bool) (granted : world.Granted base world.wantedArena) :
    Settled (world.registerStaticAt info base installed) := by
  cases present : world.runtime.staticTls with
  | some area =>
      rw [World.registerStaticAt_known present]
      exact settled.registerIn present info
  | none =>
      have unused : world.Unused ⟨base, pageRoundedSize Runtime.arenaLayout⟩ := by
        rw [World.wantedArena, present] at granted
        exact granted.2
      cases installed with
      | false =>
          rw [World.registerStaticAt_refused present]
          exact settled.frame ⟨rfl, rfl, rfl, rfl⟩ rfl (fun _ member => member)
            fun storage listed => allocZeroed_agree unused Runtime.arenaLayout_covered listed
      | true =>
          rw [World.registerStaticAt_first present]
          exact (settled.withArea present unused).registerIn rfl info

theorem Settled.shrink {world next : World} (settled : Settled world)
    (tables : TablesValid next.runtime)
    (modules : next.runtime.staticModules = world.runtime.staticModules)
    (memory : next.runtime.memory = world.runtime.memory) {kept : List Storage}
    (reordered : next.storages.Perm kept) (sublist : kept.Sublist world.storages)
    (live : ∀ tp ∈ next.live, tp ∈ world.live ∧
      ∀ storage ∈ world.storages, storage.tp = tp → storage ∈ kept) : Settled next := by
  have old : ∀ storage ∈ next.storages, storage ∈ world.storages :=
    fun storage listed => sublist.subset (reordered.mem_iff.mp listed)
  refine ⟨tables, ⟨?_, ?_, ?_⟩, ?_⟩
  · apply (reordered.pairwise_iff fun apart => Std.Symm.symm _ _ apart).mpr
    exact settled.storages.apart.sublist sublist
  · exact fun storage listed => settled.storages.based storage (old storage listed)
  · intro tp member
    obtain ⟨before, stays⟩ := live tp member
    obtain ⟨storage, listed, same⟩ := settled.storages.stored tp before
    exact ⟨storage, reordered.mem_iff.mpr (stays storage listed same), same⟩
  · intro storage listed member
    exact (settled.served storage (old storage listed) (live _ member).1).frame settled.tables
      modules (memory ▸ .refl _ _)

theorem Settled.getAddr {world : World} (settled : Settled world) {tp id tiOffset ptr addr : Nat}
    {next : Runtime} (granted : world.Granted ptr (world.runtime.wantedBlock tp id))
    (accepted : world.runtime.getAddr tp id tiOffset ptr = .ok (addr, next)) :
    Settled { world with runtime := next } := by
  obtain ⟨tables, outside⟩ := Runtime.getAddr_spec accepted
  refine settled.frame tables rfl (fun _ member => member) ?_
  intro storage listed
  apply outside
  intro layout wanted
  rw [wanted] at granted
  refine (unused_apart granted.2 listed).symm.inside ?_
  exact ⟨Nat.le_refl _, Nat.add_le_add_left (Runtime.wantedBlock_covered wanted) _⟩

theorem Settled.provide {world : World} (settled : Settled world) {storage : Storage}
    (based : storage.base ≤ storage.tp) (unused : world.Unused storage.region) :
    Settled { world with
      runtime := world.runtime.allocZeroed ⟨storage.region.size, 1⟩ storage.base
      provided := world.provided ++ [storage] } := by
  have same := (Runtime.allocZeroed_rewrites world.runtime ⟨storage.region.size, 1⟩
    storage.base).sameTables
  refine settled.extend storage (settled.tables.same same) rfl ?_
    ⟨Nat.pos_of_ne_zero unused.1, based⟩ (fun other listed => unused_apart unused listed) rfl ?_
  · change (world.arena ++ _ ++ (world.provided ++ [storage])).Perm _
    rw [← List.append_assoc]
    exact List.perm_append_singleton _ _
  · intro other listed
    exact allocZeroed_agree unused (Nat.le_refl _) listed

theorem Settled.allocate {world : World} (settled : Settled world) {base : Nat}
    {result : Nat × Runtime}
    (granted : world.Granted base (world.runtime.storageLayout.map Prod.snd))
    (accepted : world.runtime.allocate base = .ok result) : Settled (world.addLive result) := by
  cases chosen : world.runtime.storageLayout with
  | none =>
      rw [Runtime.allocate, Runtime.allocateStorage, chosen] at accepted
      cases accepted
      exact settled
  | some pair =>
      obtain ⟨staticSize, layout⟩ := pair
      rw [Runtime.allocate, Runtime.allocateStorage, chosen] at accepted
      rw [chosen] at granted
      obtain ⟨⟨total, computed, reach⟩, size, covered⟩ := Runtime.storageLayout_spec chosen
      have unused : world.Unused ⟨base, pageRoundedSize layout⟩ := granted.2
      let storage : Storage := ⟨base + staticSize, base⟩
      have region : storage.region = ⟨base, layout.size⟩ := by
        simp only [storage, Storage.region, size, Region.mk.injEq, true_and]
        omega
      let allocated : World := { world with runtime := { world.runtime.allocZeroed layout base with
        allocations := world.runtime.allocations ++ [⟨base + staticSize, base, layout⟩] } }
      have tables : TablesValid allocated.runtime :=
        ⟨settled.tables.ids, settled.tables.known, settled.tables.slots, settled.tables.absent,
          settled.tables.area⟩
      have extended : Settled allocated := by
        refine settled.extend storage tables rfl ?_ ⟨?_, ?_⟩ ?_ rfl ?_
        · change (world.arena ++ (world.runtime.allocations ++ [_]).map _ ++ world.provided).Perm _
          rw [List.map_append, List.map_singleton, ← List.append_assoc, List.append_assoc]
          exact List.perm_middle
        · exact Nat.pos_of_ne_zero unused.1
        · exact Nat.le_add_right _ _
        · intro other listed
          rw [Storage.Apart, region]
          refine ((unused_apart unused listed).symm.inside ?_).symm
          exact ⟨Nat.le_refl _, Nat.add_le_add_left covered _⟩
        · intro other listed
          exact allocZeroed_agree unused covered listed
      have listed : storage ∈ allocated.storages := by
        refine List.mem_append_left _ (List.mem_append_right _ ?_)
        exact List.mem_map.mpr ⟨_, List.mem_append_right _ (List.mem_singleton.mpr rfl), rfl⟩
      have roomy : allocated.runtime.Roomy storage := by
        refine ⟨total, computed, ?_⟩
        simp only [storage]
        omega
      exact extended.serve listed roomy accepted

theorem Settled.deallocate {world : World} (settled : Settled world) (tp : Nat)
    (deallocTcb : Bool) :
    Settled { world with
      runtime := world.runtime.dlDeallocateTls tp deallocTcb
      live := world.live.filter fun other => other ≠ tp } := by
  obtain ⟨tcbs, blocks, allocations, result, kept, reordered, sublist, stays⟩ :=
    Runtime.dlDeallocateTls_spec world.runtime tp deallocTcb
  rw [result]
  have tables : TablesValid { world.runtime with
      tcbs := tcbs, dynamicBlocks := blocks, allocations := allocations } :=
    ⟨settled.tables.ids, settled.tables.known, settled.tables.slots, settled.tables.absent,
      settled.tables.area⟩
  refine settled.shrink tables rfl rfl
    (((reordered.map _).append_left world.arena).append_right world.provided)
    (((sublist.map _).append_left world.arena).append_right world.provided) ?_
  intro other member
  obtain ⟨before, different⟩ := List.mem_filter.mp member
  refine ⟨before, ?_⟩
  intro storage listed same
  rcases List.mem_append.mp listed with early | provided
  · rcases List.mem_append.mp early with arena | allocated
    · exact List.mem_append_left _ (List.mem_append_left _ arena)
    · obtain ⟨allocation, allocationListed, rfl⟩ := List.mem_map.mp allocated
      refine List.mem_append_left _ (List.mem_append_right _ ?_)
      refine List.mem_map.mpr ⟨allocation, ?_, rfl⟩
      apply stays allocation allocationListed
      rintro rfl
      simp [← same] at different
  · exact List.mem_append_right _ provided

theorem Settled.reclaim {world : World} (settled : Settled world) {tp : Nat}
    (ended : tp ∉ world.live) :
    Settled { world with provided := world.provided.filter fun storage => storage.tp ≠ tp } := by
  refine settled.shrink settled.tables rfl rfl (.refl _)
    ((List.Sublist.refl _).append List.filter_sublist) ?_
  intro other member
  refine ⟨member, ?_⟩
  intro storage listed same
  rcases List.mem_append.mp listed with early | provided
  · exact List.mem_append_left _ early
  · refine List.mem_append_right _ (List.mem_filter.mpr ⟨provided, ?_⟩)
    apply decide_eq_true
    rintro rfl
    rw [same] at ended
    exact ended member

/-! ## Runs -/

/-- The offset of a static module; `init_tls` wants it repeated. -/
def Runtime.staticOffset (runtime : Runtime) (id : Nat) : Option Int :=
  match runtime.tlsModule id with
  | some (.static _ registered) => some registered
  | some (.dynamic _ _) => none
  | none => none

/-- Static modules are published while only the initial thread exists, and a thread is
initialised only in storage that is large enough for the static layout of the moment. -/
def Timely (world : World) : Action → Prop
  | .registerDynamic _ => True
  | .registerStatic _ _ _ => True
  | .addStatic _ _ => False
  | .initTls _ id offset =>
      offset ≠ none → world.runtime.staticOffset id = offset → ∀ tp ∈ world.live, world.IsInitial tp
  | .unregister _ => True
  | .getAddr _ _ _ _ => True
  | .allocate _ => True
  | .provide _ => True
  | .init tp => ∀ storage ∈ world.storages, storage.tp = tp → world.runtime.Roomy storage
  | .deallocate _ _ => True
  | .reclaim _ => True

instance (runtime : Runtime) (storage : Storage) : Decidable (runtime.Roomy storage) :=
  inferInstanceAs (Decidable (∃ total ∈ staticUsedWithRseq runtime.staticUsedInfo.1,
    total ≤ storage.tp - storage.base))

instance (world : World) (action : Action) : Decidable (Timely world action) :=
  match action with
  | .registerDynamic _ => inferInstanceAs (Decidable True)
  | .registerStatic _ _ _ => inferInstanceAs (Decidable True)
  | .addStatic _ _ => inferInstanceAs (Decidable False)
  | .initTls _ _ _ => inferInstanceAs (Decidable (_ → _ → _))
  | .unregister _ => inferInstanceAs (Decidable True)
  | .getAddr _ _ _ _ => inferInstanceAs (Decidable True)
  | .allocate _ => inferInstanceAs (Decidable True)
  | .provide _ => inferInstanceAs (Decidable True)
  | .init tp => inferInstanceAs (Decidable (∀ storage ∈ world.storages, storage.tp = tp →
      world.runtime.Roomy storage))
  | .deallocate _ _ => inferInstanceAs (Decidable True)
  | .reclaim _ => inferInstanceAs (Decidable True)

theorem settled_new : Settled World.new where
  tables := .new
  storages := {
    apart := .nil
    based := fun _ impossible => by cases impossible
    stored := fun _ impossible => by cases impossible }
  served _ impossible := by cases impossible

theorem settled_initTls {world : World} (settled : Settled world) {source : TlsImageSource}
    {id : Nat} {offset : Option Int} {result : Except TlsError Unit} {next : Runtime}
    (timely : Timely world (.initTls source id offset))
    (accepted : world.runtime.initTlsModule source id offset = .ok (result, next)) :
    Settled { world with runtime := next } := by
  rcases Runtime.initTlsModule_cases accepted with
    rfl | ⟨info, old, slot, rfl⟩ | ⟨info, registered, slot, rfl, initialising⟩
  · exact settled
  · exact settled.retable (settled.tables.replaceDynamic _ slot) rfl rfl rfl
      fun _ listed _ => listed
  · obtain ⟨module, listed, rfl, rfl, rfl⟩ := settled.tables.slots id info registered slot
    have repeated : world.runtime.staticOffset module.id = some module.offset := by
      rw [Runtime.staticOffset, slot]
    exact settled.publish listed slot (timely (Option.some_ne_none _) repeated) initialising

theorem settled_step {world next : World} {action : Action} (settled : Settled world)
    (timely : Timely world action) (step : World.Transition world action next) :
    Settled next := by
  cases step with
  | registerDynamic => exact settled.registerDynamic _
  | registerStatic granted => exact settled.registerStatic _ _ granted
  | addStatic => exact timely.elim
  | initTls accepted => exact settled_initTls settled timely accepted
  | unregister => exact settled.unregister _
  | getAddr _ granted accepted => exact settled.getAddr granted accepted
  | allocate granted accepted => exact settled.allocate granted accepted
  | provide based unused => exact settled.provide based unused
  | init stored accepted =>
      obtain ⟨storage, listed, rfl⟩ := stored
      exact settled.serve listed (timely storage listed rfl) accepted
  | deallocate => exact settled.deallocate _ _
  | reclaim ended => exact settled.reclaim ended

theorem settled_inductive : (World.system.restrict Timely).Inductive Settled where
  initially _ initial := initial ▸ settled_new
  preserved _ _ _ settled step := settled_step settled step.1 (World.transition_of_act step.2)

/-- Every static module that was registered and initialised has its block, filled from
its image, in the storage of every live thread. -/
def World.BlocksReady (world : World) : Prop :=
  ∀ tp ∈ world.live, ∀ id info offset source,
    world.runtime.tlsModule id = some (.static info offset) →
    ⟨id, info, some source, offset⟩ ∈ world.runtime.staticModules →
    (∃ storage ∈ world.storages, storage.tp = tp ∧ (storage.base : Int) ≤ tp + offset ∧
      tp + offset + (info.memsz : Int) ≤ tp) ∧
    ∀ image, source.image = some image → image.length ≤ info.memsz ∧
      world.runtime.memory.Holds (offsetPtr tp offset)
        (image ++ List.replicate (info.memsz - image.length) 0)

theorem Settled.blocksReady {world : World} (settled : Settled world) : world.BlocksReady := by
  intro tp member id info offset source _ listed
  obtain ⟨storage, storageListed, rfl⟩ := settled.storages.stored tp member
  obtain ⟨fits, held⟩ := settled.served storage storageListed member _ listed
    (Option.some_ne_none source)
  obtain ⟨finish, below, size, _⟩ := settled.tables.layout.1.below _ listed
  refine ⟨⟨storage, storageListed, rfl, fits, by simp only at below size; omega⟩, ?_⟩
  intro image published
  obtain ⟨bytes, computed, holds⟩ := held image published
  rw [blockBytes] at computed
  split at computed
  · next shorter =>
      cases computed
      exact ⟨shorter, holds⟩
  · cases computed

theorem static_blocks_ready (world : World)
    (reached : (World.system.restrict Timely).Reachable world) : world.BlocksReady :=
  (settled_inductive.reachable reached).blocksReady

def programTls : TlsInfo := ⟨64, 0, 16⟩
def pluginTls : TlsInfo := ⟨4096, 0, 16⟩
def smallImage : TlsImageSource := ⟨some [1, 2, 3]⟩

/-- The program's module, then a thread. -/
def threadedStart : List Action :=
  [.registerStatic programTls 0x200000 true, .initTls smallImage 1 (some (-64)),
    .allocate 0x400000]

/-- A thread that starts after the publication has the block below its thread pointer. -/
theorem static_blocks_ready_thread :
    ∃ world, (World.system.restrict Timely).Run .new threadedStart world ∧
      0x400080 ∈ world.live ∧ ⟨1, programTls, some smallImage, -64⟩ ∈ world.runtime.staticModules ∧
      world.runtime.memory.Holds 0x400040 ([1, 2, 3] ++ List.replicate 61 0) := by
  have evaluated : (TransitionSystem.runLabels (World.actWhen Timely) .new threadedStart).map
      (fun world => decide (0x400080 ∈ world.live ∧
        world.runtime.tlsModule 1 = some (.static programTls (-64)) ∧
        ⟨1, programTls, some smallImage, -64⟩ ∈ world.runtime.staticModules)) = some true := by
    decide +kernel
  obtain ⟨world, ran, facts⟩ := Option.map_eq_some_iff.mp evaluated
  obtain ⟨member, slot, listed⟩ := of_decide_eq_true facts
  have run := World.run_of_actWhen ran
  have ready := static_blocks_ready world ⟨_, _, rfl, run⟩ 0x400080 member 1 programTls (-64)
    smallImage slot listed
  exact ⟨world, run, member, listed, (ready.2 [1, 2, 3] rfl).2⟩

/-- A library with static storage is loaded while the thread is running. -/
def latePlugin : List Action :=
  threadedStart ++ [.registerStatic pluginTls 0 true, .initTls smallImage 2 (some (-4160))]

theorem late_static_block_outside :
    ∃ world, World.system.Run .new latePlugin world ∧ 0x400080 ∈ world.live ∧
      world.runtime.tlsModule 2 = some (.static pluginTls (-4160)) ∧
      ⟨2, pluginTls, some smallImage, -4160⟩ ∈ world.runtime.staticModules ∧
      (∀ storage ∈ world.storages, storage.tp = 0x400080 →
        (0x400080 - 4160 : Int) < storage.base) ∧
      ¬ world.BlocksReady := by
  have evaluated : (TransitionSystem.runLabels (World.actWhen fun _ _ => True) .new latePlugin).map
      (fun world => decide (0x400080 ∈ world.live ∧
        world.runtime.tlsModule 2 = some (.static pluginTls (-4160)) ∧
        ⟨2, pluginTls, some smallImage, -4160⟩ ∈ world.runtime.staticModules ∧
        ∀ storage ∈ world.storages, storage.tp = 0x400080 →
          (0x400080 - 4160 : Int) < storage.base)) = some true := by
    decide +kernel
  obtain ⟨world, ran, facts⟩ := Option.map_eq_some_iff.mp evaluated
  obtain ⟨member, slot, listed, outside⟩ := of_decide_eq_true facts
  refine ⟨world, (World.run_of_actWhen ran).unrestrict, member, slot, listed, outside, ?_⟩
  intro ready
  obtain ⟨⟨storage, storageListed, same, fits, _⟩, _⟩ :=
    ready _ member 2 pluginTls (-4160) smallImage slot listed
  have low := outside storage storageListed same
  omega

end DynLinker.Tls
