import DynLinker.Tls.StaticBlocks
import DynLinker.Tls.ThreadIsolation

/-! The addresses of thread-local blocks: one for a thread and a module as long as both
are left alone, and none of them shared. -/

set_option autoImplicit false

namespace DynLinker.Tls

open Lib

/-! ## Stability -/

/-- The calls that may move a thread's block of a module. -/
def Disturbs (tp id : Nat) : Action → Prop
  | .registerDynamic _ => False
  | .registerStatic _ _ _ => False
  | .addStatic _ _ => False
  | .initTls _ _ _ => False
  | .unregister other => other = id
  | .getAddr _ _ _ _ => False
  | .allocate _ => False
  | .provide _ => False
  | .init other => other = tp
  | .deallocate other _ => other = tp
  | .reclaim _ => False

/-- The thread is still there, and its block where it was. -/
structure Stays (world next : World) (tp id : Nat) : Prop where
  live : tp ∈ next.live
  place : next.runtime.placement id = world.runtime.placement id
  vector : ∀ info, world.runtime.placement id = some (info, none) →
    next.runtime.dtvValue tp id = world.runtime.dtvValue tp id

namespace Stays

variable {world next : World} {tp id : Nat}

theorem block (stays : Stays world next tp id) :
    next.runtime.block tp id = world.runtime.block tp id := by
  cases place : world.runtime.placement id with
  | none => rw [Runtime.block, Runtime.block, stays.place, place]
  | some module =>
      obtain ⟨info, offset⟩ := module
      cases offset with
      | none => exact Runtime.block_congr stays.place (stays.vector info place)
      | some offset =>
          rw [Runtime.block_static place, Runtime.block_static (stays.place.trans place)]

theorem trans {middle : World} (first : Stays world middle tp id)
    (second : Stays middle next tp id) : Stays world next tp id where
  live := second.live
  place := second.place.trans first.place
  vector info place :=
    (second.vector info (first.place.trans place)).trans (first.vector info place)

theorem refl (live : tp ∈ world.live) : Stays world world tp id :=
  ⟨live, rfl, fun _ _ => rfl⟩

/-- Neither the table of modules nor the thread's vector is touched. -/
theorem of_same (live : tp ∈ next.live) (modules : next.runtime.modules = world.runtime.modules)
    (tcbs : next.runtime.tcbs tp = world.runtime.tcbs tp) : Stays world next tp id :=
  ⟨live, Runtime.placement_same modules id, fun _ _ => Runtime.dtvValue_congr tcbs id⟩

theorem of_append {module : TlsModule} (live : tp ∈ next.live)
    (registered : id ≤ world.runtime.modules.length)
    (appended : next.runtime.modules = world.runtime.modules ++ [some module])
    (tcbs : next.runtime.tcbs tp = world.runtime.tcbs tp) : Stays world next tp id :=
  ⟨live, Runtime.placement_append appended registered, fun _ _ => Runtime.dtvValue_congr tcbs id⟩

theorem registerDynamic (live : tp ∈ world.live) (registered : id ≤ world.runtime.modules.length)
    (info : TlsInfo) :
    Stays world (world.registerWith (world.runtime.registerDynamicModule info)) tp id := by
  cases registering : world.runtime.registerDynamicModule info with
  | error error => exact .refl live
  | ok pair =>
      obtain ⟨other, runtime⟩ := pair
      obtain ⟨_, rfl⟩ := Runtime.registerModule_spec registering
      exact .of_append live registered rfl rfl

theorem registerIn (live : tp ∈ world.live) (registered : id ≤ world.runtime.modules.length)
    (area : StaticTlsArea) (info : TlsInfo) : Stays world (world.registerIn area info) tp id := by
  rw [World.registerIn]
  rcases Runtime.registerStaticIn_cases world.runtime area info with
    ⟨error, failed⟩ | ⟨finish, align, _, succeeded⟩
  · rw [failed]
    exact .refl live
  · rw [succeeded]
    exact .of_append live registered rfl rfl

theorem registerStatic (isolated : Isolated world) (live : tp ∈ world.live)
    (registered : id ≤ world.runtime.modules.length) (info : TlsInfo) {base : Nat}
    (installed : Bool) (granted : world.Granted base world.wantedArena) :
    Stays world (world.registerStaticAt info base installed) tp id := by
  cases present : world.runtime.staticTls with
  | some area =>
      rw [World.registerStaticAt_known present]
      exact registerIn live registered area info
  | none =>
      have unused : world.Unused ⟨base, pageRoundedSize Runtime.arenaLayout⟩ := by
        rw [World.wantedArena, present] at granted
        exact granted.2
      have untouched := isolated.area_live unused.2 live
      cases installed with
      | false =>
          rw [World.registerStaticAt_refused present]
          exact .of_same live rfl untouched
      | true =>
          rw [World.registerStaticAt_first present]
          have joined : tp ∈ (world.withArea base).live := List.mem_cons_of_mem _ live
          have made : Stays world (world.withArea base) tp id := .of_same joined rfl untouched
          exact made.trans (registerIn joined registered _ info)

theorem initTls (isolated : Isolated world) (live : tp ∈ world.live) {source : TlsImageSource}
    {other : Nat} {offset : Option Int} {result : Except TlsError Unit} {runtime : Runtime}
    (accepted : world.runtime.initTlsModule source other offset = .ok (result, runtime)) :
    Stays world { world with runtime := runtime } tp id := by
  rcases Runtime.initTlsModule_cases accepted with
    rfl | ⟨info, old, slot, rfl⟩ | ⟨info, registered, slot, _, initialising⟩
  · exact .refl live
  · exact ⟨live, @Runtime.placement_set _ _ other id (.dynamic info (some source)) _ slot rfl rfl,
      fun _ _ => rfl⟩
  · obtain ⟨module, listed, rfl, rfl, rfl⟩ := isolated.tables.slots other info registered slot
    cases made : world.runtime.staticTls with
    | none =>
        rw [isolated.tables.absent made] at listed
        cases listed
    | some area =>
        obtain ⟨middle, initialised, rfl⟩ := Runtime.initStaticTls_spec isolated.tables.ids listed
          slot made initialising
        obtain ⟨memory, same⟩ := middle.initRseqArea_eq area.tp area.used
        obtain ⟨⟨_, _, written⟩, others, kept, _⟩ := Runtime.initStaticTlsModule_stores initialised
        rw [same]
        have places : (world.runtime.withSource module source).placement id =
            world.runtime.placement id := Runtime.placement_set slot rfl rfl
        refine ⟨live, ?_, ?_⟩
        · rw [← places]
          exact Runtime.placement_same (by rw [written]) id
        · intro segment dynamic
          by_cases this : tp = area.tp
          · have different : id ≠ module.id := by
              rintro rfl
              cases (isolated.listed module listed).symm.trans dynamic
            rw [this]
            exact kept id different
          · exact Runtime.dtvValue_congr (others tp this) id

theorem getAddr (isolated : Isolated world) (live : tp ∈ world.live)
    (present : world.runtime.block tp id ≠ none) {thread other tiOffset ptr addr : Nat}
    {runtime : Runtime} (granted : world.Granted ptr (world.runtime.wantedBlock thread other))
    (accepted : world.runtime.getAddr thread other tiOffset ptr = .ok (addr, runtime)) :
    Stays world { world with runtime := runtime } tp id := by
  cases Runtime.getAddr_answers accepted with
  | null => exact .refl live
  | static _ _ => exact .refl live
  | known _ _ => exact .refl live
  | filled _ _ empty wanted _ filling =>
      rw [wanted] at granted
      have untouched := isolated.allocZeroed_live granted.2.2 (Runtime.wantedBlock_covered wanted)
        live
      rcases Runtime.fillDynamicBlock_vectors filling with
        ⟨memory, leaked, _, rfl, _⟩ | ⟨stored, _, ⟨memory, tcbs, rfl⟩, rfl, others, older, _⟩
      · exact .of_same live rfl untouched
      · refine ⟨live, rfl, ?_⟩
        intro segment dynamic
        by_cases sameThread : tp = thread
        · subst sameThread
          by_cases sameModule : id = other
          · -- a block is only made where there is none
            subst sameModule
            rw [Runtime.block_dynamic dynamic, empty] at present
            exact absurd rfl present
          · exact (older id sameModule).trans (Runtime.dtvValue_congr untouched id)
        · exact Runtime.dtvValue_congr ((others tp sameThread).trans untouched) id

theorem unregister (live : tp ∈ world.live) {other : Nat} (different : id ≠ other) :
    Stays world { world with runtime := world.runtime.unregisterModule other } tp id := by
  rw [Runtime.unregisterModule]
  split
  · exact .refl live
  · next positive =>
      exact ⟨live, Runtime.placement_set_ne positive rfl different, fun _ _ => rfl⟩

theorem init (isolated : Isolated world) (live : tp ∈ world.live) {other : Nat}
    {result : Nat × Runtime} (different : tp ≠ other) (stored : world.HasStorage other)
    (accepted : world.runtime.init other = .ok result) :
    Stays world (world.addLive result) tp id := by
  obtain ⟨_, ⟨_, _, written⟩, others, _⟩ :=
    Runtime.init_vectors (isolated.nonnull stored) accepted
  refine .of_same ?_ (by rw [World.addLive, written]) (others tp different)
  rw [World.addLive]
  split
  · exact live
  · exact List.mem_cons_of_mem _ live

theorem allocate (isolated : Isolated world) (live : tp ∈ world.live) {base : Nat}
    {result : Nat × Runtime}
    (granted : world.Granted base (world.runtime.storageLayout.map Prod.snd))
    (accepted : world.runtime.allocate base = .ok result) :
    Stays world (world.addLive result) tp id := by
  cases chosen : world.runtime.storageLayout with
  | none =>
      rw [Runtime.allocate, Runtime.allocateStorage, chosen] at accepted
      cases accepted
      exact .refl live
  | some pair =>
      obtain ⟨staticSize, layout⟩ := pair
      rw [Runtime.allocate, Runtime.allocateStorage, chosen] at accepted
      rw [chosen] at granted
      obtain ⟨_, size, covered⟩ := Runtime.storageLayout_spec chosen
      have fresh := Isolated.fresh_inside granted.2.2 covered
      have away := isolated.live_outside fresh live
      have different : tp ≠ base + staticSize := by
        rintro rfl
        refine away ⟨Nat.le_add_right _ _, ?_⟩
        rw [size]
        exact Nat.add_lt_add_left (by simp [tlsTcbSize]) _
      have nonnull : base + staticSize ≠ 0 := by
        have positive : base ≠ 0 := granted.2.1
        omega
      obtain ⟨_, ⟨_, _, written⟩, others, _⟩ := Runtime.init_vectors nonnull accepted
      refine .of_same ?_ (by rw [World.addLive, written]; rfl)
        ((others tp different).trans (Runtime.allocZeroed_tcbs away))
      rw [World.addLive]
      split
      · exact live
      · exact List.mem_cons_of_mem _ live

theorem deallocate (isolated : Isolated world) (live : tp ∈ world.live) {other : Nat}
    (different : tp ≠ other) (stored : world.HasStorage other) (deallocTcb : Bool) :
    Stays world { world with
      runtime := world.runtime.dlDeallocateTls other deallocTcb
      live := world.live.filter fun thread => thread ≠ other } tp id := by
  obtain ⟨others, _⟩ :=
    world.runtime.dlDeallocateTls_vectors (isolated.nonnull stored) deallocTcb
  obtain ⟨_, _, _, result, _⟩ := world.runtime.dlDeallocateTls_spec other deallocTcb
  refine .of_same (List.mem_filter.mpr ⟨live, decide_eq_true different⟩) ?_ (others tp different)
  rw [result]

/-- One call that leaves the thread and the module alone. -/
theorem of_step {action : Action} (isolated : Isolated world) (live : tp ∈ world.live)
    (present : world.runtime.block tp id ≠ none) (room : RoomFor world action)
    (undisturbed : ¬ Disturbs tp id action) (step : World.Transition world action next) :
    Stays world next tp id := by
  have registered : id ≤ world.runtime.modules.length := by
    cases place : world.runtime.placement id with
    | none =>
        rw [Runtime.block, place] at present
        exact absurd rfl present
    | some module => exact Runtime.placement_bounded place
  cases step with
  | registerDynamic => exact registerDynamic live registered _
  | registerStatic granted => exact registerStatic isolated live registered _ _ granted
  | addStatic => exact room.elim
  | initTls accepted => exact initTls isolated live accepted
  | unregister => exact unregister live (Ne.symm undisturbed)
  | getAddr _ granted accepted => exact getAddr isolated live present granted accepted
  | allocate granted accepted => exact allocate isolated live granted accepted
  | provide based unused =>
      exact .of_same live rfl (isolated.allocZeroed_live unused.2 (Nat.le_refl _) live)
  | init stored accepted => exact init isolated live (Ne.symm undisturbed) stored accepted
  | deallocate stored => exact deallocate isolated live (Ne.symm undisturbed) stored _
  | reclaim _ => exact .of_same live rfl rfl

end Stays

theorem block_stays {world next : World} {tp id : Nat} {region : Region} {actions : List Action}
    (isolated : Isolated world) (live : tp ∈ world.live)
    (present : world.runtime.block tp id = some region)
    (undisturbed : ∀ action ∈ actions, ¬ Disturbs tp id action)
    (run : (World.system.restrict RoomFor).Run world actions next) :
    Isolated next ∧ tp ∈ next.live ∧ next.runtime.block tp id = some region := by
  induction run with
  | refl => exact ⟨isolated, live, present⟩
  | @snoc middle finish early action _ step ih =>
      obtain ⟨before, alive, there⟩ := ih fun other listed =>
        undisturbed other (List.mem_append_left _ listed)
      have last := undisturbed action (List.mem_append_right _ (List.mem_singleton.mpr rfl))
      have stays := Stays.of_step before alive (by rw [there]; exact Option.some_ne_none _) step.1
        last (World.transition_of_act step.2)
      exact ⟨isolated_inductive.preserved _ _ _ before step, stays.live, stays.block.trans there⟩

/-! ## Isolation -/

/-- A live thread's block is part of its storage or of a block of its own. -/
inductive Lies (world : World) (tp id : Nat) (region : Region) : Prop where
  | below {module : StaticTlsModule} {storage : Storage} :
      module ∈ world.runtime.staticModules → module.id = id → region = module.region tp →
      storage ∈ world.storages → storage.tp = tp → region.Inside storage.region →
      Lies world tp id region
  | own {info : TlsInfo} {block : DynamicTlsBlock} :
      world.runtime.placement id = some (info, none) →
      world.runtime.dtvValue tp id = some block.ptr → block ∈ world.runtime.dynamicBlocks →
      block.tp = tp → region.Inside ⟨block.ptr, pageRoundedSize block.layout⟩ →
      Lies world tp id region

namespace Isolated

variable {world : World} {tp id : Nat} {region : Region}

theorem lies (isolated : Isolated world) (live : tp ∈ world.live)
    (present : world.runtime.block tp id = some region) : Lies world tp id region := by
  have thread := isolated.threads tp live
  cases place : world.runtime.placement id with
  | none =>
      rw [Runtime.block, place] at present
      cases present
  | some pair =>
      obtain ⟨info, offset⟩ := pair
      cases offset with
      | none =>
          rw [Runtime.block_dynamic place] at present
          obtain ⟨value, found, rfl⟩ := Option.map_eq_some_iff.mp present
          obtain ⟨block, listed, own, rfl, large⟩ := thread.dynamic id info value place found
          refine .own place found listed own ⟨Nat.le_refl _, ?_⟩
          simp only
          omega
      | some offset =>
          rw [Runtime.block_static place] at present
          cases present
          rcases Runtime.placement_eq_some_iff.mp place with ⟨_, impossible, _⟩ | ⟨_, same, slot⟩
          · cases impossible
          · cases same
            obtain ⟨module, listed, rfl, rfl, rfl⟩ := isolated.tables.slots id info offset slot
            obtain ⟨storage, stored, rfl, reach⟩ := thread.stored
            obtain ⟨finish, below, size, bounded⟩ := isolated.tables.layout.1.below module listed
            have based := isolated.based storage stored
            refine .below listed rfl rfl stored rfl ?_
            simp only [Region.Inside, offsetPtr, Storage.region]
            omega

theorem inside_apart {left right outer other : Region} (apart : outer.Apart other)
    (leftInside : left.Inside outer) (rightInside : right.Inside other) : left.Apart right :=
  ((apart.inside rightInside).symm.inside leftInside).symm

theorem blocks_isolated (isolated : Isolated world) {thread module : Nat} {otherRegion : Region}
    (live : tp ∈ world.live) (otherLive : thread ∈ world.live)
    (different : (tp, id) ≠ (thread, module)) (present : world.runtime.block tp id = some region)
    (otherPresent : world.runtime.block thread module = some otherRegion) :
    region.Apart otherRegion := by
  cases isolated.lies live present with
  | @below first storage listed ids place stored own inside =>
      cases isolated.lies otherLive otherPresent with
      | @below second otherStorage otherListed otherIds otherPlace otherStored otherOwn otherInside =>
          by_cases same : storage = otherStorage
          · -- the same thread, so two modules
            have thread_eq : tp = thread := own.symm.trans (same ▸ otherOwn)
            have modules : first ≠ second := by
              rintro rfl
              exact different (by rw [thread_eq, ← ids, ← otherIds])
            have reach := isolated.tables.layout.1
            obtain ⟨wide, _, ownTp, room⟩ := (isolated.threads tp live).stored
            rw [place, otherPlace, ← thread_eq]
            exact reach.distinct_apart (by omega) listed otherListed modules
          · exact inside_apart (isolated.storages_apart stored otherStored same) inside otherInside
      | own _ _ otherListed _ otherInside =>
          exact inside_apart (isolated.storage_block_apart stored otherListed) inside otherInside
  | @own info block place found listed own inside =>
      cases isolated.lies otherLive otherPresent with
      | below _ _ _ otherStored _ otherInside =>
          exact inside_apart (isolated.storage_block_apart otherStored listed).symm inside
            otherInside
      | @own otherInfo otherBlock otherPlace otherFound otherListed otherOwn otherInside =>
          have blocks : block ≠ otherBlock := by
            rintro rfl
            obtain rfl : tp = thread := own.symm.trans otherOwn
            exact different (by rw [(isolated.threads tp live).distinct id module info otherInfo
              block.ptr place otherPlace found otherFound])
          exact inside_apart (isolated.blocks_apart listed otherListed blocks) inside otherInside

end Isolated

/-! ## Addresses -/

namespace World

/-- A call of `get_addr` with its answer, `0` for null. -/
def Answer (world : World) (tp id tiOffset ptr addr : Nat) (next : World) : Prop :=
  (tp = 0 ∨ tp ∈ world.live) ∧ world.Granted ptr (world.runtime.wantedBlock tp id) ∧
    ∃ runtime, world.runtime.getAddr tp id tiOffset ptr = .ok (addr, runtime) ∧
      next = { world with runtime := runtime }

/-- Two blocks, of different threads or different modules, do not overlap. -/
def BlocksApart (world : World) : Prop :=
  ∀ tp ∈ world.live, ∀ thread ∈ world.live, ∀ id module region other,
    (tp, id) ≠ (thread, module) → world.runtime.block tp id = some region →
    world.runtime.block thread module = some other → region.Apart other

/-- The soft address of a registered module is null, or the base of the block. -/
def SoftAgrees (world : World) : Prop :=
  ∀ tp ∈ world.live, ∀ id, world.runtime.tlsModule id ≠ none →
    world.runtime.getAddrSoft tp id = 0 ∨
      ∃ region, world.runtime.block tp id = some region ∧
        world.runtime.getAddrSoft tp id = region.base

/-- Once `get_addr` answered, the block stays, and every later answer lies in it, until
the thread is initialised or deallocated or the module goes. -/
def AnswersStable (world : World) : Prop :=
  ∀ tp id tiOffset ptr addr next, world.Answer tp id tiOffset ptr addr next → addr ≠ 0 →
    ∃ region, next.runtime.block tp id = some region ∧ addr = region.base + tiOffset ∧
      ∀ actions later, (system.restrict RoomFor).Run next actions later →
        (∀ action ∈ actions, ¬ Disturbs tp id action) →
        later.runtime.block tp id = some region ∧
          ∀ laterOffset laterPtr laterAddr final,
            later.Answer tp id laterOffset laterPtr laterAddr final →
            laterAddr = 0 ∨ laterAddr = region.base + laterOffset

end World

namespace Isolated

variable {world next : World} {tp id tiOffset ptr addr : Nat}

theorem softAgrees (isolated : Isolated world) : world.SoftAgrees := by
  intro tp live id registered
  have nonnull := isolated.nonnull (isolated.hasStorage live)
  rw [Runtime.getAddrSoft, if_neg nonnull]
  cases found : world.runtime.dtvValue tp id with
  | none => exact .inl rfl
  | some value =>
      right
      cases slot : world.runtime.tlsModule id with
      | none => exact absurd slot registered
      | some module =>
          cases module with
          | dynamic info source =>
              have place := Runtime.placement_eq_some_iff.mpr (.inl ⟨source, rfl, slot⟩)
              refine ⟨⟨value, info.memsz⟩, ?_, rfl⟩
              rw [Runtime.block_dynamic place, found]
              rfl
          | static info offset =>
              have place := Runtime.placement_eq_some_iff.mpr (.inr ⟨offset, rfl, slot⟩)
              refine ⟨_, Runtime.block_static place, ?_⟩
              exact (isolated.threads tp live).static id info offset value place found

/-- A non-null answer lies in the block that the thread has from then on. -/
theorem answer_block (answered : world.Answer tp id tiOffset ptr addr next) (nonnull : addr ≠ 0) :
    ∃ region, next.runtime.block tp id = some region ∧ addr = region.base + tiOffset := by
  obtain ⟨_, granted, runtime, accepted, rfl⟩ := answered
  cases Runtime.getAddr_answers accepted with
  | null => exact absurd rfl nonnull
  | static slot _ =>
      have place := Runtime.placement_eq_some_iff.mpr (.inr ⟨_, rfl, slot⟩)
      exact ⟨_, Runtime.block_static place, rfl⟩
  | @known info _ block slot found =>
      have place := Runtime.placement_eq_some_iff.mpr (.inl ⟨_, rfl, slot⟩)
      refine ⟨⟨block, info.memsz⟩, ?_, rfl⟩
      rw [Runtime.block_dynamic place, found]
      rfl
  | @filled info _ _ _ _ slot _ _ wanted _ filling =>
      have place := Runtime.placement_eq_some_iff.mpr (.inl ⟨_, rfl, slot⟩)
      rw [wanted] at granted
      rcases Runtime.fillDynamicBlock_vectors filling with
        ⟨_, _, rfl, _⟩ | ⟨stored, rfl, ⟨_, _, rfl⟩, rfl, _, _, own⟩
      · exact absurd rfl nonnull
      · rw [if_neg granted.2.1] at own
        refine ⟨⟨ptr, info.memsz⟩, Eq.trans (@Runtime.block_dynamic _ tp id info place) ?_, rfl⟩
        rw [own]
        rfl

/-- Where there is a block, `get_addr` answers with it. -/
theorem answer_known {region : Region} (present : world.runtime.block tp id = some region)
    (answered : world.Answer tp id tiOffset ptr addr next) :
    addr = 0 ∨ addr = region.base + tiOffset := by
  obtain ⟨_, granted, runtime, accepted, rfl⟩ := answered
  cases Runtime.getAddr_answers accepted with
  | null => exact .inl rfl
  | static slot _ =>
      rw [Runtime.block_static (Runtime.placement_eq_some_iff.mpr (.inr ⟨_, rfl, slot⟩))] at present
      cases present
      exact .inr rfl
  | known slot found =>
      rw [Runtime.block_dynamic (Runtime.placement_eq_some_iff.mpr (.inl ⟨_, rfl, slot⟩)),
        found] at present
      cases present
      exact .inr rfl
  | filled slot _ empty _ _ _ =>
      rw [Runtime.block_dynamic (Runtime.placement_eq_some_iff.mpr (.inl ⟨_, rfl, slot⟩)),
        empty] at present
      cases present

theorem answersStable (isolated : Isolated world) : world.AnswersStable := by
  intro tp id tiOffset ptr addr next answered nonnull
  obtain ⟨region, present, found⟩ := answer_block answered nonnull
  refine ⟨region, present, found, ?_⟩
  intro actions later run undisturbed
  obtain ⟨live, granted, runtime, accepted, rfl⟩ := answered
  have member := live.resolve_left ((Runtime.getAddr_answers accepted).nonnull nonnull)
  obtain ⟨_, _, there⟩ := block_stays (isolated.getAddr live granted accepted) member present
    undisturbed run
  exact ⟨there, fun _ _ _ _ => answer_known there⟩

end Isolated

/-- Over any number of threads and modules, as long as there is room: the blocks of
different threads and modules are apart, the soft address is the hard one or null, and an
address stays what it is while its thread and its module are left alone. -/
theorem tls_addresses_isolated (world : World)
    (reached : (World.system.restrict RoomFor).Reachable world) :
    world.BlocksApart ∧ world.SoftAgrees ∧ world.AnswersStable := by
  have isolated := isolated_inductive.reachable reached
  refine ⟨?_, isolated.softAgrees, isolated.answersStable⟩
  intro tp live thread otherLive id module region other different present otherPresent
  exact isolated.blocks_isolated live otherLive different present otherPresent

/-- Two threads that both use a dynamic module. -/
def sharedPlugin : List Action :=
  threadedStart ++ [.registerDynamic pluginTls, .initTls smallImage 2 none,
    .getAddr 0x300000 2 0 0x600000, .getAddr 0x400080 2 8 0x700000]

theorem tls_addresses_isolated_shared :
    ∃ world, (World.system.restrict RoomFor).Run .new sharedPlugin world ∧
      world.runtime.block 0x400080 1 = some ⟨0x400040, 64⟩ ∧
      world.runtime.block 0x300000 2 = some ⟨0x600000, 4096⟩ ∧
      world.runtime.block 0x400080 2 = some ⟨0x700000, 4096⟩ ∧
      world.BlocksApart ∧ world.SoftAgrees ∧ world.AnswersStable := by
  have evaluated : (TransitionSystem.runLabels (World.actWhen RoomFor) .new sharedPlugin).map
      (fun world => decide (world.runtime.block 0x400080 1 = some ⟨0x400040, 64⟩ ∧
        world.runtime.block 0x300000 2 = some ⟨0x600000, 4096⟩ ∧
        world.runtime.block 0x400080 2 = some ⟨0x700000, 4096⟩)) = some true := by
    decide +kernel
  obtain ⟨world, ran, facts⟩ := Option.map_eq_some_iff.mp evaluated
  obtain ⟨static, first, second⟩ := of_decide_eq_true facts
  have run := World.run_of_actWhen ran
  exact ⟨world, run, static, first, second, tls_addresses_isolated world ⟨_, _, rfl, run⟩⟩

/-- A library with static storage is loaded while two threads run in neighbouring pages. -/
def lateStatic : List Action :=
  [.registerStatic programTls 0x200000 true, .allocate 0x400000, .allocate 0x3ff000,
    .registerStatic pluginTls 0 true]

/-- The library's block of one thread covers the program's block of the other. -/
theorem tls_blocks_overlap :
    ∃ world, World.system.Run .new lateStatic world ∧
      world.Answer 0x400080 2 0 0 0x3ff040 world ∧ world.Answer 0x3ff080 1 0 0 0x3ff040 world ∧
      ¬ world.BlocksApart := by
  have evaluated : (TransitionSystem.runLabels (World.actWhen fun _ _ => True) .new lateStatic).map
      (fun world => decide (0x400080 ∈ world.live ∧ 0x3ff080 ∈ world.live ∧
        world.runtime.tlsModule 1 = some (.static programTls (-64)) ∧
        world.runtime.tlsModule 2 = some (.static pluginTls (-4160)) ∧
        world.runtime.block 0x400080 2 = some ⟨0x3ff040, 4096⟩ ∧
        world.runtime.block 0x3ff080 1 = some ⟨0x3ff040, 64⟩)) = some true := by
    decide +kernel
  obtain ⟨world, ran, facts⟩ := Option.map_eq_some_iff.mp evaluated
  obtain ⟨live, otherLive, program, plugin, late, early⟩ := of_decide_eq_true facts
  refine ⟨world, (World.run_of_actWhen ran).unrestrict, ?_, ?_, ?_⟩
  · refine ⟨.inr live, ?_, world.runtime, ?_, rfl⟩
    · rw [Runtime.wantedBlock, plugin]
      trivial
    · rw [Runtime.getAddr, plugin]
      rfl
  · refine ⟨.inr otherLive, ?_, world.runtime, ?_, rfl⟩
    · rw [Runtime.wantedBlock, program]
      trivial
    · rw [Runtime.getAddr, program]
      rfl
  · intro apart
    have impossible := apart _ live _ otherLive 2 1 _ _ (by decide) late early
    revert impossible
    decide

end DynLinker.Tls
