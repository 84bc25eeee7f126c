import DynLinker.Tls.ControlBlocks
import DynLinker.Tls.WorldProperties

/-! How many modules the tables can serve. Ids come from the length of a vector that
only grows, a dynamic thread vector has a fixed number of slots, and the arena's cursor
never moves back: what counts is every module that was ever registered. -/

set_option autoImplicit false

namespace DynLinker.Tls

open Lib

/-- The cursor after one more module. -/
def moduleEnd (used : Nat) (info : TlsInfo) : Option Nat := do
  let align ← checkedNextPowerOfTwo usizeBits (max info.align 1)
  staticModuleEnd used info.memsz info.vaddr align

/-- The cursor of an empty arena after these modules, in order. -/
def layoutEnd (infos : List TlsInfo) : Option Nat := infos.foldlM moduleEnd 0

/-- The modules fit the arena, together with the rseq area. -/
def FitsArena (infos : List TlsInfo) : Prop :=
  ∃ total ∈ (layoutEnd infos).bind staticUsedWithRseq, total ≤ staticTlsArenaSize

instance (infos : List TlsInfo) : Decidable (FitsArena infos) :=
  inferInstanceAs (Decidable (∃ total ∈ (layoutEnd infos).bind staticUsedWithRseq,
    total ≤ staticTlsArenaSize))

theorem layoutEnd_append {infos : List TlsInfo} {used : Nat} (info : TlsInfo)
    (laidOut : layoutEnd infos = some used) :
    layoutEnd (infos ++ [info]) = moduleEnd used info := by
  rw [layoutEnd] at laidOut
  rw [layoutEnd, List.foldlM_append, laidOut]
  simp

namespace Runtime

theorem layoutEnd_of_placeStatic {infos : List TlsInfo} {info : TlsInfo}
    {used finish align : Nat} (laidOut : layoutEnd infos = some used)
    (placing : placeStatic used info = some (finish, align)) :
    layoutEnd (infos ++ [info]) = some finish := by
  obtain ⟨rounding, computed, _⟩ := placeStatic_eq_some_iff.mp placing
  rw [layoutEnd_append info laidOut]
  exact Option.bind_eq_some_iff.mpr ⟨_, rounding, computed⟩

theorem placeStatic_of_fitsArena {infos : List TlsInfo} {info : TlsInfo} {used : Nat}
    (laidOut : layoutEnd infos = some used) (fits : FitsArena (infos ++ [info])) :
    ∃ finish align, placeStatic used info = some (finish, align) := by
  obtain ⟨total, computed, bounded⟩ := fits
  obtain ⟨finish, ending, computed⟩ := Option.bind_eq_some_iff.mp computed
  rw [layoutEnd_append info laidOut] at ending
  obtain ⟨align, rounding, ending⟩ := Option.bind_eq_some_iff.mp ending
  exact ⟨finish, align, placeStatic_eq_some_iff.mpr ⟨rounding, ending, total, computed, bounded⟩⟩

theorem registerStaticIn_total {runtime : Runtime} {area : StaticTlsArea} {info : TlsInfo}
    {finish align : Nat} (placing : placeStatic area.used info = some (finish, align))
    (counted : runtime.modules.length + 1 < 2 ^ usizeBits) :
    (runtime.registerStaticIn area info).1 =
      .ok (runtime.modules.length + 1, -(finish : Int)) := by
  rw [registerStaticIn, placing]
  simp only [registerModule, checkedAdd, if_pos counted]

def infoOf (runtime : Runtime) (id : Nat) : Option TlsInfo :=
  match runtime.tlsModule id with
  | some (.dynamic info _) => some info
  | some (.static info _) => some info
  | none => none

/-- The module is registered and `init_tls` gave it an image source. -/
def Initialised (runtime : Runtime) (id : Nat) : Prop :=
  match runtime.tlsModule id with
  | some (.dynamic _ source) => source ≠ none
  | some (.static _ _) => ∃ module ∈ runtime.staticModules, module.id = id ∧ module.source ≠ none
  | none => False

end Runtime

/-! ## Runs -/

/-- The calls that are allowed when `count` modules and these static modules take up
resources: the new module gets a slot and a place, what it asks for can be laid out,
images can be read and fit, and the kernel accepts the first thread pointer. -/
def Admits (count : Nat) (statics : List TlsInfo) (world : World) : Action → Prop
  | .registerDynamic info => count < dtvSlotCount ∧ (Runtime.blockLayout info).isSome
  | .registerStatic info _ installed =>
      FitsArena (statics ++ [info]) ∧ world.registered + 1 < 2 ^ usizeBits ∧ installed = true
  | .addStatic _ _ => False
  | .initTls source id _ =>
      ∃ image ∈ source.image, ∀ info ∈ world.runtime.infoOf id, image.length ≤ info.memsz
  | .unregister _ => True
  | .getAddr _ _ _ _ => True
  | .allocate _ => True
  | .provide _ => True
  | .init _ => True
  | .deallocate _ _ => True
  | .reclaim _ => True

instance (count : Nat) (statics : List TlsInfo) (world : World) (action : Action) :
    Decidable (Admits count statics world action) :=
  match action with
  | .registerDynamic _ => inferInstanceAs (Decidable (_ ∧ _))
  | .registerStatic _ _ _ => inferInstanceAs (Decidable (_ ∧ _ ∧ _))
  | .addStatic _ _ => inferInstanceAs (Decidable False)
  | .initTls source id _ => inferInstanceAs (Decidable (∃ image ∈ source.image,
      ∀ info ∈ world.runtime.infoOf id, image.length ≤ info.memsz))
  | .unregister _ => inferInstanceAs (Decidable True)
  | .getAddr _ _ _ _ => inferInstanceAs (Decidable True)
  | .allocate _ => inferInstanceAs (Decidable True)
  | .provide _ => inferInstanceAs (Decidable True)
  | .init _ => inferInstanceAs (Decidable True)
  | .deallocate _ _ => inferInstanceAs (Decidable True)
  | .reclaim _ => inferInstanceAs (Decidable True)

/-- The modules that are registered now have room. -/
def AdmitsNow (world : World) (action : Action) : Prop :=
  world.runtime.modules.countP Option.isSome < dtvSlotCount ∧
    Admits (world.runtime.modules.countP Option.isSome)
      (world.runtime.staticModules.map StaticTlsModule.info) world action

instance (world : World) (action : Action) : Decidable (AdmitsNow world action) :=
  inferInstanceAs (Decidable (_ ∧ _))

/-- All modules that were ever registered have room, the unregistered ones included. -/
def AdmitsEver (world : World) (action : Action) : Prop :=
  Admits world.registered world.staticHistory world action

instance (world : World) (action : Action) : Decidable (AdmitsEver world action) :=
  inferInstanceAs (Decidable (Admits _ _ _ _))

/-- Every allowed `register_static` succeeds, and every initialised module has an address
on every thread whose control block is initialised. -/
structure World.Available (admits : World → Action → Prop) (world : World) : Prop where
  registers : ∀ info base installed, admits world (.registerStatic info base installed) →
    ∃ placed, (world.runtime.registerStaticModule info base installed).1 = .ok placed
  addresses : ∀ tp id tiOffset ptr, world.runtime.Initialised id → world.HasStorage tp →
    staticTlsArenaSize < tp → (world.runtime.tcbs tp).dtv ≠ none →
    world.Granted ptr (world.runtime.wantedBlock tp id) →
    ∃ addr next, world.runtime.getAddr tp id tiOffset ptr = .ok (addr, next) ∧ addr ≠ 0

def SlotValid (id : Nat) : TlsModule → Prop
  | .dynamic info source => id ≤ dtvSlotCount ∧ (Runtime.blockLayout info).isSome ∧
      ∀ given ∈ source, ∃ image ∈ given.image, image.length ≤ info.memsz
  | .static _ offset => -(staticTlsArenaSize : Int) ≤ offset

/-- The tables follow from the history. -/
structure Accounted (world : World) : Prop where
  counted : world.runtime.modules.length = world.registered
  laidOut : layoutEnd world.staticHistory = some world.runtime.staticUsedInfo.1
  sized : world.runtime.Sized
  provided : ∀ storage ∈ world.provided, storage.base ≤ storage.tp
  slots : ∀ id module, world.runtime.tlsModule id = some module → SlotValid id module

namespace Accounted

variable {world : World}

theorem quiet (accounted : Accounted world) {next : World}
    (quiet : world.runtime.Quiet next.runtime) (registered : next.registered = world.registered)
    (history : next.staticHistory = world.staticHistory)
    (provided : ∀ storage ∈ next.provided, storage.base ≤ storage.tp) : Accounted next := by
  refine ⟨?_, ?_, quiet.sized accounted.sized, provided, ?_⟩
  · rw [quiet.modules, registered]
    exact accounted.counted
  · rw [history, Runtime.staticUsedInfo, quiet.staticTls]
    exact accounted.laidOut
  · intro id module found
    rw [quiet.tlsModule] at found
    exact accounted.slots id module found

/-- A slot gets another module, or none. -/
theorem setSlot (accounted : Accounted world) {id : Nat} {slot : Option TlsModule}
    {statics : List StaticTlsModule} (positive : id ≠ 0)
    (valid : ∀ module ∈ slot, SlotValid id module) :
    Accounted { world with runtime := { world.runtime with
      modules := world.runtime.modules.set (id - 1) slot, staticModules := statics } } := by
  refine ⟨?_, accounted.laidOut, ⟨accounted.sized.dtvs, accounted.sized.storages⟩,
    accounted.provided, ?_⟩
  · rw [List.length_set]
    exact accounted.counted
  · intro other module found
    rw [Runtime.tlsModule] at found
    by_cases same : other = id
    · rw [same, Runtime.slotAt_set_self _ _ positive] at found
      split at found
      · rw [same]
        exact valid module found
      · cases found
    · rw [Runtime.slotAt_set_ne _ _ positive same] at found
      exact accounted.slots other module found

theorem unregister (accounted : Accounted world) (id : Nat) :
    Accounted { world with runtime := world.runtime.unregisterModule id } := by
  rw [Runtime.unregisterModule]
  split
  · exact accounted
  · next positive =>
      refine accounted.setSlot positive ?_
      intro module impossible
      cases impossible

theorem registerDynamic (accounted : Accounted world) {info : TlsInfo}
    (admitted : AdmitsEver world (.registerDynamic info)) :
    Accounted (world.registerWith (world.runtime.registerDynamicModule info)) := by
  cases registering : world.runtime.registerDynamicModule info with
  | error error => exact accounted
  | ok pair =>
      obtain ⟨id, next⟩ := pair
      obtain ⟨_, rfl⟩ := Runtime.registerModule_spec registering
      refine ⟨?_, accounted.laidOut, ⟨accounted.sized.dtvs, accounted.sized.storages⟩,
        accounted.provided, ?_⟩
      · simp only [World.registerWith, List.length_append, List.length_singleton,
          accounted.counted]
      · intro other module found
        rw [Runtime.tlsModule, World.registerWith, Runtime.slotAt_append] at found
        split at found
        · next new =>
            cases found
            have count := admitted.1
            rw [← accounted.counted] at count
            refine ⟨new ▸ count, admitted.2, ?_⟩
            intro given impossible
            cases impossible
        · exact accounted.slots other module found

theorem initTls (accounted : Accounted world) {source : TlsImageSource} {id : Nat}
    {offset : Option Int} {result : Except TlsError Unit} {next : Runtime}
    (admitted : AdmitsEver world (.initTls source id offset))
    (accepted : world.runtime.initTlsModule source id offset = .ok (result, next)) :
    Accounted { world with runtime := next } := by
  obtain ⟨image, readable, fits⟩ := admitted
  rcases Runtime.initTlsModule_cases accepted with
    rfl | ⟨info, old, slot, rfl⟩ | ⟨info, registered, slot, _, initialising⟩
  · exact accounted
  · obtain ⟨bounded, laid, _⟩ := accounted.slots id _ slot
    obtain ⟨positive, _⟩ := Runtime.bounded_of_tlsModule slot
    refine accounted.setSlot positive ?_
    intro module same
    cases same
    refine ⟨bounded, laid, ?_⟩
    intro given same
    cases same
    exact ⟨image, readable, fits info (by rw [Runtime.infoOf, slot]; rfl)⟩
  · obtain ⟨positive, _⟩ := Runtime.bounded_of_tlsModule slot
    have valid : ∀ module ∈ some (TlsModule.static info registered), SlotValid id module := by
      intro module same
      cases same
      exact accounted.slots id _ slot
    rcases Runtime.initStaticTls_quiet initialising with rfl | ⟨statics, silent⟩
    · exact accounted
    · have replaced : Accounted { world with runtime := { world.runtime with
          modules := world.runtime.modules.set (id - 1) (some (.static info registered))
          staticModules := statics } } := accounted.setSlot positive valid
      exact replaced.quiet silent rfl rfl accounted.provided

theorem registerIn (accounted : Accounted world) {area : StaticTlsArea}
    (present : world.runtime.staticTls = some area) (info : TlsInfo) :
    Accounted (world.registerIn area info) := by
  rw [World.registerIn]
  rcases Runtime.registerStaticIn_cases world.runtime area info with
    ⟨error, failed⟩ | ⟨finish, align, placing, succeeded⟩
  · rw [failed]
    exact accounted
  · rw [succeeded]
    have laidOut := accounted.laidOut
    rw [Runtime.staticUsedInfo, present] at laidOut
    refine ⟨?_, Runtime.layoutEnd_of_placeStatic laidOut placing,
      ⟨accounted.sized.dtvs, accounted.sized.storages⟩, accounted.provided, ?_⟩
    · simp only [World.afterRegisterStatic, Runtime.withStatic, List.length_append,
        List.length_singleton, accounted.counted]
    · intro id module found
      rw [Runtime.tlsModule, World.afterRegisterStatic, Runtime.withStatic,
        Runtime.slotAt_append] at found
      split at found
      · cases found
        obtain ⟨_, total, reserved, bounded⟩ := Runtime.placeStatic_spec placing
        have room := staticUsedWithRseq_spec reserved
        simp only [SlotValid]
        omega
      · exact accounted.slots id module found

theorem withArea (accounted : Accounted world) (absent : world.runtime.staticTls = none)
    (base : Nat) : Accounted (world.withArea base) := by
  have silent := (Runtime.allocZeroed_quiet world.runtime Runtime.arenaLayout base).trans
    (Runtime.initTcb_quiet _ (base + staticTlsArenaSize))
  have laidOut := accounted.laidOut
  rw [Runtime.staticUsedInfo, absent] at laidOut
  have sized := silent.sized accounted.sized
  exact ⟨accounted.counted, laidOut, ⟨sized.dtvs, sized.storages⟩, accounted.provided,
    accounted.slots⟩

theorem registerStatic (accounted : Accounted world) (info : TlsInfo) (base : Nat) :
    Accounted (world.registerStaticAt info base true) := by
  cases present : world.runtime.staticTls with
  | some area =>
      rw [World.registerStaticAt_known present]
      exact accounted.registerIn present info
  | none =>
      rw [World.registerStaticAt_first present]
      exact (accounted.withArea present base).registerIn rfl info

theorem storage_based (accounted : Accounted world) {storage : Storage}
    (listed : storage ∈ world.storages) : storage.base ≤ storage.tp := by
  rcases List.mem_append.mp listed with early | provided
  · rcases List.mem_append.mp early with arena | allocated
    · rw [World.arena] at arena
      split at arena
      · cases arena
      · cases List.mem_singleton.mp arena
        exact Nat.sub_le _ _
    · obtain ⟨allocation, allocationListed, rfl⟩ := List.mem_map.mp allocated
      exact accounted.sized.storages allocation allocationListed
  · exact accounted.provided storage provided

theorem registers (accounted : Accounted world) {info : TlsInfo} {base : Nat} {installed : Bool}
    (admitted : AdmitsEver world (.registerStatic info base installed)) :
    ∃ placed, (world.runtime.registerStaticModule info base installed).1 = .ok placed := by
  obtain ⟨fits, counted, rfl⟩ := admitted
  obtain ⟨finish, align, placing⟩ := Runtime.placeStatic_of_fitsArena accounted.laidOut fits
  rw [← accounted.counted] at counted
  cases present : world.runtime.staticTls with
  | some area =>
      rw [Runtime.staticUsedInfo, present] at placing
      rw [Runtime.registerStaticModule, present]
      exact ⟨_, Runtime.registerStaticIn_total placing counted⟩
  | none =>
      rw [Runtime.staticUsedInfo, present] at placing
      rw [Runtime.registerStaticModule_new _ _ _ present]
      exact ⟨_, @Runtime.registerStaticIn_total (world.runtime.withArea base) _ _ _ _ placing
        counted⟩

/-- Memory that the kernel grants does not lie over a thread's control block. -/
theorem granted_outside (accounted : Accounted world) {tp id ptr : Nat} {layout : Layout}
    (stored : world.HasStorage tp) (wanted : world.runtime.wantedBlock tp id = some layout)
    (granted : world.Granted ptr (world.runtime.wantedBlock tp id)) :
    ptr ≠ 0 ∧ ¬ (ptr ≤ tp ∧ tp < ptr + layout.size) := by
  have covered := Runtime.wantedBlock_covered wanted
  rw [wanted] at granted
  obtain ⟨_, mapped, unused⟩ := granted
  obtain ⟨storage, listed, rfl⟩ := stored
  have based := accounted.storage_based listed
  have apart := unused storage.region
    (List.mem_append_left _ (List.mem_append_left _ (List.mem_map_of_mem listed)))
  simp only [Region.Apart, Storage.region, tlsTcbSize] at apart
  refine ⟨mapped, ?_⟩
  omega

theorem addresses (accounted : Accounted world) {tp id tiOffset ptr : Nat}
    (initialised : world.runtime.Initialised id) (stored : world.HasStorage tp)
    (high : staticTlsArenaSize < tp) (vector : (world.runtime.tcbs tp).dtv ≠ none)
    (granted : world.Granted ptr (world.runtime.wantedBlock tp id)) :
    ∃ addr next, world.runtime.getAddr tp id tiOffset ptr = .ok (addr, next) ∧ addr ≠ 0 := by
  have nonnull : tp ≠ 0 := by omega
  obtain ⟨dtv, present⟩ := Option.ne_none_iff_exists'.mp vector
  cases slot : world.runtime.tlsModule id with
  | none =>
      rw [Runtime.Initialised, slot] at initialised
      exact initialised.elim
  | some module =>
      have valid := accounted.slots id module slot
      obtain ⟨positive, _⟩ := Runtime.bounded_of_tlsModule slot
      unfold Runtime.getAddr
      rw [slot]
      cases module with
      | static info offset =>
          refine ⟨_, _, rfl, ?_⟩
          simp only [SlotValid] at valid
          rw [Runtime.staticTlsAddr, if_neg nonnull, offsetPtr]
          omega
      | dynamic info source =>
          rw [Runtime.Initialised, slot] at initialised
          obtain ⟨given, rfl⟩ := Option.ne_none_iff_exists'.mp initialised
          obtain ⟨bounded, laid, images⟩ := valid
          obtain ⟨layout, chosen⟩ := Option.isSome_iff_exists.mp laid
          obtain ⟨image, readable, fits⟩ := images given rfl
          rw [← accounted.sized.dtvs tp dtv present] at bounded
          refine Runtime.dynamicTlsAddr_nonnull nonnull present positive bounded chosen readable
            fits ?_
          intro unknown
          have wanted : world.runtime.wantedBlock tp id = some layout := by
            rw [Runtime.wantedBlock, slot]
            simp [nonnull, unknown, chosen]
          exact accounted.granted_outside stored wanted granted

theorem available (accounted : Accounted world) : world.Available AdmitsEver where
  registers _ _ _ admitted := accounted.registers admitted
  addresses _ _ _ _ initialised stored high vector granted :=
    accounted.addresses initialised stored high vector granted

end Accounted

theorem accounted_new : Accounted World.new where
  counted := rfl
  laidOut := rfl
  sized := {
    dtvs := fun _ _ impossible => by cases impossible
    storages := fun _ impossible => by cases impossible }
  provided _ impossible := by cases impossible
  slots id module found := by
    rw [Runtime.tlsModule, World.new, Runtime.new, slotAt] at found
    split at found
    · cases found
    · cases found

theorem accounted_step {world next : World} {action : Action} (accounted : Accounted world)
    (admitted : AdmitsEver world action) (step : World.Transition world action next) :
    Accounted next := by
  cases step with
  | registerDynamic => exact accounted.registerDynamic admitted
  | registerStatic _ =>
      obtain ⟨_, _, rfl⟩ := admitted
      exact accounted.registerStatic _ _
  | addStatic => exact admitted.elim
  | initTls accepted => exact accounted.initTls admitted accepted
  | unregister => exact accounted.unregister _
  | getAddr _ _ accepted =>
      exact accounted.quiet (Runtime.getAddr_quiet accepted) rfl rfl accounted.provided
  | allocate _ accepted =>
      exact accounted.quiet (Runtime.allocate_quiet accepted) rfl rfl accounted.provided
  | provide based _ =>
      refine accounted.quiet (Runtime.allocZeroed_quiet _ _ _) rfl rfl ?_
      intro other listed
      rcases List.mem_append.mp listed with old | new
      · exact accounted.provided other old
      · cases List.mem_singleton.mp new
        exact based
  | init _ accepted =>
      exact accounted.quiet (Runtime.init_quiet accepted) rfl rfl accounted.provided
  | deallocate _ =>
      exact accounted.quiet (Runtime.dlDeallocateTls_quiet _ _ _) rfl rfl accounted.provided
  | reclaim _ =>
      refine accounted.quiet (.refl _) rfl rfl ?_
      exact fun storage listed => accounted.provided storage (List.mem_filter.mp listed).1

theorem accounted_inductive : (World.system.restrict AdmitsEver).Inductive Accounted where
  initially _ initial := initial ▸ accounted_new
  preserved _ _ _ accounted step := accounted_step accounted step.1 (World.transition_of_act step.2)

theorem modules_available (world : World)
    (reached : (World.system.restrict AdmitsEver).Reachable world) :
    world.Available AdmitsEver :=
  (accounted_inductive.reachable reached).available

def libraryTls : TlsInfo := ⟨16, 0, 8⟩
def halfArenaTls : TlsInfo := ⟨600000, 0, 16⟩
def libraryImage : TlsImageSource := ⟨some [7]⟩

/-- Loading and unloading a library with thread-local variables. -/
def loadCycle (id : Nat) : List Action :=
  [.registerDynamic libraryTls, .initTls libraryImage id none, .unregister id]

/-- The program's own module, some load cycles, and the library once more. -/
def cyclesThenLoad (cycles : Nat) : List Action :=
  .registerStatic libraryTls 0x200000 true ::
    (List.range cycles).flatMap (fun cycle => loadCycle (cycle + 2)) ++
    [.registerDynamic libraryTls, .initTls libraryImage (cycles + 2) none]

theorem modules_available_cycles :
    ∃ world, (World.system.restrict AdmitsEver).Run .new (cyclesThenLoad 3) world ∧
      world.registered = 5 ∧
      ∃ addr next, world.runtime.getAddr 0x300000 5 0 0x400000 = .ok (addr, next) ∧ addr ≠ 0 := by
  have evaluated : (TransitionSystem.runLabels (World.actWhen AdmitsEver) .new
      (cyclesThenLoad 3)).map (fun world => decide (world.registered = 5 ∧
        world.runtime.tlsModule 5 = some (.dynamic libraryTls (some libraryImage)) ∧
        world.HasStorage 0x300000 ∧ ((world.runtime.tcbs 0x300000).dtv.isSome) ∧
        world.Granted 0x400000 (world.runtime.wantedBlock 0x300000 5))) = some true := by
    decide +kernel
  obtain ⟨world, ran, facts⟩ := Option.map_eq_some_iff.mp evaluated
  obtain ⟨registered, slot, stored, vector, granted⟩ := of_decide_eq_true facts
  have run := World.run_of_actWhen ran
  have initialised : world.runtime.Initialised 5 := by
    rw [Runtime.Initialised, slot]
    exact Option.some_ne_none _
  exact ⟨world, run, registered, (modules_available world ⟨_, _, rfl, run⟩).addresses 0x300000 5 0
    0x400000 initialised stored (by decide) (Option.isSome_iff_ne_none.mp vector) granted⟩

/-- What is registered has room in both runs: the first module's place is not given back,
and the last module's id has no slot in the thread's vector. -/
theorem load_cycles_exhaust :
    (∃ world, (World.system.restrict AdmitsNow).Run .new
        [.registerStatic halfArenaTls 0x200000 true, .unregister 1] world ∧
      AdmitsNow world (.registerStatic halfArenaTls 0 true) ∧
      (world.runtime.registerStaticModule halfArenaTls 0 true).1 = .error .resolverUnsupported ∧
      ¬ world.Available AdmitsNow) ∧
    ∃ world, (World.system.restrict AdmitsNow).Run .new (cyclesThenLoad 63) world ∧
      world.runtime.tlsModule 65 = some (.dynamic libraryTls (some libraryImage)) ∧
      (world.runtime.getAddr 0x300000 65 0 0x400000).toOption.map Prod.fst = some 0 ∧
      ¬ world.Available AdmitsNow := by
  constructor
  · have evaluated : (TransitionSystem.runLabels (World.actWhen AdmitsNow) .new
        [.registerStatic halfArenaTls 0x200000 true, .unregister 1]).map (fun world => decide (
          AdmitsNow world (.registerStatic halfArenaTls 0 true) ∧
          (world.runtime.registerStaticModule halfArenaTls 0 true).1 =
            .error .resolverUnsupported)) = some true := by
      decide +kernel
    obtain ⟨world, ran, facts⟩ := Option.map_eq_some_iff.mp evaluated
    obtain ⟨admitted, refused⟩ := of_decide_eq_true facts
    refine ⟨world, World.run_of_actWhen ran, admitted, refused, ?_⟩
    intro available
    obtain ⟨placed, accepted⟩ := available.registers halfArenaTls 0 true admitted
    rw [refused] at accepted
    cases accepted
  · have evaluated : (TransitionSystem.runLabels (World.actWhen AdmitsNow) .new
        (cyclesThenLoad 63)).map (fun world => decide (
          world.runtime.tlsModule 65 = some (.dynamic libraryTls (some libraryImage)) ∧
          world.HasStorage 0x300000 ∧ (world.runtime.tcbs 0x300000).dtv.isSome ∧
          world.Granted 0x400000 (world.runtime.wantedBlock 0x300000 65) ∧
          (world.runtime.getAddr 0x300000 65 0 0x400000).toOption.map Prod.fst = some 0)) =
            some true := by
      decide +kernel
    obtain ⟨world, ran, facts⟩ := Option.map_eq_some_iff.mp evaluated
    obtain ⟨slot, stored, vector, granted, null⟩ := of_decide_eq_true facts
    refine ⟨world, World.run_of_actWhen ran, slot, null, ?_⟩
    intro available
    have initialised : world.runtime.Initialised 65 := by
      rw [Runtime.Initialised, slot]
      exact Option.some_ne_none _
    obtain ⟨addr, next, accepted, nonnull⟩ := available.addresses 0x300000 65 0 0x400000 initialised
      stored (by decide) (Option.isSome_iff_ne_none.mp vector) granted
    rw [accepted] at null
    exact nonnull (Option.some.inj null)

end DynLinker.Tls
