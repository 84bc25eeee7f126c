import DynLinker.Tls.LayoutProperties
import DynLinker.Tls.Runtime
import Mathlib.Data.List.Nodup

/-! What each call of the runtime does: to the tables exactly, to memory up to the
bytes it may write. -/

set_option autoImplicit false

namespace DynLinker.Tls

open Lib

/-- The bytes of a module's block on one thread. -/
def StaticTlsModule.region (module : StaticTlsModule) (tp : Nat) : Region :=
  ⟨offsetPtr tp module.offset, module.info.memsz⟩

theorem blockBytes_length {info : TlsInfo} {image bytes : List UInt8}
    (accepted : blockBytes info image = .ok bytes) : bytes.length = info.memsz := by
  rw [blockBytes] at accepted
  split at accepted
  · next fits =>
      cases accepted
      simp only [List.length_append, List.length_replicate]
      omega
  · cases accepted

namespace Runtime

/-- Only memory and control blocks change, and memory only inside the regions. -/
def Rewrites (runtime next : Runtime) (regions : List Region) : Prop :=
  ∃ memory tcbs, next = { runtime with memory := memory, tcbs := tcbs } ∧
    ∀ other : Region, (∀ region ∈ regions, other.Apart region) → memory.Agree runtime.memory other

namespace Rewrites

theorem refl (runtime : Runtime) (regions : List Region) : runtime.Rewrites runtime regions :=
  ⟨runtime.memory, runtime.tcbs, rfl, fun other _ => .refl _ other⟩

theorem trans {first second third : Runtime} {early late : List Region}
    (before : first.Rewrites second early) (after : second.Rewrites third late) :
    first.Rewrites third (early ++ late) := by
  obtain ⟨memory, tcbs, rfl, earlyAgree⟩ := before
  obtain ⟨laterMemory, laterTcbs, rfl, lateAgree⟩ := after
  refine ⟨laterMemory, laterTcbs, rfl, ?_⟩
  intro other apart
  have first := earlyAgree other fun region member => apart region (List.mem_append_left _ member)
  have second := lateAgree other fun region member => apart region (List.mem_append_right _ member)
  exact second.trans first

/-- Regions may be replaced by regions that contain them. -/
theorem inside {runtime next : Runtime} {regions wider : List Region}
    (rewrites : runtime.Rewrites next regions)
    (contained : ∀ region ∈ regions, ∃ outer ∈ wider, region.Inside outer) :
    runtime.Rewrites next wider := by
  obtain ⟨memory, tcbs, rfl, agree⟩ := rewrites
  refine ⟨memory, tcbs, rfl, ?_⟩
  intro other apart
  apply agree
  intro region member
  obtain ⟨outer, listed, contains⟩ := contained region member
  exact (apart outer listed).inside contains

theorem of_tcbs (runtime : Runtime) (tcbs : Nat → Tcb) :
    runtime.Rewrites { runtime with tcbs := tcbs } [] :=
  ⟨runtime.memory, tcbs, rfl, fun other _ => .refl _ other⟩

theorem agree {runtime next : Runtime} {regions : List Region}
    (rewrites : runtime.Rewrites next regions) {other : Region}
    (apart : ∀ region ∈ regions, other.Apart region) : next.memory.Agree runtime.memory other := by
  obtain ⟨memory, tcbs, rfl, agree⟩ := rewrites
  exact agree other apart

end Rewrites

/-! ## Memory -/

theorem allocZeroed_rewrites (runtime : Runtime) (layout : Layout) (ptr : Nat) :
    runtime.Rewrites (runtime.allocZeroed layout ptr) [⟨ptr, layout.size⟩] := by
  refine ⟨_, _, rfl, ?_⟩
  intro other apart
  apply ByteMemory.write_apart
  rw [List.length_replicate]
  exact apart _ (List.mem_singleton.mpr rfl)

theorem initTcb_rewrites (runtime : Runtime) (tp : Nat) :
    runtime.Rewrites (runtime.initTcb tp) [] :=
  .of_tcbs _ _

theorem setDtvValue_rewrites {runtime next : Runtime} {tp id value toFree : Nat}
    (accepted : runtime.setDtvValue tp id value toFree = some next) : runtime.Rewrites next [] := by
  rw [setDtvValue] at accepted
  split at accepted
  · cases accepted
  · obtain ⟨entry, _, returned⟩ := Option.bind_eq_some_iff.mp accepted
    cases returned
    exact .of_tcbs _ _

theorem write_rewrites (runtime : Runtime) (address : Nat) (bytes : List UInt8) :
    runtime.Rewrites { runtime with memory := runtime.memory.write address bytes }
      [⟨address, bytes.length⟩] :=
  ⟨_, _, rfl, fun other apart =>
    ByteMemory.write_apart _ _ _ other (apart _ (List.mem_singleton.mpr rfl))⟩

/-- The block of a published module holds its image, followed by zeros. -/
def Holds (runtime : Runtime) (tp : Nat) (module : StaticTlsModule) : Prop :=
  ∀ image, module.source.bind TlsImageSource.image = some image →
    ∃ bytes, blockBytes module.info image = .ok bytes ∧
      runtime.memory.Holds (offsetPtr tp module.offset) bytes

theorem Holds.agree {before after : Runtime} {tp : Nat} {module : StaticTlsModule}
    (held : before.Holds tp module)
    (agree : after.memory.Agree before.memory (module.region tp)) : after.Holds tp module := by
  intro image published
  obtain ⟨bytes, accepted, holds⟩ := held image published
  refine ⟨bytes, accepted, holds.of_agree ?_⟩
  rw [blockBytes_length accepted]
  exact agree

theorem initStaticTlsModule_spec {runtime next : Runtime} {tp : Nat} {module : StaticTlsModule}
    (accepted : runtime.initStaticTlsModule tp module = .ok next) :
    runtime.Rewrites next [module.region tp] ∧ next.Holds tp module := by
  rw [initStaticTlsModule] at accepted
  cases published : module.source.bind TlsImageSource.image with
  | none =>
      rw [published] at accepted
      cases accepted
      refine ⟨.refl _ _, ?_⟩
      intro image impossible
      rw [published] at impossible
      cases impossible
  | some image =>
      rw [published] at accepted
      obtain ⟨bytes, computed, returned⟩ := bind_eq_ok.mp accepted
      have written := write_rewrites runtime (offsetPtr tp module.offset) bytes
      have held := ByteMemory.holds_write runtime.memory (offsetPtr tp module.offset) bytes
      rw [blockBytes_length computed] at written
      have same : ∀ image', module.source.bind TlsImageSource.image = some image' →
          image' = image := by
        intro image' found
        exact Option.some.inj (found.symm.trans published)
      cases stored : Runtime.setDtvValue { runtime with
          memory := runtime.memory.write (offsetPtr tp module.offset) bytes } tp module.id
          (offsetPtr tp module.offset) 0 with
      | none =>
          simp only [stored] at returned
          cases returned
          refine ⟨written, ?_⟩
          intro image' found
          exact ⟨bytes, same image' found ▸ computed, held⟩
      | some final =>
          simp only [stored] at returned
          cases returned
          have kept := setDtvValue_rewrites stored
          refine ⟨written.trans kept, ?_⟩
          intro image' found
          obtain ⟨memory, tcbs, rfl, agree⟩ := kept
          refine ⟨bytes, same image' found ▸ computed, held.of_agree (agree _ ?_)⟩
          intro region impossible
          cases impossible

theorem initModules_spec {modules : List StaticTlsModule} {runtime next : Runtime} {tp : Nat}
    (apart : modules.Pairwise fun left right => (left.region tp).Apart (right.region tp))
    (accepted : modules.foldlM (fun runtime module => runtime.initStaticTlsModule tp module)
      runtime = .ok next) :
    runtime.Rewrites next (modules.map fun module => module.region tp) ∧
      ∀ module ∈ modules, next.Holds tp module := by
  induction modules generalizing runtime with
  | nil =>
      cases accepted
      exact ⟨.refl _ _, fun module impossible => by cases impossible⟩
  | cons module rest ih =>
      rw [List.foldlM_cons] at accepted
      obtain ⟨middle, first, later⟩ := bind_eq_ok.mp accepted
      obtain ⟨fromFirst, restApart⟩ := List.pairwise_cons.mp apart
      obtain ⟨rewritten, held⟩ := initStaticTlsModule_spec first
      obtain ⟨laterRewritten, laterHeld⟩ := ih restApart later
      refine ⟨rewritten.trans laterRewritten, ?_⟩
      intro other member
      rcases List.mem_cons.mp member with rfl | listed
      · -- the blocks of the other modules leave this one alone
        apply held.agree
        apply laterRewritten.agree
        intro region written
        obtain ⟨writer, writerListed, rfl⟩ := List.mem_map.mp written
        exact fromFirst writer writerListed
      · exact laterHeld other listed

theorem initRseqArea_rewrites (runtime : Runtime) (tp : Nat) {used total : Nat}
    (computed : staticUsedWithRseq used = some total) :
    runtime.Rewrites (runtime.initRseqArea tp used) [⟨tp - total, rseqAreaSize⟩] := by
  rw [initRseqArea]
  cases placed : staticRseqOffset used with
  | none => exact .refl _ _
  | some offset =>
      obtain rfl := staticRseqOffset_spec computed placed
      have address : offsetPtr tp (-(total : Int)) = tp - total := by
        simp only [offsetPtr]
        omega
      have first := write_rewrites runtime (tp - total) (List.replicate rseqAreaSize 0)
      have second := write_rewrites
        { runtime with memory := runtime.memory.write (tp - total) (List.replicate rseqAreaSize 0) }
        (tp - total + rseqCpuIdOffset) rseqCpuIdRegistrationFailed
      simp only [address]
      apply (first.trans second).inside
      intro region member
      refine ⟨_, List.mem_singleton.mpr rfl, ?_⟩
      simp only [List.singleton_append, List.mem_cons, List.not_mem_nil, or_false] at member
      rcases member with rfl | rfl
      · simp [Region.Inside]
      · simp [Region.Inside, rseqAreaSize, rseqCpuIdOffset, rseqCpuIdRegistrationFailed]

theorem init_spec {runtime next : Runtime} {tp result total : Nat} (nonnull : tp ≠ 0)
    (computed : staticUsedWithRseq runtime.staticUsedInfo.1 = some total)
    (apart : runtime.staticModules.Pairwise fun left right =>
      (left.region tp).Apart (right.region tp))
    (above : ∀ module ∈ runtime.staticModules,
      (module.region tp).Apart ⟨tp - total, rseqAreaSize⟩)
    (accepted : runtime.init tp = .ok (result, next)) :
    result = tp ∧
      runtime.Rewrites next (runtime.staticModules.map (fun module => module.region tp) ++
        [⟨tp - total, rseqAreaSize⟩]) ∧
      ∀ module ∈ runtime.staticModules, next.Holds tp module := by
  rw [init, if_neg nonnull] at accepted
  obtain ⟨middle, folding, returned⟩ := bind_eq_ok.mp accepted
  cases returned
  obtain ⟨rewritten, held⟩ := initModules_spec apart folding
  have whole := (initTcb_rewrites runtime tp).trans rewritten
  have sameUsed : middle.staticUsedInfo = runtime.staticUsedInfo := by
    obtain ⟨memory, tcbs, rfl, _⟩ := whole
    rfl
  have rseq := initRseqArea_rewrites middle tp (sameUsed ▸ computed)
  refine ⟨rfl, whole.trans rseq, ?_⟩
  intro module member
  apply (held module member).agree
  apply rseq.agree
  intro region listed
  cases List.mem_singleton.mp listed
  exact above module member

/-! ## Tables -/

theorem slotAt_append (modules : List (Option TlsModule)) (module : TlsModule) (id : Nat) :
    slotAt (modules ++ [some module]) id =
      if id = modules.length + 1 then some module else slotAt modules id := by
  simp only [slotAt]
  by_cases zero : id = 0
  · simp [zero]
  · rw [if_neg zero, if_neg zero, List.getElem?_append]
    by_cases old : id - 1 < modules.length
    · rw [if_pos old, if_neg (by omega)]
    · rw [if_neg old]
      by_cases new : id = modules.length + 1
      · simp [new]
      · have beyond : [some module].length ≤ id - 1 - modules.length := by
          rw [List.length_singleton]
          omega
        rw [if_neg new, List.getElem?_eq_none beyond, List.getElem?_eq_none (Nat.le_of_not_lt old)]

theorem slotAt_set_ne (modules : List (Option TlsModule)) {index id : Nat}
    (slot : Option TlsModule) (positive : index ≠ 0) (different : id ≠ index) :
    slotAt (modules.set (index - 1) slot) id = slotAt modules id := by
  simp only [slotAt]
  by_cases zero : id = 0
  · rw [if_pos zero, if_pos zero]
  · rw [if_neg zero, if_neg zero, List.getElem?_set_ne (by omega)]

theorem slotAt_set_self (modules : List (Option TlsModule)) {index : Nat}
    (slot : Option TlsModule) (positive : index ≠ 0) :
    slotAt (modules.set (index - 1) slot) index =
      if index - 1 < modules.length then slot else none := by
  rw [slotAt, if_neg positive, List.getElem?_set]
  split
  · split
    · rfl
    · rfl
  · contradiction

theorem bounded_of_tlsModule {runtime : Runtime} {id : Nat} {module : TlsModule}
    (found : runtime.tlsModule id = some module) :
    id ≠ 0 ∧ id - 1 < runtime.modules.length := by
  rw [tlsModule, slotAt] at found
  split at found
  · cases found
  · next positive =>
      refine ⟨positive, ?_⟩
      by_contra outside
      rw [List.getElem?_eq_none (Nat.le_of_not_lt outside)] at found
      cases found

theorem registerModule_spec {runtime next : Runtime} {module : TlsModule} {id : Nat}
    (accepted : runtime.registerModule module = .ok (id, next)) :
    id = runtime.modules.length + 1 ∧
      next = { runtime with modules := runtime.modules ++ [some module] } := by
  rw [registerModule] at accepted
  split at accepted
  · cases accepted
  · next raw added =>
      cases accepted
      exact ⟨(checkedAdd_eq_some_iff.mp added).2, rfl⟩

theorem replaceSlot_spec {runtime next : Runtime} {id : Nat} {module : TlsModule}
    (accepted : runtime.replaceSlot id module = .ok next) :
    next = { runtime with modules := runtime.modules.set (id - 1) (some module) } := by
  rw [replaceSlot] at accepted
  split at accepted
  · cases accepted
  · split at accepted
    · cases accepted
      rfl
    · cases accepted

theorem placeStatic_eq_some_iff {used finish align : Nat} {info : TlsInfo} :
    placeStatic used info = some (finish, align) ↔
      checkedNextPowerOfTwo usizeBits (max info.align 1) = some align ∧
      staticModuleEnd used info.memsz info.vaddr align = some finish ∧
      ∃ total, staticUsedWithRseq finish = some total ∧ total ≤ staticTlsArenaSize := by
  constructor
  · intro placing
    obtain ⟨rounded, rounding, placing⟩ := Option.bind_eq_some_iff.mp placing
    obtain ⟨placed, computed, placing⟩ := Option.bind_eq_some_iff.mp placing
    obtain ⟨total, reserved, placing⟩ := Option.bind_eq_some_iff.mp placing
    split at placing
    · cases placing
    · next bounded =>
        cases placing
        exact ⟨rounding, computed, total, reserved, Nat.le_of_not_lt bounded⟩
  · intro parts
    obtain ⟨rounding, computed, total, reserved, bounded⟩ := parts
    refine Option.bind_eq_some_iff.mpr ⟨align, rounding, ?_⟩
    refine Option.bind_eq_some_iff.mpr ⟨finish, computed, ?_⟩
    refine Option.bind_eq_some_iff.mpr ⟨total, reserved, ?_⟩
    rw [if_neg (Nat.not_lt.mpr bounded)]

theorem placeStatic_spec {used finish align : Nat} {info : TlsInfo}
    (accepted : placeStatic used info = some (finish, align)) :
    used + info.memsz ≤ finish ∧
      ∃ total, staticUsedWithRseq finish = some total ∧ total ≤ staticTlsArenaSize := by
  obtain ⟨rounding, placing, fits⟩ := placeStatic_eq_some_iff.mp accepted
  obtain ⟨low, bounded, rfl, _⟩ := checkedNextPowerOfTwo_spec rounding
  exact ⟨le_staticModuleEnd bounded.le placing, fits⟩

/-- The runtime after a static module was placed. -/
def withStatic (runtime : Runtime) (area : StaticTlsArea) (info : TlsInfo) (finish align : Nat) :
    Runtime :=
  { runtime with
    modules := runtime.modules ++ [some (.static info (-(finish : Int)))]
    staticTls := some { area with used := finish, maxAlign := max area.maxAlign align }
    staticModules := runtime.staticModules ++
      [⟨runtime.modules.length + 1, info, none, -(finish : Int)⟩] }

theorem registerStaticIn_cases (runtime : Runtime) (area : StaticTlsArea) (info : TlsInfo) :
    (∃ error, runtime.registerStaticIn area info = (.error error, runtime)) ∨
      ∃ finish align, placeStatic area.used info = some (finish, align) ∧
        runtime.registerStaticIn area info =
          (.ok (runtime.modules.length + 1, -(finish : Int)),
            runtime.withStatic area info finish align) := by
  rw [registerStaticIn]
  cases placed : placeStatic area.used info with
  | none => exact .inl ⟨_, rfl⟩
  | some pair =>
      obtain ⟨finish, align⟩ := pair
      cases registering : runtime.registerModule (.static info (-(finish : Int))) with
      | error error => exact .inl ⟨error, by simp only [registering]⟩
      | ok result =>
          obtain ⟨id, next⟩ := result
          obtain ⟨rfl, rfl⟩ := registerModule_spec registering
          refine .inr ⟨finish, align, rfl, ?_⟩
          simp only [registering]
          rfl

/-- The runtime after the initial thread's storage was made. -/
def withArea (runtime : Runtime) (base : Nat) : Runtime :=
  { (runtime.allocZeroed arenaLayout base).initTcb (base + staticTlsArenaSize) with
    staticTls := some ⟨base + staticTlsArenaSize, 0, 1⟩ }

theorem arenaLayout_covered : arenaLayout.size ≤ pageRoundedSize arenaLayout := by
  decide +kernel

theorem registerStaticModule_new (runtime : Runtime) (info : TlsInfo) (base : Nat)
    (absent : runtime.staticTls = none) :
    runtime.registerStaticModule info base true =
      (runtime.withArea base).registerStaticIn ⟨base + staticTlsArenaSize, 0, 1⟩ info := by
  rw [registerStaticModule, absent]
  rfl

/-! ## Publishing an image -/

/-- The table of static modules with the source of one of them. -/
def publishedModules (modules : List StaticTlsModule) (id : Nat) (source : TlsImageSource) :
    List StaticTlsModule :=
  modules.map fun module => if module.id = id then { module with source := some source } else module

theorem publishStatic_eq {modules : List StaticTlsModule} {module : StaticTlsModule}
    (source : TlsImageSource) (unique : (modules.map (·.id)).Nodup) (listed : module ∈ modules) :
    publishStatic modules ⟨module.id, module.info, some source, module.offset⟩ =
      publishedModules modules module.id source := by
  rw [publishStatic]
  cases found : modules.findIdx? fun other => other.id = module.id with
  | none =>
      have absent := List.findIdx?_eq_none_iff.mp found module listed
      simp at absent
  | some index =>
      obtain ⟨bounded, matching, _⟩ := List.findIdx?_eq_some_iff_getElem.mp found
      have same : modules[index] = module :=
        List.inj_on_of_nodup_map unique (List.getElem_mem bounded) listed (by simpa using matching)
      simp only [publishedModules]
      apply List.ext_getElem
      · simp
      · intro i left right
        rw [List.length_map] at right
        rw [List.getElem_set, List.getElem_map]
        split
        · next hit =>
            subst hit
            rw [if_pos (by rw [same]), same]
        · next miss =>
            rw [if_neg]
            intro sameId
            have equal : modules[i] = module :=
              List.inj_on_of_nodup_map unique (List.getElem_mem right) listed sameId
            have sameIndex := (List.Nodup.of_map _ unique).getElem_inj_iff.mp
              (equal.trans same.symm)
            exact miss sameIndex.symm

theorem initTlsModule_cases {runtime next : Runtime} {source : TlsImageSource} {id : Nat}
    {offset : Option Int} {result : Except TlsError Unit}
    (accepted : runtime.initTlsModule source id offset = .ok (result, next)) :
    next = runtime ∨
      (∃ info old, runtime.tlsModule id = some (.dynamic info old) ∧
        next = { runtime with
          modules := runtime.modules.set (id - 1) (some (.dynamic info (some source))) }) ∨
      ∃ info registered, runtime.tlsModule id = some (.static info registered) ∧
        offset = some registered ∧
        runtime.initStaticTls info source id registered = .ok (result, next) := by
  rw [initTlsModule] at accepted
  cases slot : runtime.tlsModule id with
  | none =>
      rw [slot] at accepted
      cases accepted
      exact .inl rfl
  | some module =>
      rw [slot] at accepted
      cases module with
      | dynamic info old =>
          cases offset with
          | some given =>
              cases accepted
              exact .inl rfl
          | none =>
              simp only at accepted
              split at accepted
              · cases accepted
                exact .inl rfl
              · next replaced replacing =>
                  cases accepted
                  exact .inr (.inl ⟨info, old, rfl, replaceSlot_spec replacing⟩)
      | static info registered =>
          simp only at accepted
          split at accepted
          · next repeated => exact .inr (.inr ⟨info, registered, rfl, repeated, accepted⟩)
          · cases accepted
            exact .inl rfl

/-- The tables after the image of a static module was published. -/
def withSource (runtime : Runtime) (module : StaticTlsModule) (source : TlsImageSource) :
    Runtime :=
  { runtime with
    modules := runtime.modules.set (module.id - 1) (some (.static module.info module.offset))
    staticModules := publishedModules runtime.staticModules module.id source }

theorem initStaticTls_spec {runtime next : Runtime} {module : StaticTlsModule}
    {source : TlsImageSource} {result : Except TlsError Unit} {area : StaticTlsArea}
    (unique : (runtime.staticModules.map (·.id)).Nodup) (listed : module ∈ runtime.staticModules)
    (slot : runtime.tlsModule module.id = some (.static module.info module.offset))
    (present : runtime.staticTls = some area)
    (accepted : runtime.initStaticTls module.info source module.id module.offset =
      .ok (result, next)) :
    ∃ middle, (runtime.withSource module source).initStaticTlsModule area.tp
        ⟨module.id, module.info, some source, module.offset⟩ = .ok middle ∧
      next = middle.initRseqArea area.tp area.used := by
  obtain ⟨positive, bounded⟩ := bounded_of_tlsModule slot
  rw [initStaticTls, replaceSlot, if_neg positive, if_pos bounded] at accepted
  simp only [publishStatic_eq source unique listed, present] at accepted
  obtain ⟨middle, initialising, returned⟩ := bind_eq_ok.mp accepted
  cases returned
  refine ⟨middle, ?_, rfl⟩
  rw [withSource, ← present] at *
  exact initialising

/-! ## Addresses and threads -/

/-- Neither a table of modules nor a thread's storage changes. -/
structure SameTables (runtime next : Runtime) : Prop where
  staticTls : next.staticTls = runtime.staticTls
  staticModules : next.staticModules = runtime.staticModules
  modules : next.modules = runtime.modules
  allocations : next.allocations = runtime.allocations

theorem Rewrites.sameTables {runtime next : Runtime} {regions : List Region}
    (rewrites : runtime.Rewrites next regions) : runtime.SameTables next := by
  obtain ⟨memory, tcbs, rfl, _⟩ := rewrites
  exact ⟨rfl, rfl, rfl, rfl⟩

theorem fillDynamicBlock_spec {runtime next : Runtime} {tp id ptr : Nat} {info : TlsInfo}
    {source : Option TlsImageSource} {block : Option Nat} {layout : Layout}
    (covers : info.memsz ≤ layout.size)
    (accepted : runtime.fillDynamicBlock tp id info source layout ptr = .ok (block, next)) :
    runtime.SameTables next ∧ ∀ other : Region, other.Apart ⟨ptr, layout.size⟩ →
      next.memory.Agree runtime.memory other := by
  unfold fillDynamicBlock at accepted
  have zeroed := allocZeroed_rewrites runtime layout ptr
  have outside : ∀ other : Region, other.Apart ⟨ptr, layout.size⟩ →
      (runtime.allocZeroed layout ptr).memory.Agree runtime.memory other := by
    intro other apart
    apply zeroed.agree
    intro region listed
    cases List.mem_singleton.mp listed
    exact apart
  cases source with
  | none =>
      obtain ⟨_, rfl⟩ := Prod.mk.inj (Except.ok.inj accepted)
      exact ⟨⟨rfl, rfl, rfl, rfl⟩, outside⟩
  | some source =>
      cases given : source.image with
      | none =>
          simp only [given] at accepted
          obtain ⟨_, rfl⟩ := Prod.mk.inj (Except.ok.inj accepted)
          exact ⟨zeroed.sameTables, outside⟩
      | some image =>
          simp only [given] at accepted
          obtain ⟨bytes, computed, storing⟩ := bind_eq_ok.mp accepted
          have written := write_rewrites (runtime.allocZeroed layout ptr) ptr bytes
          rw [blockBytes_length computed] at written
          have inside : (Region.mk ptr info.memsz).Inside ⟨ptr, layout.size⟩ :=
            ⟨Nat.le_refl _, Nat.add_le_add_left covers _⟩
          have outsideWritten : ∀ other : Region, other.Apart ⟨ptr, layout.size⟩ →
              ((runtime.allocZeroed layout ptr).memory.write ptr bytes).Agree runtime.memory
                other := by
            intro other apart
            refine ByteMemory.Agree.trans ?_ (outside other apart)
            apply written.agree
            intro region listed
            cases List.mem_singleton.mp listed
            exact apart.inside inside
          split at storing
          · obtain ⟨_, rfl⟩ := Prod.mk.inj (Except.ok.inj storing)
            exact ⟨⟨rfl, rfl, rfl, rfl⟩, outsideWritten⟩
          · next stored entry =>
              obtain ⟨_, rfl⟩ := Prod.mk.inj (Except.ok.inj storing)
              obtain ⟨memory, tcbs, rfl, agree⟩ := setDtvValue_rewrites entry
              refine ⟨⟨rfl, rfl, rfl, rfl⟩, ?_⟩
              intro other apart
              have kept := agree other fun region impossible => by cases impossible
              exact kept.trans (outsideWritten other apart)

/-- Where an answer of `get_addr` comes from. -/
inductive Answers (runtime : Runtime) (tp id tiOffset ptr : Nat) : Nat → Runtime → Prop where
  | null : Answers runtime tp id tiOffset ptr 0 runtime
  | static {info : TlsInfo} {offset : Int} :
      runtime.tlsModule id = some (.static info offset) → tp ≠ 0 →
      Answers runtime tp id tiOffset ptr (offsetPtr tp offset + tiOffset) runtime
  | known {info : TlsInfo} {source : Option TlsImageSource} {block : Nat} :
      runtime.tlsModule id = some (.dynamic info source) → runtime.dtvValue tp id = some block →
      Answers runtime tp id tiOffset ptr (block + tiOffset) runtime
  | filled {info : TlsInfo} {source : Option TlsImageSource} {layout : Layout}
      {block : Option Nat} {next : Runtime} :
      runtime.tlsModule id = some (.dynamic info source) → tp ≠ 0 →
      runtime.dtvValue tp id = none → runtime.wantedBlock tp id = some layout →
      layout.size = max info.memsz 1 →
      runtime.fillDynamicBlock tp id info source layout ptr = .ok (block, next) →
      Answers runtime tp id tiOffset ptr ((block.map (· + tiOffset)).getD 0) next

theorem getAddr_answers {runtime next : Runtime} {tp id tiOffset ptr addr : Nat}
    (accepted : runtime.getAddr tp id tiOffset ptr = .ok (addr, next)) :
    Answers runtime tp id tiOffset ptr addr next := by
  unfold getAddr at accepted
  cases slot : runtime.tlsModule id with
  | none =>
      rw [slot] at accepted
      obtain ⟨rfl, rfl⟩ := Prod.mk.inj (Except.ok.inj accepted)
      exact .null
  | some module =>
      rw [slot] at accepted
      cases module with
      | static info offset =>
          obtain ⟨rfl, rfl⟩ := Prod.mk.inj (Except.ok.inj accepted)
          rw [staticTlsAddr]
          split
          · exact .null
          · next nonnull => exact .static slot nonnull
      | dynamic info source =>
          change runtime.dynamicTlsAddr tp id info source tiOffset ptr = _ at accepted
          rw [dynamicTlsAddr] at accepted
          split at accepted
          · obtain ⟨rfl, rfl⟩ := Prod.mk.inj (Except.ok.inj accepted)
            exact .null
          · next nonnull =>
              cases known : runtime.dtvValue tp id with
              | some block =>
                  rw [known] at accepted
                  obtain ⟨rfl, rfl⟩ := Prod.mk.inj (Except.ok.inj accepted)
                  exact .known slot known
              | none =>
                  rw [known] at accepted
                  obtain ⟨⟨block, middle⟩, allocating, returned⟩ := bind_eq_ok.mp accepted
                  have same : addr = (block.map (· + tiOffset)).getD 0 ∧ next = middle := by
                    cases block with
                    | none =>
                        obtain ⟨null, same⟩ := Prod.mk.inj (Except.ok.inj returned)
                        exact ⟨null.symm, same.symm⟩
                    | some block =>
                        obtain ⟨found, same⟩ := Prod.mk.inj (Except.ok.inj returned)
                        exact ⟨found.symm, same.symm⟩
                  obtain ⟨rfl, rfl⟩ := same
                  have wanted : runtime.wantedBlock tp id = blockLayout info := by
                    rw [wantedBlock, slot]
                    simp [nonnull, known]
                  unfold allocateDynamicBlock at allocating
                  cases chosen : blockLayout info with
                  | none =>
                      rw [chosen] at allocating
                      obtain ⟨rfl, rfl⟩ := Prod.mk.inj (Except.ok.inj allocating)
                      exact .null
                  | some layout =>
                      rw [chosen] at allocating
                      obtain ⟨size, _⟩ := Layout.fromSizeAlign_spec chosen
                      exact .filled slot nonnull known (wanted.trans chosen) (by rw [size])
                        allocating

theorem Answers.nonnull {runtime next : Runtime} {tp id tiOffset ptr addr : Nat}
    (answers : Answers runtime tp id tiOffset ptr addr next) (found : addr ≠ 0) : tp ≠ 0 := by
  cases answers with
  | null => exact absurd rfl found
  | static _ nonnull => exact nonnull
  | known _ present =>
      rintro rfl
      rw [dtvValue, if_pos rfl] at present
      cases present
  | filled _ nonnull _ _ _ _ => exact nonnull

theorem getAddr_spec {runtime next : Runtime} {tp id tiOffset ptr addr : Nat}
    (accepted : runtime.getAddr tp id tiOffset ptr = .ok (addr, next)) :
    runtime.SameTables next ∧ ∀ other : Region,
      (∀ layout, runtime.wantedBlock tp id = some layout → other.Apart ⟨ptr, layout.size⟩) →
      next.memory.Agree runtime.memory other := by
  have unchanged : runtime.SameTables runtime ∧ ∀ other : Region,
      (∀ layout, runtime.wantedBlock tp id = some layout → other.Apart ⟨ptr, layout.size⟩) →
      runtime.memory.Agree runtime.memory other :=
    ⟨⟨rfl, rfl, rfl, rfl⟩, fun other _ => .refl _ other⟩
  cases getAddr_answers accepted with
  | null => exact unchanged
  | static _ _ => exact unchanged
  | known _ _ => exact unchanged
  | filled _ _ _ wanted size filling =>
      obtain ⟨tables, outside⟩ := fillDynamicBlock_spec (size ▸ Nat.le_max_left _ _) filling
      exact ⟨tables, fun other apart => outside other (apart _ wanted)⟩

theorem wantedBlock_covered {runtime : Runtime} {tp id : Nat} {layout : Layout}
    (wanted : runtime.wantedBlock tp id = some layout) : layout.size ≤ pageRoundedSize layout := by
  rw [wantedBlock] at wanted
  split at wanted
  · cases wanted
  · cases wanted
  · split at wanted
    · cases wanted
    · have covered := size_le_pageRoundedSize wanted
      obtain ⟨rfl, _⟩ := Layout.fromSizeAlign_spec wanted
      exact covered

theorem storageLayout_spec {runtime : Runtime} {staticSize : Nat} {layout : Layout}
    (accepted : runtime.storageLayout = some (staticSize, layout)) :
    (∃ total, staticUsedWithRseq runtime.staticUsedInfo.1 = some total ∧ total ≤ staticSize) ∧
      layout.size = staticSize + tlsTcbSize ∧ layout.size ≤ pageRoundedSize layout := by
  obtain ⟨total, computed, accepted⟩ := Option.bind_eq_some_iff.mp accepted
  obtain ⟨align, rounding, accepted⟩ := Option.bind_eq_some_iff.mp accepted
  obtain ⟨raised, raising, accepted⟩ := Option.bind_eq_some_iff.mp accepted
  obtain ⟨whole, adding, accepted⟩ := Option.bind_eq_some_iff.mp accepted
  obtain ⟨chosen, laying, returned⟩ := Option.bind_eq_some_iff.mp accepted
  cases returned
  obtain ⟨low, bounded, rfl, _⟩ := checkedNextPowerOfTwo_spec rounding
  obtain ⟨_, rfl⟩ := checkedAdd_eq_some_iff.mp adding
  have covered := size_le_pageRoundedSize laying
  obtain ⟨rfl, _, _⟩ := Layout.fromSizeAlign_spec laying
  have positive : max (staticSize + tlsTcbSize) 1 = staticSize + tlsTcbSize :=
    Nat.max_eq_left (Nat.le_add_left_of_le (by decide))
  exact ⟨⟨total, computed, le_alignUp bounded.le raising⟩, positive, covered⟩

theorem deallocateTcb_spec (runtime : Runtime) (tp : Nat) :
    ∃ tcbs, runtime.deallocateTcb tp = { runtime with tcbs := tcbs } := by
  rw [deallocateTcb]
  split
  · exact ⟨_, rfl⟩
  · exact ⟨_, rfl⟩

/-- The allocations that are left, up to their order. -/
def Keeps (before after : List TlsAllocation) (tp : Nat) : Prop :=
  ∃ kept, after.Perm kept ∧ kept.Sublist before ∧
    ∀ allocation ∈ before, allocation.tp ≠ tp → allocation ∈ kept

theorem deallocate_spec (runtime : Runtime) (tp : Nat) (deallocTcb : Bool) :
    ∃ blocks allocations, runtime.deallocate tp deallocTcb =
        { runtime with dynamicBlocks := blocks, allocations := allocations } ∧
      Keeps runtime.allocations allocations tp := by
  have unchanged : Keeps runtime.allocations runtime.allocations tp :=
    ⟨_, .refl _, .refl _, fun _ listed _ => listed⟩
  rw [deallocate]
  split
  · exact ⟨_, _, rfl, unchanged⟩
  · cases deallocTcb with
    | false => exact ⟨_, _, rfl, unchanged⟩
    | true =>
        simp only [if_true, freeDynamicBlocks]
        cases found : runtime.allocations.findIdx? fun allocation => allocation.tp = tp with
        | none => exact ⟨_, _, rfl, unchanged⟩
        | some index =>
            obtain ⟨bounded, matching, _⟩ := List.findIdx?_eq_some_iff_getElem.mp found
            refine ⟨_, _, rfl, _, swapRemove_perm bounded, List.eraseIdx_sublist _ _, ?_⟩
            intro allocation listed different
            rw [List.mem_eraseIdx_iff_getElem]
            obtain ⟨i, inside, rfl⟩ := List.getElem_of_mem listed
            refine ⟨i, inside, ?_, rfl⟩
            rintro rfl
            exact different (by simpa using matching)

theorem dlDeallocateTls_spec (runtime : Runtime) (tp : Nat) (deallocTcb : Bool) :
    ∃ tcbs blocks allocations, runtime.dlDeallocateTls tp deallocTcb = { runtime with
        tcbs := tcbs, dynamicBlocks := blocks, allocations := allocations } ∧
      Keeps runtime.allocations allocations tp := by
  obtain ⟨tcbs, cleared⟩ := deallocateTcb_spec runtime tp
  rw [dlDeallocateTls, cleared]
  obtain ⟨blocks, allocations, freed, keeps⟩ :=
    deallocate_spec { runtime with tcbs := tcbs } tp deallocTcb
  exact ⟨tcbs, blocks, allocations, freed, keeps⟩

end Runtime

end DynLinker.Tls
