import DynLinker.Tls.TableChanges

/-! What `init` does to the storage of one thread: the blocks of the published modules,
the entries of the thread vector, the rseq area, the control block, and nothing else. -/

set_option autoImplicit false

namespace DynLinker.Tls

open Lib

namespace StaticTlsModule

/-- The image that was published for the module. -/
def image (module : StaticTlsModule) : Option (List UInt8) :=
  module.source.bind TlsImageSource.image

/-- What the block of a module with this image holds. -/
def blockOf (module : StaticTlsModule) (image : List UInt8) : List UInt8 :=
  image ++ List.replicate (module.info.memsz - image.length) 0

/-- The published image is no longer than the segment. -/
def Fits (module : StaticTlsModule) : Prop :=
  ∀ image, module.image = some image → image.length ≤ module.info.memsz

theorem Fits.blockBytes {module : StaticTlsModule} (fits : module.Fits) {image : List UInt8}
    (published : module.image = some image) :
    blockBytes module.info image = .ok (module.blockOf image) := by
  rw [Tls.blockBytes, if_pos (fits image published)]
  rfl

end StaticTlsModule

/-- What `init_rseq_area` leaves: zeros, and `cpu_id` at its offset. -/
def rseqAreaBytes : List UInt8 :=
  List.replicate rseqCpuIdOffset 0 ++
    (rseqCpuIdRegistrationFailed ++ List.replicate (rseqAreaSize - rseqCpuIdOffset - 4) 0)

namespace Runtime

variable {runtime next : Runtime} {tp : Nat}

/-! ## The modules -/

theorem initStaticTlsModule_none {module : StaticTlsModule} (unpublished : module.image = none) :
    runtime.initStaticTlsModule tp module = .ok runtime := by
  rw [StaticTlsModule.image] at unpublished
  rw [initStaticTlsModule, unpublished]

theorem initStaticTlsModule_total {module : StaticTlsModule} (fits : module.Fits) :
    ∃ next, runtime.initStaticTlsModule tp module = .ok next := by
  cases published : module.image with
  | none => exact ⟨runtime, initStaticTlsModule_none published⟩
  | some image =>
      have bytes := fits.blockBytes published
      rw [StaticTlsModule.image] at published
      rw [initStaticTlsModule, published]
      exact ⟨_, bind_eq_ok.mpr ⟨_, bytes, rfl⟩⟩

theorem initModules_total {modules : List StaticTlsModule}
    (fits : ∀ module ∈ modules, module.Fits) :
    ∃ next, modules.foldlM (fun runtime module => runtime.initStaticTlsModule tp module) runtime =
      .ok next := by
  induction modules generalizing runtime with
  | nil => exact ⟨runtime, rfl⟩
  | cons module rest ih =>
      obtain ⟨middle, first⟩ := @initStaticTlsModule_total runtime tp module
        (fits module List.mem_cons_self)
      obtain ⟨last, later⟩ := @ih middle fun other listed =>
        fits other (List.mem_cons_of_mem _ listed)
      exact ⟨last, by rw [List.foldlM_cons]; exact bind_eq_ok.mpr ⟨middle, first, later⟩⟩

/-- A module without an image is passed over. -/
theorem initModules_published (runtime : Runtime) (tp : Nat) (modules : List StaticTlsModule) :
    modules.foldlM (fun runtime module => runtime.initStaticTlsModule tp module) runtime =
      (modules.filter fun module => module.image.isSome).foldlM
        (fun runtime module => runtime.initStaticTlsModule tp module) runtime := by
  induction modules generalizing runtime with
  | nil => rfl
  | cons module rest ih =>
      cases published : module.image with
      | none =>
          rw [List.filter_cons_of_neg (by simp [published]), List.foldlM_cons,
            initStaticTlsModule_none published]
          exact ih runtime
      | some image =>
          rw [List.filter_cons_of_pos (by simp [published]), List.foldlM_cons, List.foldlM_cons]
          exact bind_congr fun middle => ih middle

/-! ## The thread vector -/

/-- The control block with other entries in its vector. -/
def withEntries (tcb : Tcb) (dtv : Dtv) (entries : Nat → DtvEntry) : Tcb :=
  { tcb with dtv := some { dtv with entries := entries } }

theorem setDtvValue_eq {id value toFree : Nat} {dtv : Dtv} (nonnull : tp ≠ 0)
    (vector : (runtime.tcbs tp).dtv = some dtv) (named : id ≠ 0) (slot : id ≤ dtv.slots) :
    runtime.setDtvValue tp id value toFree = some { runtime with
      tcbs := Function.update runtime.tcbs tp (withEntries (runtime.tcbs tp) dtv
        (Function.update dtv.entries id ⟨value, toFree⟩)) } := by
  have inside : ¬ (id = 0 ∨ dtv.slots < id) := by omega
  rw [setDtvValue, if_neg nonnull]
  simp only [Tcb.dtvEntry, Tcb.setDtvEntry, vector, Option.bind_eq_bind, Option.bind_some,
    if_neg inside, Option.map_some]
  rfl

theorem setDtvValue_none {id value toFree : Nat} {dtv : Dtv}
    (vector : (runtime.tcbs tp).dtv = some dtv) (outside : id = 0 ∨ dtv.slots < id) :
    runtime.setDtvValue tp id value toFree = none := by
  rw [setDtvValue]
  split
  · rfl
  · simp [Tcb.dtvEntry, vector, outside]

/-- One module writes its own entry, and no other. -/
theorem initStaticTlsModule_entries {module : StaticTlsModule} {dtv : Dtv} (nonnull : tp ≠ 0)
    (vector : (runtime.tcbs tp).dtv = some dtv)
    (accepted : runtime.initStaticTlsModule tp module = .ok next) :
    ∃ entries, next.tcbs tp = withEntries (runtime.tcbs tp) dtv entries ∧
      (∀ id, id ≠ module.id → entries id = dtv.entries id) ∧
      (module.image ≠ none → module.id ≠ 0 → module.id ≤ dtv.slots →
        entries module.id = ⟨offsetPtr tp module.offset, 0⟩) := by
  have same : withEntries (runtime.tcbs tp) dtv dtv.entries = runtime.tcbs tp := by
    rw [withEntries, ← vector]
  cases published : module.image with
  | none =>
      rw [initStaticTlsModule_none published] at accepted
      cases accepted
      exact ⟨dtv.entries, same.symm, fun _ _ => rfl, fun impossible => absurd rfl impossible⟩
  | some image =>
      rw [StaticTlsModule.image] at published
      rw [initStaticTlsModule, published] at accepted
      obtain ⟨bytes, _, returned⟩ := bind_eq_ok.mp accepted
      have result := Except.ok.inj returned
      let written : Runtime := { runtime with
        memory := runtime.memory.write (offsetPtr tp module.offset) bytes }
      have stillVector : (written.tcbs tp).dtv = some dtv := vector
      change (written.setDtvValue tp module.id (offsetPtr tp module.offset) 0).getD written = next
        at result
      by_cases inside : module.id = 0 ∨ dtv.slots < module.id
      · rw [setDtvValue_none stillVector inside] at result
        refine ⟨dtv.entries, ?_, fun _ _ => rfl, fun _ named slot => ?_⟩
        · rw [← result]
          exact same.symm
        · omega
      · have named : module.id ≠ 0 := fun zero => inside (.inl zero)
        have slot : module.id ≤ dtv.slots := Nat.le_of_not_lt fun past => inside (.inr past)
        rw [setDtvValue_eq nonnull stillVector named slot] at result
        refine ⟨Function.update dtv.entries module.id ⟨offsetPtr tp module.offset, 0⟩, ?_, ?_, ?_⟩
        · rw [← result]
          exact Function.update_self _ _ _
        · intro id different
          exact Function.update_of_ne different _ _
        · intro _ _ _
          exact Function.update_self _ _ _

/-- The entries of modules with different ids do not disturb each other. -/
theorem initModules_entries {modules : List StaticTlsModule} {dtv : Dtv} (nonnull : tp ≠ 0)
    (unique : (modules.map (·.id)).Nodup) (vector : (runtime.tcbs tp).dtv = some dtv)
    (accepted : modules.foldlM (fun runtime module => runtime.initStaticTlsModule tp module)
      runtime = .ok next) :
    ∃ entries, next.tcbs tp = withEntries (runtime.tcbs tp) dtv entries ∧
      (∀ id, id ∉ modules.map (·.id) → entries id = dtv.entries id) ∧
      ∀ module ∈ modules, module.image ≠ none → module.id ≠ 0 → module.id ≤ dtv.slots →
        entries module.id = ⟨offsetPtr tp module.offset, 0⟩ := by
  induction modules generalizing runtime dtv with
  | nil =>
      cases accepted
      refine ⟨dtv.entries, ?_, fun _ _ => rfl, fun module listed => by cases listed⟩
      rw [withEntries, ← vector]
  | cons module rest ih =>
      rw [List.foldlM_cons] at accepted
      obtain ⟨middle, first, later⟩ := bind_eq_ok.mp accepted
      obtain ⟨fresh, restUnique⟩ := List.nodup_cons.mp unique
      obtain ⟨early, changed, others, mine⟩ := initStaticTlsModule_entries nonnull vector first
      have middleVector : (middle.tcbs tp).dtv = some { dtv with entries := early } := by
        rw [changed]
        rfl
      obtain ⟨entries, last, kept, stored⟩ := ih restUnique middleVector later
      refine ⟨entries, ?_, ?_, ?_⟩
      · rw [last, changed]
        rfl
      · intro id absent
        have different : id ≠ module.id := fun same =>
          absent (same ▸ List.mem_cons_self)
        have outside : id ∉ rest.map (·.id) := fun listed =>
          absent (List.mem_cons_of_mem _ listed)
        exact (kept id outside).trans (others id different)
      · intro other listed published named slot
        rcases List.mem_cons.mp listed with rfl | member
        · exact (kept other.id fresh).trans (mine published named slot)
        · exact stored other member published named slot

/-! ## The rseq area -/

theorem initRseqArea_holds (runtime : Runtime) {used : Nat} {offset : Int}
    (placed : staticRseqOffset used = some offset) :
    (runtime.initRseqArea tp used).memory.Holds (offsetPtr tp offset) rseqAreaBytes := by
  rw [initRseqArea, placed]
  let area := offsetPtr tp offset
  let zeroed := runtime.memory.write area (List.replicate rseqAreaSize 0)
  have zeros : zeroed.Holds area (List.replicate rseqCpuIdOffset 0 ++
      (List.replicate 4 0 ++ List.replicate (rseqAreaSize - rseqCpuIdOffset - 4) 0)) :=
    ByteMemory.holds_write _ _ _
  obtain ⟨before, rest⟩ := ByteMemory.holds_append.mp zeros
  obtain ⟨_, after⟩ := ByteMemory.holds_append.mp rest
  refine ByteMemory.holds_append.mpr ⟨before.of_agree ?_, ByteMemory.holds_append.mpr ⟨?_, ?_⟩⟩
  · exact ByteMemory.write_apart _ _ _ _ (.inl (Nat.le_refl _))
  · exact ByteMemory.holds_write _ _ _
  · exact after.of_agree (ByteMemory.write_apart _ _ _ _ (.inr (Nat.le_refl _)))

/-! ## The whole call -/

/-- What `init` may be called on: the tables are in order, and the published images fit. -/
structure Initialisable (runtime : Runtime) : Prop where
  tables : TablesValid runtime
  positive : ∀ module ∈ runtime.staticModules, module.id ≠ 0
  fits : ∀ module ∈ runtime.staticModules, module.Fits

/-- The modules that `init` writes. -/
def publishedStatic (runtime : Runtime) : List StaticTlsModule :=
  runtime.staticModules.filter fun module => module.image.isSome

theorem mem_publishedStatic {module : StaticTlsModule} :
    module ∈ runtime.publishedStatic ↔ module ∈ runtime.staticModules ∧ module.image.isSome := by
  rw [publishedStatic, List.mem_filter]

/-- What `init` leaves behind for a thread. -/
structure Initialises (runtime : Runtime) (tp : Nat) (next : Runtime) : Prop where
  registered : ∀ id info offset, runtime.tlsModule id = some (.static info offset) →
    ∃ module ∈ runtime.staticModules, module.id = id ∧ module.info = info ∧ module.offset = offset
  blocks : ∀ module ∈ runtime.staticModules, ∀ image, module.image = some image →
    image.length ≤ module.info.memsz ∧ (offsetPtr tp module.offset : Int) = tp + module.offset ∧
      next.memory.Holds (offsetPtr tp module.offset) (module.blockOf image) ∧
      (module.id ≤ dtvSlotCount →
        (next.tcbs tp).dtvEntry module.id = some ⟨offsetPtr tp module.offset, 0⟩)
  rseq : (offsetPtr tp runtime.rseqOffset : Int) = tp + runtime.rseqOffset ∧
    next.memory.Holds (offsetPtr tp runtime.rseqOffset) rseqAreaBytes
  control : (next.tcbs tp).self = tp ∧ (next.tcbs tp).threadSelf = tp
  others : ∀ query < tp,
    (∀ module ∈ runtime.staticModules, module.image.isSome →
      ¬ (module.region tp).Contains query) →
    ¬ (Region.mk (offsetPtr tp runtime.rseqOffset) rseqAreaSize).Contains query →
    next.memory query = runtime.memory query

theorem rseqOffset_eq {total : Nat}
    (computed : staticUsedWithRseq runtime.staticUsedInfo.1 = some total)
    (bounded : total ≤ isizeMax) :
    staticRseqOffset runtime.staticUsedInfo.1 = some (-(total : Int)) ∧
      runtime.rseqOffset = -(total : Int) := by
  have placed : staticRseqOffset runtime.staticUsedInfo.1 = some (-(total : Int)) := by
    rw [staticRseqOffset, computed]
    exact if_pos bounded
  rw [rseqOffset, placed]
  exact ⟨rfl, rfl⟩

/-- The modules are written in order, each in its own place. -/
theorem init_modules (valid : Initialisable runtime)
    (reach : runtime.staticUsedInfo.1 ≤ tp) (nonnull : tp ≠ 0) :
    ∃ middle entries, runtime.staticModules.foldlM
        (fun runtime module => runtime.initStaticTlsModule tp module) (runtime.initTcb tp) =
        .ok middle ∧
      runtime.Rewrites middle (runtime.publishedStatic.map fun module => module.region tp) ∧
      (∀ module ∈ runtime.publishedStatic, middle.Holds tp module) ∧
      middle.tcbs tp = withEntries ((runtime.initTcb tp).tcbs tp) .new entries ∧
      ∀ module ∈ runtime.publishedStatic, module.id ≤ dtvSlotCount →
        entries module.id = ⟨offsetPtr tp module.offset, 0⟩ := by
  obtain ⟨placed, _⟩ := valid.tables.layout
  obtain ⟨middle, folding⟩ := @initModules_total (runtime.initTcb tp) tp _ valid.fits
  have publishing := folding
  rw [initModules_published] at publishing
  have apart : runtime.publishedStatic.Pairwise fun left right =>
      (left.region tp).Apart (right.region tp) := (placed.region_apart reach).filter _
  obtain ⟨written, held⟩ := initModules_spec apart publishing
  have unique : (runtime.publishedStatic.map (·.id)).Nodup :=
    valid.tables.ids.sublist (List.filter_sublist.map _)
  have vector : ((runtime.initTcb tp).tcbs tp).dtv = some .new := by
    rw [initTcb_own]
  obtain ⟨entries, last, _, stored⟩ := initModules_entries nonnull unique vector publishing
  refine ⟨middle, entries, folding, (initTcb_rewrites runtime tp).trans written, held, last, ?_⟩
  intro module listed slot
  obtain ⟨registered, published⟩ := mem_publishedStatic.mp listed
  refine stored module listed ?_ (valid.positive module registered) slot
  exact Option.isSome_iff_ne_none.mp published

theorem init_exact (valid : Initialisable runtime) {total : Nat}
    (computed : staticUsedWithRseq runtime.staticUsedInfo.1 = some total)
    (bounded : total ≤ isizeMax) (reach : total ≤ tp) :
    ∃ next, runtime.init tp = .ok (tp, next) ∧ runtime.Initialises tp next := by
  have room := staticUsedWithRseq_spec computed
  have nonnull : tp ≠ 0 := by
    rintro rfl
    exact absurd (room.trans reach) (by simp [rseqAreaSize])
  obtain ⟨placed, _⟩ := valid.tables.layout
  obtain ⟨middle, entries, folding, written, held, control, stored⟩ :=
    init_modules valid (by omega) nonnull
  have sameUsed : middle.staticUsedInfo = runtime.staticUsedInfo := by
    obtain ⟨memory, tcbs, rfl, _⟩ := written
    rfl
  obtain ⟨place, offset⟩ := rseqOffset_eq computed bounded
  have area : offsetPtr tp runtime.rseqOffset = tp - total := by
    rw [offset, offsetPtr]
    omega
  have rseq := initRseqArea_rewrites middle tp (sameUsed ▸ computed)
  let next := middle.initRseqArea tp middle.staticUsedInfo.1
  have same : next.tcbs = middle.tcbs := by
    obtain ⟨memory, rewritten⟩ := initRseqArea_eq middle tp middle.staticUsedInfo.1
    exact congrArg (fun runtime => runtime.tcbs) rewritten
  refine ⟨next, ?_, ?_⟩
  · rw [init, if_neg nonnull]
    exact bind_eq_ok.mpr ⟨middle, folding, rfl⟩
  · refine ⟨valid.tables.slots, ?_, ⟨?_, ?_⟩, ?_, ?_⟩
    · intro module listed image published
      have member : module ∈ runtime.publishedStatic :=
        mem_publishedStatic.mpr ⟨listed, by simp [published]⟩
      obtain ⟨finish, below, _, used⟩ := placed.below module listed
      have fits := valid.fits module listed
      refine ⟨fits image published, ?_, ?_, ?_⟩
      · rw [offsetPtr]
        omega
      · -- the rseq area lies below every block
        have stays : next.Holds tp module := by
          apply (held module member).agree
          apply rseq.agree
          intro region written
          cases List.mem_singleton.mp written
          exact placed.above_rseq computed reach listed
        obtain ⟨bytes, accepted, holds⟩ := stays image published
        rw [fits.blockBytes published] at accepted
        cases accepted
        exact holds
      · intro slot
        have inside : ¬ (module.id = 0 ∨ dtvSlotCount < module.id) := by
          have := valid.positive module listed
          omega
        rw [same, control, Tcb.dtvEntry]
        change (if module.id = 0 ∨ dtvSlotCount < module.id then none else
          some (entries module.id)) = _
        rw [if_neg inside, stored module member slot]
    · rw [area, offset]
      omega
    · rw [offset]
      exact initRseqArea_holds middle (sameUsed ▸ place)
    · rw [same, control, initTcb_own]
      exact ⟨rfl, rfl⟩
    · intro query _ outside outsideRseq
      rw [area] at outsideRseq
      have whole := written.trans rseq
      have agree : next.memory.Agree runtime.memory ⟨query, 1⟩ := by
        apply whole.agree
        intro region listed
        have apart : ¬ region.Contains query := by
          rcases List.mem_append.mp listed with block | rseq
          · obtain ⟨module, member, rfl⟩ := List.mem_map.mp block
            obtain ⟨registered, published⟩ := mem_publishedStatic.mp member
            exact outside module registered published
          · cases List.mem_singleton.mp rseq
            exact outsideRseq
        simp only [Region.Contains, Region.Apart] at apart ⊢
        omega
      exact agree query (Nat.le_refl _) (Nat.lt_succ_self _)

/-! ## Every state -/

namespace Initialisable

theorem new : Initialisable .new where
  tables := .new
  positive _ impossible := by cases impossible
  fits _ impossible := by cases impossible

theorem step {allowed : TlsInfo → Prop} (valid : Initialisable runtime)
    (change : TableChange allowed runtime next) : Initialisable next := by
  refine ⟨change.tables valid.tables, ?_, ?_⟩
  · cases change with
    | kept _ staticModules _ => exact staticModules ▸ valid.positive
    | dynamic _ => exact valid.positive
    | replaced _ _ => exact valid.positive
    | area _ _ _ => exact valid.positive
    | placed _ _ _ =>
        intro module listed
        rcases List.mem_append.mp listed with old | new
        · exact valid.positive module old
        · cases List.mem_singleton.mp new
          exact Nat.succ_ne_zero _
    | published _ _ _ =>
        intro module listed
        obtain ⟨old, member, sameId, _⟩ := TablesValid.publishedModules_shape listed
        rw [sameId]
        exact valid.positive old member
    | unregistered id =>
        intro module listed
        exact valid.positive module (unregisterModule_subset id listed)
  · cases change with
    | kept _ staticModules _ => exact staticModules ▸ valid.fits
    | dynamic _ => exact valid.fits
    | replaced _ _ => exact valid.fits
    | area _ _ _ => exact valid.fits
    | placed _ _ _ =>
        intro module listed
        rcases List.mem_append.mp listed with old | new
        · exact valid.fits module old
        · cases List.mem_singleton.mp new
          intro image impossible
          cases impossible
    | @published published source member _ fits =>
        intro module listed image given
        obtain ⟨old, oldMember, sameId, sameInfo, _, kept, renewed⟩ :=
          TablesValid.publishedModules_shape listed
        by_cases same : module.id = published.id
        · have own : old = published := List.inj_on_of_nodup_map valid.tables.ids oldMember member
            (sameId.symm.trans same)
          rw [StaticTlsModule.image, renewed same] at given
          rw [sameInfo, own]
          exact fits image given
        · obtain rfl := kept same
          exact valid.fits module oldMember image given
    | unregistered id =>
        intro module listed
        exact valid.fits module (unregisterModule_subset id listed)

theorem total (valid : Initialisable runtime) :
    ∃ total, staticUsedWithRseq runtime.staticUsedInfo.1 = some total ∧
      total ≤ staticTlsArenaSize := by
  rw [staticUsedInfo]
  cases present : runtime.staticTls with
  | none => exact ⟨rseqAreaSize, staticUsedWithRseq_zero, by decide⟩
  | some area => exact (valid.tables.area area present).fits

end Initialisable

/-- Storage of the size that `static_info` tells reaches below the rseq area. -/
theorem staticInfo_reach {total : Nat}
    (computed : staticUsedWithRseq runtime.staticUsedInfo.1 = some total)
    (bounded : total ≤ staticTlsArenaSize)
    (power : ∃ low < usizeBits, runtime.staticUsedInfo.2 = 2 ^ low) :
    total + tlsTcbSize ≤ runtime.staticInfo.1 := by
  obtain ⟨most, inside, power⟩ := storageAlign_power power
  have align := power 1 (by decide)
  have small : 2 ^ most ≤ 2 ^ 63 := Nat.pow_le_pow_right Nat.two_pos (Nat.le_of_lt_succ inside)
  have positive := Nat.two_pow_pos most
  have word : total + (2 ^ most - 1) < 2 ^ usizeBits := by
    simp only [staticTlsArenaSize, usizeBits] at *
    omega
  let raised := clearLow usizeBits (total + (2 ^ most - 1)) (2 ^ most)
  have raising : alignUp total (2 ^ most) = some raised := by
    rw [alignUp, checkedAdd, if_pos word]
    rfl
  have lower : total ≤ raised := le_alignUp inside.le raising
  have upper : raised ≤ total + (2 ^ most - 1) := by
    change clearLow _ _ _ ≤ _
    rw [clearLow_two_pow inside.le word]
    exact Nat.div_mul_le_self _ _
  have adding : checkedAdd usizeBits raised tlsTcbSize = some (raised + tlsTcbSize) := by
    refine if_pos ?_
    simp only [staticTlsArenaSize, usizeBits, tlsTcbSize] at *
    omega
  rw [staticInfo, computed, Option.getD_some, align, raising, Option.bind_some, adding,
    Option.getD_some]
  exact Nat.add_le_add_right lower _

end Runtime

theorem initialisable_inductive (allowed : TlsInfo → Prop) :
    (World.system.restrict fun _ => Registers allowed).Inductive fun world =>
      TablesValid world.runtime ∧ world.runtime.Initialisable :=
  tables_inductive .new fun _ _ _ valid change => valid.step change

/-- Whatever the memory and the old control block held, storage of the size that
`static_info` tells is initialised exactly. -/
theorem thread_init_exact (world : World)
    (reached : (World.system.restrict fun _ => Registers fun _ => True).Reachable world)
    (storage : Storage) (based : storage.base ≤ storage.tp)
    (large : world.runtime.staticInfo.1 ≤ storage.region.size)
    (memory : ByteMemory) (tcbs : Nat → Tcb) :
    ∃ next, Runtime.init { world.runtime with memory := memory, tcbs := tcbs } storage.tp =
        .ok (storage.tp, next) ∧
      Runtime.Initialises { world.runtime with memory := memory, tcbs := tcbs } storage.tp
        next := by
  obtain ⟨tables, valid⟩ := (initialisable_inductive _).reachable reached
  have power := staticUsedInfo_power (area_inductive.reachable reached.unrestrict)
  obtain ⟨total, computed, bounded⟩ := valid.total
  have size := Runtime.staticInfo_reach computed bounded power
  have reach : total ≤ storage.tp := by
    simp only [Storage.region] at large
    omega
  have initialisable :
      Runtime.Initialisable { world.runtime with memory := memory, tcbs := tcbs } :=
    ⟨tables.congr rfl rfl rfl, valid.positive, valid.fits⟩
  exact Runtime.init_exact initialisable computed (bounded.trans (by decide)) reach

def counterTls : TlsInfo := ⟨8, 0, 8⟩
def scratchTls : TlsInfo := ⟨100, 0, 32⟩

/-- Two modules are registered, and one of them is published. -/
def twoModules : List Action :=
  [.registerStatic counterTls 0x200000 true, .registerStatic scratchTls 0 true,
    .initTls ⟨some [42, 7]⟩ 1 (some (-8))]

theorem thread_init_exact_counter :
    ∃ world next, World.system.Run .new twoModules world ∧
      world.runtime.init 0x400100 = .ok (0x400100, next) ∧
      next.memory.Holds 0x4000f8 [42, 7, 0, 0, 0, 0, 0, 0] ∧
      (next.tcbs 0x400100).dtvEntry 1 = some ⟨0x4000f8, 0⟩ ∧
      next.memory.Holds 0x400060 rseqAreaBytes ∧
      next.memory 0x4000f7 = world.runtime.memory 0x4000f7 := by
  have evaluated : (TransitionSystem.runLabels
      (World.actWhen fun _ => Registers fun _ => True) .new twoModules).map
      (fun world => decide (world.runtime.staticInfo = (2560, 64) ∧
        world.runtime.rseqOffset = -160 ∧
        world.runtime.staticModules = [⟨1, counterTls, some ⟨some [42, 7]⟩, -8⟩,
          ⟨2, scratchTls, none, -128⟩])) = some true := by
    decide +kernel
  obtain ⟨world, ran, facts⟩ := Option.map_eq_some_iff.mp evaluated
  obtain ⟨size, area, modules⟩ := of_decide_eq_true facts
  have run := World.run_of_actWhen ran
  obtain ⟨next, accepted, exactly⟩ := thread_init_exact world ⟨_, _, rfl, run⟩
    ⟨0x400100, 0x400000⟩ (by decide) (by rw [size]; decide) world.runtime.memory
    world.runtime.tcbs
  have member : ⟨1, counterTls, some ⟨some [42, 7]⟩, -8⟩ ∈ world.runtime.staticModules := by
    simp [modules]
  obtain ⟨_, _, held, entry⟩ := exactly.blocks _ member [42, 7] rfl
  refine ⟨world, next, run.unrestrict, accepted, held, entry (by decide), ?_, ?_⟩
  · have written := exactly.rseq.2
    rw [show Runtime.rseqOffset _ = -160 from area] at written
    exact written
  · refine exactly.others 0x4000f7 (by decide) ?_ ?_
    · rw [show Runtime.staticModules _ = _ from modules]
      decide
    · rw [show Runtime.rseqOffset _ = -160 from area]
      decide

end DynLinker.Tls
