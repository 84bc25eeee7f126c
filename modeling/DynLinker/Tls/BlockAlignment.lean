import DynLinker.Tls.ModuleLimits
import DynLinker.Tls.StaticArea
import DynLinker.Tls.StaticLayout
import DynLinker.Tls.ThreadVectors

/-! Whether blocks lie on the addresses that their segments ask for. Offsets and sizes
always respect the alignment, and the allocator answers with whole pages: what asks for
more than a page is served only by chance. -/

set_option autoImplicit false

namespace DynLinker.Tls

open Lib

namespace TlsInfo

/-- At some distance below a thread pointer there is a suitable place in an empty arena. -/
def Placeable (info : TlsInfo) : Prop :=
  ∃ distance, info.memsz ≤ distance ∧ distance + rseqAreaSize ≤ staticTlsArenaSize ∧
    info.align ∣ distance + info.vaddr

/-- A block of its own is not too large for the allocator. -/
def Allocatable (info : TlsInfo) : Prop := max info.memsz 1 + (info.align - 1) ≤ isizeMax

/-- The static block of a module with this segment is congruent to the segment's address,
from its registration on: on the initial thread, and in all storage made since. -/
def StaticAligned (info : TlsInfo) : Prop :=
  ∀ world, World.system.Reachable world → ∀ base installed id offset,
    world.Granted base world.wantedArena →
    (world.runtime.registerStaticModule info base installed).1 = .ok (id, offset) →
    ∀ actions later,
      World.system.Run (world.registerStaticAt info base installed) actions later →
      (∀ area, later.runtime.staticTls = some area →
        Int.ModEq info.align (area.tp + offset) info.vaddr) ∧
      ∀ start tp next, later.Granted start (later.runtime.storageLayout.map Prod.snd) →
        later.runtime.allocateStorage start = some (tp, next) →
        Int.ModEq info.align (tp + offset) info.vaddr

/-- Every block that a thread is given for a module with this segment is aligned. -/
def DynamicAligned (info : TlsInfo) : Prop :=
  ∀ world, World.system.Reachable world → ∀ tp id source, tp ∈ world.live →
    world.runtime.tlsModule id = some (.dynamic info source) →
    world.runtime.dtvValue tp id = none → ∀ ptr block next,
    world.Granted ptr (Runtime.blockLayout info) →
    world.runtime.allocateDynamicBlock tp id info source ptr = .ok (some block, next) →
    info.align ∣ block

end TlsInfo

/-! ## Registrations -/

theorem placeStatic_two_pow {used finish align low : Nat} {info : TlsInfo}
    (bounded : low < usizeBits) (power : info.align = 2 ^ low)
    (placing : Runtime.placeStatic used info = some (finish, align)) : align = info.align := by
  obtain ⟨rounding, _⟩ := Runtime.placeStatic_eq_some_iff.mp placing
  have positive := Nat.two_pow_pos low
  rw [power, Nat.max_eq_left positive, checkedNextPowerOfTwo_two_pow bounded] at rounding
  cases rounding
  exact power.symm

theorem placeStatic_placeable {used finish align low : Nat} {info : TlsInfo} (word : info.Word)
    (bounded : low < usizeBits) (power : info.align = 2 ^ low)
    (placing : Runtime.placeStatic used info = some (finish, align)) :
    info.memsz ≤ finish ∧ finish + rseqAreaSize ≤ staticTlsArenaSize ∧
      info.align ∣ finish + info.vaddr := by
  obtain rfl := placeStatic_two_pow bounded power placing
  obtain ⟨_, ending, total, reserved, fits⟩ := Runtime.placeStatic_eq_some_iff.mp placing
  rw [power] at ending
  have room := staticUsedWithRseq_spec reserved
  have covers := le_staticModuleEnd bounded.le ending
  refine ⟨by omega, by omega, ?_⟩
  rw [power]
  exact staticModuleEnd_congruent bounded.le word.vaddr ending

theorem placeStatic_empty {low : Nat} {info : TlsInfo} (word : info.Word)
    (bounded : low < usizeBits) (power : info.align = 2 ^ low) (placeable : info.Placeable) :
    ∃ finish, Runtime.placeStatic 0 info = some (finish, info.align) := by
  obtain ⟨distance, fits, inside, suitable⟩ := placeable
  have small : distance ≤ isizeMax := by
    have limit : staticTlsArenaSize ≤ isizeMax := by decide
    omega
  rw [power] at suitable
  obtain ⟨finish, least, ending⟩ := staticModuleEnd_least bounded.le word.vaddr small fits suitable
  obtain ⟨total, reserved, bound⟩ := @staticUsedWithRseq_fits finish (by omega)
  refine ⟨finish, Runtime.placeStatic_eq_some_iff.mpr ⟨?_, power ▸ ending, total, reserved, bound⟩⟩
  rw [power, Nat.max_eq_left (Nat.two_pow_pos low)]
  exact checkedNextPowerOfTwo_two_pow bounded

namespace World

variable {world : World}

theorem registerStaticAt_runtime (info : TlsInfo) (base : Nat) (installed : Bool) :
    (world.registerStaticAt info base installed).runtime =
      (world.runtime.registerStaticModule info base installed).2 := by
  have after : ∀ (runtime : Runtime) (result : Except TlsError (Nat × Int)),
      (world.afterRegisterStatic info runtime result).runtime = runtime := by
    intro runtime result
    cases result with
    | error _ => rfl
    | ok _ => rfl
  have initial : ∀ world : World, world.withInitial.runtime = world.runtime := by
    intro world
    rw [withInitial]
    split
    · rfl
    · rfl
  rw [registerStaticAt]
  simp only
  split
  · exact after _ _
  · rw [initial]
    exact after _ _

/-- A module that was registered has its place in the area. -/
theorem registered_place {info : TlsInfo} {base id : Nat} {installed : Bool} {offset : Int}
    (accepted : (world.runtime.registerStaticModule info base installed).1 = .ok (id, offset)) :
    ∃ (before : StaticTlsArea) (finish align : Nat),
      Runtime.placeStatic before.used info = some (finish, align) ∧ offset = -(finish : Int) ∧
      (world.registerStaticAt info base installed).runtime.staticTls =
        some { before with used := finish, maxAlign := max before.maxAlign align } ∧
      (world.runtime.staticTls = none → before.tp = base + staticTlsArenaSize) := by
  rw [registerStaticAt_runtime]
  have placed : ∀ (runtime : Runtime) (area : StaticTlsArea),
      (runtime.registerStaticIn area info).1 = .ok (id, offset) →
      ∃ finish align, Runtime.placeStatic area.used info = some (finish, align) ∧
        offset = -(finish : Int) ∧ (runtime.registerStaticIn area info).2.staticTls =
          some { area with used := finish, maxAlign := max area.maxAlign align } := by
    intro runtime area accepted
    rcases Runtime.registerStaticIn_cases runtime area info with
      ⟨error, failed⟩ | ⟨finish, align, placing, succeeded⟩
    · rw [failed] at accepted
      cases accepted
    · rw [succeeded] at accepted ⊢
      cases accepted
      exact ⟨finish, align, placing, rfl, rfl⟩
  cases present : world.runtime.staticTls with
  | some area =>
      rw [Runtime.registerStaticModule, present] at accepted ⊢
      obtain ⟨finish, align, placing, offset, after⟩ := placed _ area accepted
      exact ⟨area, finish, align, placing, offset, after, fun impossible => by cases impossible⟩
  | none =>
      cases installed with
      | false =>
          rw [Runtime.registerStaticModule, present] at accepted
          cases accepted
      | true =>
          rw [Runtime.registerStaticModule_new _ _ _ present] at accepted ⊢
          obtain ⟨finish, align, placing, offset, after⟩ := placed _ _ accepted
          exact ⟨_, finish, align, placing, offset, after, fun _ => rfl⟩

end World

/-- The thread pointer of new storage is a multiple of every alignment in the area. -/
theorem storageLayout_aligned {runtime : Runtime} {staticSize : Nat} {layout : Layout}
    (chosen : runtime.storageLayout = some (staticSize, layout)) :
    ∃ most, runtime.staticUsedInfo.2 ≤ 2 ^ most ∧ 2 ^ most ∣ staticSize := by
  obtain ⟨total, _, chosen⟩ := Option.bind_eq_some_iff.mp chosen
  obtain ⟨align, rounding, chosen⟩ := Option.bind_eq_some_iff.mp chosen
  obtain ⟨raised, raising, chosen⟩ := Option.bind_eq_some_iff.mp chosen
  obtain ⟨whole, _, chosen⟩ := Option.bind_eq_some_iff.mp chosen
  obtain ⟨_, _, returned⟩ := Option.bind_eq_some_iff.mp chosen
  cases returned
  obtain ⟨most, bounded, rfl, above⟩ := checkedNextPowerOfTwo_spec rounding
  exact ⟨most, by omega, dvd_alignUp bounded.le raising⟩

theorem fitting_of_aligned {align finish tp vaddr : Nat} (suitable : align ∣ finish + vaddr)
    (aligned : align ∣ tp) : Int.ModEq align (tp + -(finish : Int)) vaddr := by
  have finished : (align : Int) ∣ (finish : Int) + vaddr := by exact_mod_cast suitable
  have pointed : (align : Int) ∣ tp := by exact_mod_cast aligned
  apply Int.modEq_iff_dvd.mpr
  have whole := Int.dvd_sub finished pointed
  rw [show (vaddr : Int) - (tp + -(finish : Int)) = finish + vaddr - tp by omega]
  exact whole

theorem aligned_of_fitting {align finish tp vaddr : Nat} (suitable : align ∣ finish + vaddr)
    (fitting : Int.ModEq align (tp + -(finish : Int)) vaddr) : align ∣ tp := by
  have finished : (align : Int) ∣ (finish : Int) + vaddr := by exact_mod_cast suitable
  have whole := Int.dvd_sub finished (Int.modEq_iff_dvd.mp fitting)
  rw [show (finish : Int) + vaddr - (vaddr - (tp + -(finish : Int))) = tp by omega] at whole
  exact_mod_cast whole

theorem page_aligned {low address : Nat} (small : 2 ^ low ≤ 0x1000) (page : address % 0x1000 = 0) :
    2 ^ low ∣ address := by
  have inside : low ≤ 12 := (Nat.pow_le_pow_iff_right Nat.one_lt_two).mp small
  exact (Nat.pow_dvd_pow 2 inside).trans (Nat.dvd_of_mod_eq_zero page)

/-! ## Up to a page -/

section Aligned

variable {info : TlsInfo} {low : Nat}

theorem staticAligned_of_small (word : info.Word) (bounded : low < usizeBits)
    (power : info.align = 2 ^ low) (small : info.align ≤ 0x1000) : info.StaticAligned := by
  intro world reached base installed id offset granted accepted actions later run
  obtain ⟨before, finish, align, placing, rfl, present, _⟩ := World.registered_place accepted
  obtain rfl := placeStatic_two_pow bounded power placing
  obtain ⟨_, _, suitable⟩ := placeStatic_placeable word bounded power placing
  have registering : World.system.step world (.registerStatic info base installed)
      (world.registerStaticAt info base installed) := by
    change World.act _ _ = _
    rw [World.act, if_pos granted]
  obtain ⟨area, areaPresent, grown⟩ := area_grows run present
  have aligned := run.preserves area_inductive.preserved
    (area_inductive.reachable (reached.next registering))
  rw [power] at small
  constructor
  · intro found same
    have page := (aligned found same).page
    exact fitting_of_aligned suitable (power ▸ page_aligned small page)
  · intro start tp next grant allocating
    obtain ⟨⟨staticSize, layout⟩, chosen, returned⟩ := Option.bind_eq_some_iff.mp allocating
    cases returned
    rw [chosen] at grant
    obtain ⟨most, above, multiple⟩ := storageLayout_aligned chosen
    have reach : 2 ^ low ≤ 2 ^ most := by
      have known : info.align ≤ area.maxAlign := (Nat.le_max_right _ _).trans grown.maxAlign
      rw [Runtime.staticUsedInfo, areaPresent] at above
      exact power ▸ known.trans above
    have divides : 2 ^ low ∣ 2 ^ most :=
      Nat.pow_dvd_pow 2 ((Nat.pow_le_pow_iff_right Nat.one_lt_two).mp reach)
    have pointed : info.align ∣ start + staticSize :=
      power ▸ Nat.dvd_add (page_aligned small grant.1) (divides.trans multiple)
    exact fitting_of_aligned suitable pointed

theorem allocated_block {runtime next : Runtime} {tp id ptr block : Nat}
    {source : Option TlsImageSource}
    (accepted : runtime.allocateDynamicBlock tp id info source ptr = .ok (some block, next)) :
    block = ptr ∧ (Runtime.blockLayout info).isSome := by
  unfold Runtime.allocateDynamicBlock at accepted
  cases chosen : Runtime.blockLayout info with
  | none =>
      rw [chosen] at accepted
      cases accepted
  | some layout =>
      rw [chosen] at accepted
      rcases Runtime.fillDynamicBlock_vectors accepted with
        ⟨_, _, impossible, _⟩ | ⟨_, same, _⟩
      · cases impossible
      · exact ⟨Option.some.inj same, rfl⟩

theorem blockLayout_isSome (bounded : low < usizeBits) (power : info.align = 2 ^ low) :
    (Runtime.blockLayout info).isSome ↔ info.Allocatable := by
  have rounding : checkedNextPowerOfTwo usizeBits (max info.align 1) = some info.align := by
    rw [power, Nat.max_eq_left (Nat.two_pow_pos low)]
    exact checkedNextPowerOfTwo_two_pow bounded
  rw [Runtime.blockLayout, rounding, Option.getD_some, Layout.fromSizeAlign,
    TlsInfo.Allocatable]
  constructor
  · intro laid
    split at laid
    · next valid => exact valid.2
    · cases laid
  · intro fits
    rw [if_pos ⟨⟨low, bounded, power⟩, fits⟩]
    rfl

theorem dynamicAligned_of_small (power : info.align = 2 ^ low) (small : info.align ≤ 0x1000) :
    info.DynamicAligned := by
  intro world _ tp id source _ _ _ ptr block next granted accepted
  obtain ⟨rfl, laid⟩ := allocated_block accepted
  obtain ⟨layout, chosen⟩ := Option.isSome_iff_exists.mp laid
  rw [chosen] at granted
  rw [power] at small ⊢
  exact page_aligned small granted.1

theorem staticAligned_of_unplaceable (word : info.Word) (bounded : low < usizeBits)
    (power : info.align = 2 ^ low) (unplaceable : ¬ info.Placeable) : info.StaticAligned := by
  intro world _ base installed id offset _ accepted
  obtain ⟨before, finish, align, placing, _⟩ := World.registered_place accepted
  exact absurd ⟨finish, placeStatic_placeable word bounded power placing⟩ unplaceable

theorem dynamicAligned_of_unallocatable (bounded : low < usizeBits) (power : info.align = 2 ^ low)
    (unallocatable : ¬ info.Allocatable) : info.DynamicAligned := by
  intro world _ tp id source _ _ _ ptr block next _ accepted
  exact absurd ((blockLayout_isSome bounded power).mp (allocated_block accepted).2) unallocatable

/-! ## Beyond a page -/

/-- An odd number of pages is a multiple of no more than a page. -/
theorem small_of_odd_page {address : Nat} (odd : address % 0x2000 = 0x1000)
    (divides : 2 ^ low ∣ address) : 2 ^ low ≤ 0x1000 := by
  by_contra large
  have above : 12 < low := (Nat.pow_lt_pow_iff_right Nat.one_lt_two).mp (Nat.lt_of_not_le large)
  have pages : 2 ^ 13 ∣ address := (Nat.pow_dvd_pow 2 above).trans divides
  have even : address % 0x2000 = 0 := Nat.mod_eq_zero_of_dvd pages
  omega

/-- The kernel may put the first arena on an odd page. -/
theorem small_of_staticAligned (word : info.Word) (bounded : low < usizeBits)
    (power : info.align = 2 ^ low) (placeable : info.Placeable) (aligned : info.StaticAligned) :
    info.align ≤ 0x1000 := by
  obtain ⟨finish, placing⟩ := placeStatic_empty word bounded power placeable
  obtain ⟨_, _, suitable⟩ := placeStatic_placeable word bounded power placing
  have granted : World.new.Granted 0x11000 World.new.wantedArena := by decide
  have accepted : (World.new.runtime.registerStaticModule info 0x11000 true).1 =
      .ok (1, -(finish : Int)) := by
    rw [Runtime.registerStaticModule_new _ _ _ rfl]
    exact Runtime.registerStaticIn_total placing (by decide)
  obtain ⟨before, _, _, _, _, present, initial⟩ := World.registered_place accepted
  obtain ⟨fitting, _⟩ := aligned .new (.start rfl) 0x11000 true 1 (-(finish : Int)) granted accepted
    [] _ .refl
  have pointed := aligned_of_fitting suitable (fitting _ present)
  rw [initial rfl, power] at pointed
  exact power ▸ small_of_odd_page (by decide) pointed

/-- The initial thread, in an arena on an odd page. -/
def started : World := World.new.registerStaticAt ⟨0, 0, 1⟩ 0x11000 true

def startedWith (module : TlsModule) : World := { started with
  runtime := { started.runtime with
    modules := [some (.static ⟨0, 0, 1⟩ 0), some module] }
  registered := started.registered + 1 }

theorem started_facts : started.live = [0x111000] ∧ started.regions = [⟨0x11000, 0x100940⟩] ∧
    started.runtime.modules = [some (.static ⟨0, 0, 1⟩ 0)] ∧
    ((started.runtime.tcbs 0x111000).dtv.map Dtv.slots) = some dtvSlotCount ∧
    started.runtime.dtvValue 0x111000 2 = none := by
  decide +kernel

/-- A dynamic module is registered and published with an empty image. -/
theorem startedWith_reachable (info : TlsInfo) :
    World.system.Reachable (startedWith (.dynamic info (some ⟨some []⟩))) := by
  obtain ⟨_, _, modules, _⟩ := started_facts
  have first : World.new.act (.registerStatic ⟨0, 0, 1⟩ 0x11000 true) = some (.ok started) := by
    have granted : World.new.Granted 0x11000 World.new.wantedArena := by decide
    rw [World.act, if_pos granted]
    rfl
  have second : started.act (.registerDynamic info) =
      some (.ok (startedWith (.dynamic info none))) := by
    have counted : checkedAdd usizeBits started.runtime.modules.length 1 = some 2 := by
      rw [modules]
      decide
    have registering : started.runtime.registerDynamicModule info = .ok (2, { started.runtime with
        modules := [some (.static ⟨0, 0, 1⟩ 0), some (.dynamic info none)] }) := by
      rw [Runtime.registerDynamicModule, Runtime.registerModule, counted, modules]
      rfl
    rw [World.act, registering]
    rfl
  have third : (startedWith (.dynamic info none)).act (.initTls ⟨some []⟩ 2 none) =
      some (.ok (startedWith (.dynamic info (some ⟨some []⟩)))) := rfl
  have begun : World.system.Reachable .new := .start rfl
  exact ((begun.next first).next second).next third

/-- The kernel may put a dynamic block on an odd page. -/
theorem small_of_dynamicAligned (bounded : low < usizeBits) (power : info.align = 2 ^ low)
    (allocatable : info.Allocatable) (aligned : info.DynamicAligned) : info.align ≤ 0x1000 := by
  obtain ⟨live, regions, modules, vector, unset⟩ := started_facts
  obtain ⟨dtv, present, slots⟩ := Option.map_eq_some_iff.mp vector
  obtain ⟨layout, chosen⟩ := Option.isSome_iff_exists.mp
    ((blockLayout_isSome bounded power).mpr allocatable)
  let world := startedWith (.dynamic info (some ⟨some []⟩))
  have granted : world.Granted 0x401000 (Runtime.blockLayout info) := by
    rw [chosen]
    refine ⟨by decide, Nat.succ_ne_zero _, ?_⟩
    intro used listed
    rw [show world.regions = [⟨0x11000, 0x100940⟩] from regions] at listed
    cases List.mem_singleton.mp listed
    exact .inr (by simp)
  have member : 0x111000 ∈ world.live := by
    rw [show world.live = [0x111000] from live]
    exact List.mem_singleton.mpr rfl
  have registered : world.runtime.tlsModule 2 = some (.dynamic info (some ⟨some []⟩)) := rfl
  obtain ⟨next, filling⟩ := @Runtime.fillDynamicBlock_total world.runtime 0x111000 2 0x401000 info
    ⟨some []⟩ layout [] dtv (by decide) present (by decide) (slots ▸ by decide) rfl
    (Nat.zero_le _) (by omega)
  have accepted : world.runtime.allocateDynamicBlock 0x111000 2 info (some ⟨some []⟩) 0x401000 =
      .ok (some 0x401000, next) := by
    unfold Runtime.allocateDynamicBlock
    rw [chosen]
    exact filling
  have pointed := aligned world (startedWith_reachable info) 0x111000 2 _ member registered unset
    0x401000 0x401000 next granted accepted
  rw [power] at pointed ⊢
  exact small_of_odd_page (by decide) pointed

end Aligned

/-- The blocks of a module are aligned as its segment asks, on every thread, exactly when
a page is enough, or no block can be made at all. -/
theorem tls_blocks_aligned_iff (info : TlsInfo) (word : info.Word)
    (power : ∃ low < usizeBits, info.align = 2 ^ low) :
    info.StaticAligned ∧ info.DynamicAligned ↔
      info.align ≤ 0x1000 ∨ ¬ info.Placeable ∧ ¬ info.Allocatable := by
  obtain ⟨low, bounded, power⟩ := power
  constructor
  · rintro ⟨static, dynamic⟩
    by_cases placeable : info.Placeable
    · exact .inl (small_of_staticAligned word bounded power placeable static)
    · by_cases allocatable : info.Allocatable
      · exact .inl (small_of_dynamicAligned bounded power allocatable dynamic)
      · exact .inr ⟨placeable, allocatable⟩
  · rintro (small | ⟨unplaceable, unallocatable⟩)
    · exact ⟨staticAligned_of_small word bounded power small, dynamicAligned_of_small power small⟩
    · exact ⟨staticAligned_of_unplaceable word bounded power unplaceable,
        dynamicAligned_of_unallocatable bounded power unallocatable⟩

def pageTls : TlsInfo := ⟨64, 16, 4096⟩
def twoPageTls : TlsInfo := ⟨64, 16, 8192⟩

theorem tls_blocks_aligned_iff_page : pageTls.StaticAligned ∧ pageTls.DynamicAligned :=
  (tls_blocks_aligned_iff pageTls ⟨by decide, by decide, by decide⟩ ⟨12, by decide, rfl⟩).mpr
    (.inl (by decide))

/-- A segment that asks for two pages, in an arena on an odd page. -/
def twoPages : World := World.new.registerStaticAt twoPageTls 0x11000 true

/-- Its block is misplaced on the initial thread, in storage on an odd page, and where it
is a block of its own. -/
theorem two_page_blocks_misaligned :
    World.system.Run .new [.registerStatic twoPageTls 0x11000 true] twoPages ∧
      twoPages.runtime.tlsModule 1 = some (.static twoPageTls (-8176)) ∧
      twoPages.runtime.staticTls = some ⟨0x111000, 8176, 8192⟩ ∧
      ¬ Int.ModEq 8192 (0x111000 + -8176) 16 ∧
      twoPages.Granted 0x401000 (twoPages.runtime.storageLayout.map Prod.snd) ∧
      (twoPages.runtime.allocateStorage 0x401000).map Prod.fst = some 0x405000 ∧
      ¬ Int.ModEq 8192 (0x405000 + -8176) 16 ∧
      twoPageTls.Word ∧ ¬ twoPageTls.StaticAligned ∧ ¬ twoPageTls.DynamicAligned := by
  have word : twoPageTls.Word := ⟨by decide, by decide, by decide⟩
  have large : ¬ twoPageTls.align ≤ 0x1000 := by decide
  have placeable : twoPageTls.Placeable := ⟨8176, by decide, by decide, by decide⟩
  have allocatable : twoPageTls.Allocatable := by
    rw [TlsInfo.Allocatable]
    decide
  have granted : World.new.Granted 0x11000 World.new.wantedArena := by decide
  have registering : World.system.step .new (.registerStatic twoPageTls 0x11000 true) twoPages := by
    change World.act _ _ = _
    rw [World.act, if_pos granted]
    rfl
  refine ⟨.snoc .refl registering, by decide +kernel, by decide +kernel, by decide,
    by decide +kernel, by decide +kernel, by decide, word, fun aligned => large ?_,
    fun aligned => large ?_⟩
  · exact @small_of_staticAligned _ 13 word (by decide) rfl placeable aligned
  · exact @small_of_dynamicAligned _ 13 (by decide) rfl allocatable aligned

end DynLinker.Tls
