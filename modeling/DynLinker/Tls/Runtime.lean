import DynLinker.Lib.ByteMemory
import DynLinker.Lib.Outcome
import DynLinker.Lib.SwapRemove
import DynLinker.Tls.Layout
import Mathlib.Logic.Function.Basic

/-! The thread-local storage runtime of the replacement loader (`tls.rs`,
`glibc/v2_39/tls.rs`, `symbols/tls.rs`). Addresses are natural numbers and `0` is the
null pointer. Blocks are bytes of one memory; a thread control block and the vector it
owns are kept as records under their thread pointer. Where the code allocates, the
address that the kernel chose is an argument. -/

set_option autoImplicit false

namespace DynLinker.Tls

open Lib

structure TlsInfo where
  memsz : Nat
  vaddr : Nat
  align : Nat
deriving DecidableEq

/-- `with_image` of a source passes the image on, or fails. -/
structure TlsImageSource where
  image : Option (List UInt8)
deriving DecidableEq

inductive TlsError where
  | resolverUnsupported
  | invalidModuleId (id : Nat)
  | moduleMismatch
deriving DecidableEq

structure StaticTlsArea where
  tp : Nat
  used : Nat
  maxAlign : Nat
deriving DecidableEq

structure StaticTlsModule where
  id : Nat
  info : TlsInfo
  source : Option TlsImageSource
  offset : Int
deriving DecidableEq

inductive TlsModule where
  | dynamic (info : TlsInfo) (source : Option TlsImageSource)
  | static (info : TlsInfo) (offset : Int)
deriving DecidableEq

structure DynamicTlsBlock where
  tp : Nat
  ptr : Nat
  layout : Layout
deriving DecidableEq

structure TlsAllocation where
  tp : Nat
  base : Nat
  layout : Layout
deriving DecidableEq

structure DtvEntry where
  first : Nat
  second : Nat
deriving DecidableEq

/-- The dynamic thread vector; `slots` is the count in front of the entries. -/
structure Dtv where
  slots : Nat
  entries : Nat → DtvEntry

structure Tcb where
  self : Nat
  dtv : Option Dtv
  threadSelf : Nat
  stackGuard : Nat
  pointerGuard : Nat

/-- The statics of the module, and the memory they manage. `leaked` are blocks whose
last pointer was dropped without a `dealloc`. -/
structure Runtime where
  memory : ByteMemory
  tcbs : Nat → Tcb
  staticTls : Option StaticTlsArea
  staticModules : List StaticTlsModule
  modules : List (Option TlsModule)
  dynamicBlocks : List DynamicTlsBlock
  allocations : List TlsAllocation
  leaked : List Region

def dtvSlotCount : Nat := 64
def bootstrapStackGuard : Nat := 0x2f6a5d1b3c4e8790
def bootstrapPointerGuard : Nat := 0x6b431d2984a07c5e

def Tcb.zero : Tcb := ⟨0, none, 0, 0, 0⟩

def Dtv.new : Dtv := ⟨dtvSlotCount, fun _ => ⟨0, 0⟩⟩

/-- `dtv_entry`: the entry of a module, if the vector has one. -/
def Tcb.dtvEntry (tcb : Tcb) (id : Nat) : Option DtvEntry := do
  let dtv ← tcb.dtv
  if id = 0 ∨ dtv.slots < id then none else some (dtv.entries id)

def Tcb.setDtvEntry (tcb : Tcb) (id : Nat) (entry : DtvEntry) : Tcb :=
  { tcb with dtv := tcb.dtv.map fun dtv =>
      { dtv with entries := Function.update dtv.entries id entry } }

/-- What `init` closures write: the image, then zeros. The length difference is
computed in `usize`. -/
def blockBytes (info : TlsInfo) (image : List UInt8) : Except Panic (List UInt8) :=
  if image.length ≤ info.memsz then .ok (image ++ List.replicate (info.memsz - image.length) 0)
  else .error ⟨"attempt to subtract with overflow"⟩

/-- `tp.offset(offset)`. -/
def offsetPtr (tp : Nat) (offset : Int) : Nat := (tp + offset).toNat

/-- The module with this id; the ids start at one. -/
def slotAt (modules : List (Option TlsModule)) (id : Nat) : Option TlsModule :=
  if id = 0 then none else (modules[id - 1]?).join

namespace Runtime

def new : Runtime where
  memory _ := 0
  tcbs _ := .zero
  staticTls := none
  staticModules := []
  modules := []
  dynamicBlocks := []
  allocations := []
  leaked := []

/-- `alloc_zeroed`, at the address that the kernel chose. -/
def allocZeroed (runtime : Runtime) (layout : Layout) (ptr : Nat) : Runtime :=
  { runtime with
    memory := runtime.memory.write ptr (List.replicate layout.size 0)
    tcbs := fun tp => if ptr ≤ tp ∧ tp < ptr + layout.size then .zero else runtime.tcbs tp }

/-! ## The thread control block -/

def deallocateTcb (runtime : Runtime) (tp : Nat) : Runtime :=
  if tp = 0 then runtime
  else { runtime with
    tcbs := Function.update runtime.tcbs tp { runtime.tcbs tp with dtv := none } }

def initTcb (runtime : Runtime) (tp : Nat) : Runtime :=
  { runtime with
    tcbs := Function.update runtime.tcbs tp
      ⟨tp, some .new, tp, bootstrapStackGuard, bootstrapPointerGuard⟩ }

def dtvValue (runtime : Runtime) (tp id : Nat) : Option Nat := do
  if tp = 0 then none
  else
    let entry ← (runtime.tcbs tp).dtvEntry id
    if entry.first = 0 then none else some entry.first

/-- `set_dtv_value`: `none` where the source returns `false`. -/
def setDtvValue (runtime : Runtime) (tp id value toFree : Nat) : Option Runtime := do
  if tp = 0 then none
  else
    let _ ← (runtime.tcbs tp).dtvEntry id
    return { runtime with
      tcbs := Function.update runtime.tcbs tp
        ((runtime.tcbs tp).setDtvEntry id ⟨value, toFree⟩) }

/-! ## Registration -/

def registerModule (runtime : Runtime) (module : TlsModule) : Except TlsError (Nat × Runtime) :=
  match checkedAdd usizeBits runtime.modules.length 1 with
  | none => .error .resolverUnsupported
  | some raw => .ok (raw, { runtime with modules := runtime.modules ++ [some module] })

def registerDynamicModule (runtime : Runtime) (info : TlsInfo) :
    Except TlsError (Nat × Runtime) :=
  runtime.registerModule (.dynamic info none)

def tlsModule (runtime : Runtime) (id : Nat) : Option TlsModule := slotAt runtime.modules id

def unregisterModule (runtime : Runtime) (id : Nat) : Runtime :=
  if id = 0 then runtime
  else { runtime with
    modules := runtime.modules.set (id - 1) none
    staticModules := runtime.staticModules.filter fun module => module.id ≠ id }

/-- The layout of the initial thread's storage. -/
def arenaLayout : Layout := ⟨staticTlsArenaSize + tlsTcbSize, 4096⟩

/-- `ensure_static_tls_area`; `installed` is the kernel's answer to the new thread
pointer. A refusal drops the arena. -/
def ensureStaticTlsArea (runtime : Runtime) (base : Nat) (installed : Bool) :
    Except TlsError StaticTlsArea × Runtime :=
  let tp := base + staticTlsArenaSize
  let runtime := (runtime.allocZeroed arenaLayout base).initTcb tp
  if installed then (.ok ⟨tp, 0, 1⟩, runtime)
  else (.error .resolverUnsupported,
    { runtime with leaked := ⟨base, pageRoundedSize arenaLayout⟩ :: runtime.leaked })

/-- Where the next static module ends, as its distance from the thread pointer, and
its alignment. -/
def placeStatic (used : Nat) (info : TlsInfo) : Option (Nat × Nat) := do
  let align ← checkedNextPowerOfTwo usizeBits (max info.align 1)
  let finish ← staticModuleEnd used info.memsz info.vaddr align
  let total ← staticUsedWithRseq finish
  if staticTlsArenaSize < total then none else some (finish, align)

/-- `register_static_module` once the area exists. -/
def registerStaticIn (runtime : Runtime) (area : StaticTlsArea) (info : TlsInfo) :
    Except TlsError (Nat × Int) × Runtime :=
  match placeStatic area.used info with
  | none => (.error .resolverUnsupported, runtime)
  | some (used, align) =>
      let offset : Int := -(used : Int)
      match runtime.registerModule (.static info offset) with
      | .error error => (.error error, runtime)
      | .ok (id, runtime) => (.ok (id, offset), { runtime with
          staticTls := some { area with used := used, maxAlign := max area.maxAlign align }
          staticModules := runtime.staticModules ++ [⟨id, info, none, offset⟩] })

def registerStaticModule (runtime : Runtime) (info : TlsInfo) (base : Nat) (installed : Bool) :
    Except TlsError (Nat × Int) × Runtime :=
  match runtime.staticTls with
  | some area => runtime.registerStaticIn area info
  | none =>
      match runtime.ensureStaticTlsArea base installed with
      | (.error error, runtime) => (.error error, runtime)
      | (.ok area, runtime) =>
          Runtime.registerStaticIn { runtime with staticTls := some area } area info

def addStaticModule (runtime : Runtime) (info : TlsInfo) (offset : Int) :
    Except TlsError (Nat × Runtime) :=
  match runtime.registerModule (.static info offset) with
  | .error error => .error error
  | .ok (id, runtime) => .ok (id, { runtime with
      staticModules := runtime.staticModules ++ [⟨id, info, none, offset⟩] })

/-! ## Initialisation -/

/-- `init_static_tls_module`: one thread's block of a module. -/
def initStaticTlsModule (runtime : Runtime) (tp : Nat) (module : StaticTlsModule) :
    Except Panic Runtime :=
  match module.source.bind TlsImageSource.image with
  | none => .ok runtime
  | some image => do
      let dst := offsetPtr tp module.offset
      let bytes ← blockBytes module.info image
      let runtime := { runtime with memory := runtime.memory.write dst bytes }
      return (runtime.setDtvValue tp module.id dst 0).getD runtime

def initRseqArea (runtime : Runtime) (tp used : Nat) : Runtime :=
  match staticRseqOffset used with
  | none => runtime
  | some offset =>
      let area := offsetPtr tp offset
      let zeroed := runtime.memory.write area (List.replicate rseqAreaSize 0)
      { runtime with
        memory := zeroed.write (area + rseqCpuIdOffset) rseqCpuIdRegistrationFailed }

/-- `init_dynamic_tls` and `update_static_module_slot`: the slot gets a new value. -/
def replaceSlot (runtime : Runtime) (id : Nat) (module : TlsModule) : Except TlsError Runtime :=
  if id = 0 then .error .resolverUnsupported
  else if id - 1 < runtime.modules.length then
    .ok { runtime with modules := runtime.modules.set (id - 1) (some module) }
  else .error .resolverUnsupported

/-- The entry of the module in the table that `init` reads. -/
def publishStatic (modules : List StaticTlsModule) (module : StaticTlsModule) :
    List StaticTlsModule :=
  match modules.findIdx? fun other => other.id = module.id with
  | some index => modules.set index module
  | none => modules ++ [module]

def initStaticTls (runtime : Runtime) (info : TlsInfo) (source : TlsImageSource) (id : Nat)
    (offset : Int) : Except Panic (Except TlsError Unit × Runtime) :=
  match runtime.replaceSlot id (.static info offset) with
  | .error error => .ok (.error error, runtime)
  | .ok runtime =>
      let module : StaticTlsModule := ⟨id, info, some source, offset⟩
      let runtime := { runtime with staticModules := publishStatic runtime.staticModules module }
      match runtime.staticTls with
      | none => .ok (.ok (), runtime)
      | some area => do
          let runtime ← runtime.initStaticTlsModule area.tp module
          return (.ok (), runtime.initRseqArea area.tp area.used)

def initTlsModule (runtime : Runtime) (source : TlsImageSource) (id : Nat)
    (offset : Option Int) : Except Panic (Except TlsError Unit × Runtime) :=
  match runtime.tlsModule id with
  | none => .ok (.error (.invalidModuleId id), runtime)
  | some (.dynamic info _) =>
      match offset with
      | some _ => .ok (.error .moduleMismatch, runtime)
      | none =>
          match runtime.replaceSlot id (.dynamic info (some source)) with
          | .error error => .ok (.error error, runtime)
          | .ok runtime => .ok (.ok (), runtime)
  | some (.static info registered) =>
      if offset = some registered then runtime.initStaticTls info source id registered
      else .ok (.error .moduleMismatch, runtime)

/-! ## Addresses -/

def staticTlsAddr (tp : Nat) (offset : Int) (tiOffset : Nat) : Nat :=
  if tp = 0 then 0 else offsetPtr tp offset + tiOffset

def blockLayout (info : TlsInfo) : Option Layout :=
  Layout.fromSizeAlign (max info.memsz 1)
    ((checkedNextPowerOfTwo usizeBits (max info.align 1)).getD 1)

/-- `allocate_dynamic_block` from the allocation on. -/
def fillDynamicBlock (runtime : Runtime) (tp id : Nat) (info : TlsInfo)
    (source : Option TlsImageSource) (layout : Layout) (ptr : Nat) :
    Except Panic (Option Nat × Runtime) :=
  let allocated := runtime.allocZeroed layout ptr
  match source with
  | none => .ok (none, { allocated with
      leaked := ⟨ptr, pageRoundedSize layout⟩ :: allocated.leaked })
  | some source =>
      match source.image with
      | none => .ok (none, allocated)
      | some image => do
          let bytes ← blockBytes info image
          let written := { allocated with memory := allocated.memory.write ptr bytes }
          match written.setDtvValue tp id ptr ptr with
          | none => return (none, written)
          | some stored => return (some ptr, { stored with
              dynamicBlocks := stored.dynamicBlocks ++ [⟨tp, ptr, layout⟩] })

/-- `allocate_dynamic_block`, when the allocator answers with `ptr`. -/
def allocateDynamicBlock (runtime : Runtime) (tp id : Nat) (info : TlsInfo)
    (source : Option TlsImageSource) (ptr : Nat) : Except Panic (Option Nat × Runtime) :=
  match blockLayout info with
  | none => .ok (none, runtime)
  | some layout => runtime.fillDynamicBlock tp id info source layout ptr

def dynamicTlsAddr (runtime : Runtime) (tp id : Nat) (info : TlsInfo)
    (source : Option TlsImageSource) (tiOffset ptr : Nat) : Except Panic (Nat × Runtime) :=
  if tp = 0 then .ok (0, runtime)
  else match runtime.dtvValue tp id with
    | some block => .ok (block + tiOffset, runtime)
    | none => do
        let (block, runtime) ← runtime.allocateDynamicBlock tp id info source ptr
        match block with
        | none => return (0, runtime)
        | some block => return (block + tiOffset, runtime)

/-- `get_addr` on the thread with this thread pointer; the result is `0` for null. -/
def getAddr (runtime : Runtime) (tp id tiOffset ptr : Nat) : Except Panic (Nat × Runtime) :=
  match runtime.tlsModule id with
  | none => .ok (0, runtime)
  | some (.static _ offset) => .ok (staticTlsAddr tp offset tiOffset, runtime)
  | some (.dynamic info source) => runtime.dynamicTlsAddr tp id info source tiOffset ptr

/-- The layout that `get_addr` asks the allocator for, if it has to. -/
def wantedBlock (runtime : Runtime) (tp id : Nat) : Option Layout :=
  match runtime.tlsModule id with
  | none => none
  | some (.static _ _) => none
  | some (.dynamic info _) =>
      if tp = 0 ∨ (runtime.dtvValue tp id).isSome then none else blockLayout info

def getAddrSoft (runtime : Runtime) (tp id : Nat) : Nat :=
  if tp = 0 then 0 else (runtime.dtvValue tp id).getD 0

/-! ## Threads -/

def staticUsedInfo (runtime : Runtime) : Nat × Nat :=
  match runtime.staticTls with
  | some area => (area.used, area.maxAlign)
  | none => (0, 1)

def staticInfo (runtime : Runtime) : Nat × Nat :=
  let used := (staticUsedWithRseq runtime.staticUsedInfo.1).getD 0
  let align := max (max (max runtime.staticUsedInfo.2 rseqAreaAlign) tlsTcbAlign) 1
  (((alignUp used align).bind fun raised => checkedAdd usizeBits raised tlsTcbSize).getD 0, align)

def rseqOffset (runtime : Runtime) : Int := (staticRseqOffset runtime.staticUsedInfo.1).getD 0

/-- The layout of a new thread's storage, and the part of it below the thread pointer. -/
def storageLayout (runtime : Runtime) : Option (Nat × Layout) := do
  let used ← staticUsedWithRseq runtime.staticUsedInfo.1
  let staticAlign := max runtime.staticUsedInfo.2 rseqAreaAlign
  let align ← checkedNextPowerOfTwo usizeBits (max (max staticAlign tlsTcbAlign) 8)
  let staticSize ← alignUp used align
  let totalSize ← checkedAdd usizeBits staticSize tlsTcbSize
  let layout ← Layout.fromSizeAlign (max totalSize 1) align
  return (staticSize, layout)

def allocateStorage (runtime : Runtime) (base : Nat) : Option (Nat × Runtime) := do
  let (staticSize, layout) ← runtime.storageLayout
  let tp := base + staticSize
  let runtime := runtime.allocZeroed layout base
  return (tp, { runtime with allocations := runtime.allocations ++ [⟨tp, base, layout⟩] })

/-- `init`: the result is the thread pointer, or `0` for null. -/
def init (runtime : Runtime) (storage : Nat) : Except Panic (Nat × Runtime) :=
  if storage = 0 then .ok (0, runtime)
  else do
    let runtime ← runtime.staticModules.foldlM
      (fun runtime module => runtime.initStaticTlsModule storage module) (runtime.initTcb storage)
    return (storage, runtime.initRseqArea storage runtime.staticUsedInfo.1)

/-- `allocate` without a storage of the caller's. -/
def allocate (runtime : Runtime) (base : Nat) : Except Panic (Nat × Runtime) :=
  match runtime.allocateStorage base with
  | none => .ok (0, runtime)
  | some (storage, runtime) => runtime.init storage

def freeDynamicBlocks (runtime : Runtime) (tp : Nat) : Runtime :=
  { runtime with
    dynamicBlocks := removeBySwap (fun block => block.tp = tp) runtime.dynamicBlocks.length 0
      runtime.dynamicBlocks }

def deallocate (runtime : Runtime) (storage : Nat) (deallocTcb : Bool) : Runtime :=
  if storage = 0 then runtime
  else
    let runtime := runtime.freeDynamicBlocks storage
    if deallocTcb then
      match runtime.allocations.findIdx? fun allocation => allocation.tp = storage with
      | none => runtime
      | some index => { runtime with allocations := swapRemove runtime.allocations index }
    else runtime

/-- `_dl_deallocate_tls`. -/
def dlDeallocateTls (runtime : Runtime) (storage : Nat) (deallocTcb : Bool) : Runtime :=
  (runtime.deallocateTcb storage).deallocate storage deallocTcb

end Runtime

end DynLinker.Tls
