import DynLinker.Lib.TransitionSystem
import DynLinker.Tls.Runtime

/-! The runtime together with the threads that use it. Every call takes the locks of
the tables it touches, so a run is a sequence of whole calls, made by any thread. -/

set_option autoImplicit false

namespace DynLinker.Tls

open Lib

/-- Memory for one thread: static blocks from `base` up to `tp`, then the control block. -/
structure Storage where
  tp : Nat
  base : Nat
deriving DecidableEq

def Storage.region (storage : Storage) : Region :=
  ⟨storage.base, storage.tp + tlsTcbSize - storage.base⟩

/-- `provided` is storage that callers mapped themselves, `live` the thread pointers of
the threads in existence. `staticHistory` and `registered` remember what was ever
registered. -/
structure World where
  runtime : Runtime
  provided : List Storage
  live : List Nat
  staticHistory : List TlsInfo
  registered : Nat

inductive Action where
  | registerDynamic (info : TlsInfo)
  | registerStatic (info : TlsInfo) (base : Nat) (installed : Bool)
  | addStatic (info : TlsInfo) (offset : Int)
  | initTls (source : TlsImageSource) (id : Nat) (offset : Option Int)
  | unregister (id : Nat)
  | getAddr (tp id tiOffset ptr : Nat)
  | allocate (base : Nat)
  | provide (storage : Storage)
  | init (tp : Nat)
  | deallocate (tp : Nat) (deallocTcb : Bool)
  | reclaim (tp : Nat)

namespace World

def new : World where
  runtime := .new
  provided := []
  live := []
  staticHistory := []
  registered := 0

def arena (world : World) : List Storage :=
  match world.runtime.staticTls with
  | none => []
  | some area => [⟨area.tp, area.tp - staticTlsArenaSize⟩]

/-- The storage of the initial thread, of threads that `allocate_storage` served, and of
threads that brought their own. -/
def storages (world : World) : List Storage :=
  world.arena ++ world.runtime.allocations.map (fun allocation => ⟨allocation.tp, allocation.base⟩)
    ++ world.provided

/-- The mappings that are in use. -/
def regions (world : World) : List Region :=
  world.storages.map Storage.region ++
    world.runtime.dynamicBlocks.map (fun block => ⟨block.ptr, pageRoundedSize block.layout⟩) ++
    world.runtime.leaked

def Unused (world : World) (region : Region) : Prop :=
  region.base ≠ 0 ∧ ∀ used ∈ world.regions, region.Apart used

instance (world : World) (region : Region) : Decidable (world.Unused region) :=
  inferInstanceAs (Decidable (_ ∧ _))

/-- What the kernel may answer to the `mmap` for a layout, if one is made: whole pages
that overlap nothing in use. -/
def Granted (world : World) (ptr : Nat) : Option Layout → Prop
  | none => True
  | some layout => ptr % 0x1000 = 0 ∧ world.Unused ⟨ptr, pageRoundedSize layout⟩

instance (world : World) (ptr : Nat) (wanted : Option Layout) :
    Decidable (world.Granted ptr wanted) :=
  match wanted with
  | none => inferInstanceAs (Decidable True)
  | some _ => inferInstanceAs (Decidable (_ ∧ _))

def wantedArena (world : World) : Option Layout :=
  if world.runtime.staticTls.isSome then none else some Runtime.arenaLayout

def IsInitial (world : World) (tp : Nat) : Prop :=
  world.runtime.staticTls.map StaticTlsArea.tp = some tp

instance (world : World) (tp : Nat) : Decidable (world.IsInitial tp) :=
  inferInstanceAs (Decidable (_ = _))

/-- The initial thread appears when its thread pointer is installed. -/
def withInitial (world : World) : World :=
  match world.runtime.staticTls with
  | none => world
  | some area => { world with live := area.tp :: world.live }

def afterRegisterStatic (world : World) (info : TlsInfo) (runtime : Runtime) :
    Except TlsError (Nat × Int) → World
  | .error _ => { world with runtime := runtime }
  | .ok _ => { world with
      runtime := runtime
      staticHistory := world.staticHistory ++ [info]
      registered := world.registered + 1 }

def registerStaticAt (world : World) (info : TlsInfo) (base : Nat) (installed : Bool) : World :=
  let (result, runtime) := world.runtime.registerStaticModule info base installed
  let next := world.afterRegisterStatic info runtime result
  -- only the call that makes the area installs a thread pointer
  if world.runtime.staticTls.isSome then next else next.withInitial

def registerWith (world : World) : Except TlsError (Nat × Runtime) → World
  | .error _ => world
  | .ok (_, runtime) => { world with runtime := runtime, registered := world.registered + 1 }

def addLive (world : World) (result : Nat × Runtime) : World :=
  { world with
    runtime := result.2
    live := if result.1 = 0 then world.live else result.1 :: world.live }

def HasStorage (world : World) (tp : Nat) : Prop :=
  ∃ storage ∈ world.storages, storage.tp = tp

instance (world : World) (tp : Nat) : Decidable (world.HasStorage tp) :=
  inferInstanceAs (Decidable (∃ storage ∈ world.storages, storage.tp = tp))

/-- One call, if it is possible: `none` when the kernel cannot give that address or the
thread does not exist. -/
def act (world : World) : Action → Option (Except Panic World)
  | .registerDynamic info =>
      some (.ok (world.registerWith (world.runtime.registerDynamicModule info)))
  | .registerStatic info base installed =>
      if world.Granted base world.wantedArena then
        some (.ok (world.registerStaticAt info base installed))
      else none
  | .addStatic info offset =>
      some (.ok (world.registerWith (world.runtime.addStaticModule info offset)))
  | .initTls source id offset => some do
      let (_, runtime) ← world.runtime.initTlsModule source id offset
      return { world with runtime := runtime }
  | .unregister id => some (.ok { world with runtime := world.runtime.unregisterModule id })
  | .getAddr tp id tiOffset ptr =>
      if (tp = 0 ∨ tp ∈ world.live) ∧ world.Granted ptr (world.runtime.wantedBlock tp id) then
        some do
          let (_, runtime) ← world.runtime.getAddr tp id tiOffset ptr
          return { world with runtime := runtime }
      else none
  | .allocate base =>
      if world.Granted base (world.runtime.storageLayout.map Prod.snd) then some do
        let result ← world.runtime.allocate base
        return world.addLive result
      else none
  | .provide storage =>
      if storage.base ≤ storage.tp ∧ world.Unused storage.region then
        some (.ok { world with
          runtime := world.runtime.allocZeroed ⟨storage.region.size, 1⟩ storage.base
          provided := world.provided ++ [storage] })
      else none
  | .init tp =>
      if world.HasStorage tp then some do
        let result ← world.runtime.init tp
        return world.addLive result
      else none
  | .deallocate tp deallocTcb =>
      if world.HasStorage tp then some (.ok { world with
        runtime := world.runtime.dlDeallocateTls tp deallocTcb
        live := world.live.filter fun other => other ≠ tp })
      else none
  | .reclaim tp =>
      if tp ∈ world.live then none
      else some (.ok { world with
        provided := world.provided.filter fun storage => storage.tp ≠ tp })

def system : TransitionSystem World Action where
  initial world := world = new
  step world action next := world.act action = some (.ok next)

/-- One call of `system.restrict condition`, executed. -/
def actWhen (condition : World → Action → Prop) [∀ world action, Decidable (condition world action)]
    (world : World) (action : Action) : Option World :=
  if condition world action then (world.act action).bind Except.toOption else none

theorem run_of_actWhen {condition : World → Action → Prop}
    [∀ world action, Decidable (condition world action)] {actions : List Action}
    {start finish : World}
    (ran : TransitionSystem.runLabels (actWhen condition) start actions = some finish) :
    (system.restrict condition).Run start actions finish :=
  TransitionSystem.Run.runGuarded (fun _ _ _ => bind_toOption_eq_some_iff.mp) ran

end World

end DynLinker.Tls
