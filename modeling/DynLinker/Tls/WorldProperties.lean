import DynLinker.Tls.RuntimeProperties
import DynLinker.Tls.World

/-! The steps of the world by name: what a call needs to be possible, and what it
leaves behind. -/

set_option autoImplicit false

namespace DynLinker.Tls.World

open Lib

inductive Transition (world : World) : Action → World → Prop where
  | registerDynamic {info : TlsInfo} :
      Transition world (.registerDynamic info)
        (world.registerWith (world.runtime.registerDynamicModule info))
  | registerStatic {info : TlsInfo} {base : Nat} {installed : Bool} :
      world.Granted base world.wantedArena →
      Transition world (.registerStatic info base installed)
        (world.registerStaticAt info base installed)
  | addStatic {info : TlsInfo} {offset : Int} :
      Transition world (.addStatic info offset)
        (world.registerWith (world.runtime.addStaticModule info offset))
  | initTls {source : TlsImageSource} {id : Nat} {offset : Option Int}
      {result : Except TlsError Unit} {runtime : Runtime} :
      world.runtime.initTlsModule source id offset = .ok (result, runtime) →
      Transition world (.initTls source id offset) { world with runtime := runtime }
  | unregister {id : Nat} :
      Transition world (.unregister id)
        { world with runtime := world.runtime.unregisterModule id }
  | getAddr {tp id tiOffset ptr addr : Nat} {runtime : Runtime} :
      tp = 0 ∨ tp ∈ world.live → world.Granted ptr (world.runtime.wantedBlock tp id) →
      world.runtime.getAddr tp id tiOffset ptr = .ok (addr, runtime) →
      Transition world (.getAddr tp id tiOffset ptr) { world with runtime := runtime }
  | allocate {base : Nat} {result : Nat × Runtime} :
      world.Granted base (world.runtime.storageLayout.map Prod.snd) →
      world.runtime.allocate base = .ok result →
      Transition world (.allocate base) (world.addLive result)
  | provide {storage : Storage} :
      storage.base ≤ storage.tp → world.Unused storage.region →
      Transition world (.provide storage) { world with
        runtime := world.runtime.allocZeroed ⟨storage.region.size, 1⟩ storage.base
        provided := world.provided ++ [storage] }
  | init {tp : Nat} {result : Nat × Runtime} :
      world.HasStorage tp → world.runtime.init tp = .ok result →
      Transition world (.init tp) (world.addLive result)
  | deallocate {tp : Nat} {deallocTcb : Bool} :
      world.HasStorage tp →
      Transition world (.deallocate tp deallocTcb) { world with
        runtime := world.runtime.dlDeallocateTls tp deallocTcb
        live := world.live.filter fun other => other ≠ tp }
  | reclaim {tp : Nat} :
      tp ∉ world.live →
      Transition world (.reclaim tp) { world with
        provided := world.provided.filter fun storage => storage.tp ≠ tp }

theorem transition_of_act {world next : World} {action : Action}
    (acted : world.act action = some (.ok next)) : Transition world action next := by
  cases action with
  | registerDynamic info =>
      have result : world.registerWith (world.runtime.registerDynamicModule info) = next :=
        Except.ok.inj (Option.some.inj acted)
      exact result ▸ .registerDynamic
  | registerStatic info base installed =>
      rw [act] at acted
      split at acted
      · next granted =>
          cases acted
          exact .registerStatic granted
      · cases acted
  | addStatic info offset =>
      have result : world.registerWith (world.runtime.addStaticModule info offset) = next :=
        Except.ok.inj (Option.some.inj acted)
      exact result ▸ .addStatic
  | initTls source id offset =>
      obtain ⟨⟨result, runtime⟩, accepted, returned⟩ := bind_eq_ok.mp (Option.some.inj acted)
      cases returned
      exact .initTls accepted
  | unregister id =>
      have result : { world with runtime := world.runtime.unregisterModule id } = next :=
        Except.ok.inj (Option.some.inj acted)
      exact result ▸ .unregister
  | getAddr tp id tiOffset ptr =>
      rw [act] at acted
      split at acted
      · next possible =>
          obtain ⟨⟨addr, runtime⟩, accepted, returned⟩ := bind_eq_ok.mp (Option.some.inj acted)
          cases returned
          exact .getAddr possible.1 possible.2 accepted
      · cases acted
  | allocate base =>
      rw [act] at acted
      split at acted
      · next granted =>
          obtain ⟨result, accepted, returned⟩ := bind_eq_ok.mp (Option.some.inj acted)
          cases returned
          exact .allocate granted accepted
      · cases acted
  | provide storage =>
      rw [act] at acted
      split at acted
      · next possible =>
          cases acted
          exact .provide possible.1 possible.2
      · cases acted
  | init tp =>
      rw [act] at acted
      split at acted
      · next stored =>
          obtain ⟨result, accepted, returned⟩ := bind_eq_ok.mp (Option.some.inj acted)
          cases returned
          exact .init stored accepted
      · cases acted
  | deallocate tp deallocTcb =>
      rw [act] at acted
      split at acted
      · next stored =>
          cases acted
          exact .deallocate stored
      · cases acted
  | reclaim tp =>
      rw [act] at acted
      split at acted
      · cases acted
      · next ended =>
          cases acted
          exact .reclaim ended

/-! ## Registering static modules -/

/-- The world once the initial thread has its storage and its thread pointer. -/
def withArea (world : World) (base : Nat) : World :=
  { world with
    runtime := world.runtime.withArea base
    live := (base + staticTlsArenaSize) :: world.live }

/-- A static module is registered in an area that exists. -/
def registerIn (world : World) (area : StaticTlsArea) (info : TlsInfo) : World :=
  world.afterRegisterStatic info (world.runtime.registerStaticIn area info).2
    (world.runtime.registerStaticIn area info).1

theorem storages_withArea {world : World} (absent : world.runtime.staticTls = none) (base : Nat) :
    (world.withArea base).storages = ⟨base + staticTlsArenaSize, base⟩ :: world.storages := by
  simp [storages, arena, absent, withArea, Runtime.withArea, Runtime.initTcb, Runtime.allocZeroed]

theorem region_arena (base : Nat) :
    (Storage.mk (base + staticTlsArenaSize) base).region = ⟨base, Runtime.arenaLayout.size⟩ := by
  simp only [Storage.region, Runtime.arenaLayout, Region.mk.injEq, true_and]
  omega

theorem registerStaticAt_known {world : World} {area : StaticTlsArea}
    (present : world.runtime.staticTls = some area) (info : TlsInfo) (base : Nat)
    (installed : Bool) :
    world.registerStaticAt info base installed = world.registerIn area info := by
  have registering : world.runtime.registerStaticModule info base installed =
      world.runtime.registerStaticIn area info := by
    rw [Runtime.registerStaticModule, present]
  simp only [registerStaticAt, present, Option.isSome_some, if_true, registering]
  rfl

theorem registerStaticAt_refused {world : World} (absent : world.runtime.staticTls = none)
    (info : TlsInfo) (base : Nat) :
    world.registerStaticAt info base false = { world with
      runtime := { (world.runtime.allocZeroed Runtime.arenaLayout base).initTcb
        (base + staticTlsArenaSize) with
        leaked := ⟨base, pageRoundedSize Runtime.arenaLayout⟩ :: world.runtime.leaked } } := by
  have failed : world.runtime.registerStaticModule info base false =
      (.error .resolverUnsupported, { (world.runtime.allocZeroed Runtime.arenaLayout base).initTcb
        (base + staticTlsArenaSize) with
        leaked := ⟨base, pageRoundedSize Runtime.arenaLayout⟩ :: world.runtime.leaked }) := by
    rw [Runtime.registerStaticModule, absent]
    rfl
  rw [registerStaticAt, failed]
  simp only [absent, Option.isSome_none, afterRegisterStatic, withInitial, Runtime.initTcb,
    Runtime.allocZeroed]
  rfl

theorem registerStaticAt_first {world : World} (absent : world.runtime.staticTls = none)
    (info : TlsInfo) (base : Nat) :
    world.registerStaticAt info base true =
      (world.withArea base).registerIn ⟨base + staticTlsArenaSize, 0, 1⟩ info := by
  rw [registerStaticAt, Runtime.registerStaticModule_new _ _ _ absent, registerIn, withArea]
  simp only [absent, Option.isSome_none]
  rcases Runtime.registerStaticIn_cases (world.runtime.withArea base)
    ⟨base + staticTlsArenaSize, 0, 1⟩ info with ⟨error, failed⟩ | ⟨finish, align, _, succeeded⟩
  · rw [failed]
    rfl
  · rw [succeeded]
    rfl

end DynLinker.Tls.World
