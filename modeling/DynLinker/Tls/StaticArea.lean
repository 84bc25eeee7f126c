import DynLinker.Tls.ControlBlocks
import DynLinker.Tls.WorldProperties
import Mathlib.Logic.Relation

/-! The area of the initial thread over whole runs. It is made once, on a page, and from
then on only its cursor and its largest alignment grow. -/

set_option autoImplicit false

namespace DynLinker.Tls

open Lib

/-- One change of the area: it is made, or a module is placed in it. -/
inductive AreaChange : Option StaticTlsArea → Option StaticTlsArea → Prop where
  | made {base : Nat} :
      base % 0x1000 = 0 → AreaChange none (some ⟨base + staticTlsArenaSize, 0, 1⟩)
  | placed {area : StaticTlsArea} {info : TlsInfo} {finish align : Nat} :
      Runtime.placeStatic area.used info = some (finish, align) →
      AreaChange (some area)
        (some { area with used := finish, maxAlign := max area.maxAlign align })

/-- What a call may do to the area. -/
abbrev AreaChanges : Option StaticTlsArea → Option StaticTlsArea → Prop :=
  Relation.ReflTransGen AreaChange

/-! ## Calls -/

namespace Runtime

variable {runtime next : Runtime}

theorem initTlsModule_staticTls {source : TlsImageSource} {id : Nat} {offset : Option Int}
    {result : Except TlsError Unit}
    (accepted : runtime.initTlsModule source id offset = .ok (result, next)) :
    next.staticTls = runtime.staticTls := by
  rcases initTlsModule_cases accepted with
    rfl | ⟨info, old, slot, rfl⟩ | ⟨info, registered, slot, _, initialising⟩
  · rfl
  · rfl
  · rcases initStaticTls_quiet initialising with rfl | ⟨statics, quiet⟩
    · rfl
    · exact quiet.staticTls

theorem addStaticModule_staticTls {info : TlsInfo} {offset : Int} {id : Nat}
    (accepted : runtime.addStaticModule info offset = .ok (id, next)) :
    next.staticTls = runtime.staticTls := by
  rw [addStaticModule] at accepted
  cases registering : runtime.registerModule (.static info offset) with
  | error error =>
      rw [registering] at accepted
      cases accepted
  | ok pair =>
      obtain ⟨number, appended⟩ := pair
      obtain ⟨_, rfl⟩ := registerModule_spec registering
      rw [registering] at accepted
      cases accepted
      rfl

theorem unregisterModule_staticTls (id : Nat) :
    (runtime.unregisterModule id).staticTls = runtime.staticTls := by
  rw [unregisterModule]
  split
  · rfl
  · rfl

end Runtime

namespace World

variable {world next : World}

theorem registerWith_staticTls {result : Except TlsError (Nat × Runtime)}
    (kept : ∀ id runtime, result = .ok (id, runtime) →
      runtime.staticTls = world.runtime.staticTls) :
    (world.registerWith result).runtime.staticTls = world.runtime.staticTls := by
  cases result with
  | error error => rfl
  | ok pair => exact kept pair.1 pair.2 rfl

theorem registerIn_areaChanges {area : StaticTlsArea} (info : TlsInfo)
    (present : world.runtime.staticTls = some area) :
    AreaChanges (some area) (world.registerIn area info).runtime.staticTls := by
  rw [registerIn]
  rcases Runtime.registerStaticIn_cases world.runtime area info with
    ⟨error, failed⟩ | ⟨finish, align, placing, succeeded⟩
  · rw [failed]
    exact present ▸ .refl
  · rw [succeeded]
    exact .single (.placed placing)

theorem registerStaticAt_areaChanges (info : TlsInfo) {base : Nat} (installed : Bool)
    (granted : world.Granted base world.wantedArena) :
    AreaChanges world.runtime.staticTls
      (world.registerStaticAt info base installed).runtime.staticTls := by
  cases present : world.runtime.staticTls with
  | some area =>
      rw [registerStaticAt_known present]
      exact registerIn_areaChanges info present
  | none =>
      rw [wantedArena, present] at granted
      cases installed with
      | false =>
          rw [registerStaticAt_refused present]
          exact present ▸ .refl
      | true =>
          rw [registerStaticAt_first present]
          refine .trans (.single (.made granted.1)) ?_
          exact @registerIn_areaChanges (world.withArea base) _ info rfl

theorem Transition.areaChanges {action : Action} (step : Transition world action next) :
    AreaChanges world.runtime.staticTls next.runtime.staticTls := by
  -- only the registration of a static module touches the area
  have quiet : next.runtime.staticTls = world.runtime.staticTls →
      AreaChanges world.runtime.staticTls next.runtime.staticTls := fun same => same ▸ .refl
  cases step with
  | registerDynamic =>
      refine quiet (registerWith_staticTls ?_)
      intro id runtime registering
      rw [(Runtime.registerModule_spec registering).2]
  | registerStatic granted => exact registerStaticAt_areaChanges _ _ granted
  | addStatic =>
      refine quiet (registerWith_staticTls ?_)
      exact fun _ _ accepted => Runtime.addStaticModule_staticTls accepted
  | initTls accepted => exact quiet (Runtime.initTlsModule_staticTls accepted)
  | unregister => exact quiet (Runtime.unregisterModule_staticTls _)
  | getAddr _ _ accepted => exact quiet (Runtime.getAddr_quiet accepted).staticTls
  | allocate _ accepted => exact quiet (Runtime.allocate_quiet accepted).staticTls
  | provide _ _ => exact .refl
  | init _ accepted => exact quiet (Runtime.init_quiet accepted).staticTls
  | deallocate _ => exact quiet (Runtime.dlDeallocateTls_quiet _ _ _).staticTls
  | reclaim _ => exact .refl

end World

/-! ## Runs -/

/-- The thread pointer lies on a page boundary, and the largest alignment is a power of two. -/
structure AreaAligned (area : StaticTlsArea) : Prop where
  page : area.tp % 0x1000 = 0
  power : ∃ low < usizeBits, area.maxAlign = 2 ^ low

theorem AreaChange.aligned {before after : Option StaticTlsArea}
    (change : AreaChange before after) (valid : ∀ area ∈ before, AreaAligned area) :
    ∀ area ∈ after, AreaAligned area := by
  cases change with
  | @made base page =>
      intro area same
      cases same
      refine ⟨?_, 0, by decide, rfl⟩
      simp only [staticTlsArenaSize]
      omega
  | @placed area info finish align placing =>
      intro later same
      cases same
      obtain ⟨page, power⟩ := valid area rfl
      obtain ⟨rounding, _⟩ := Runtime.placeStatic_eq_some_iff.mp placing
      obtain ⟨low, bounded, rfl, _⟩ := checkedNextPowerOfTwo_spec rounding
      exact ⟨page, max_two_pow power ⟨low, bounded, rfl⟩⟩

theorem area_inductive : World.system.Inductive fun world =>
    ∀ area ∈ world.runtime.staticTls, AreaAligned area where
  initially world initial := by
    intro area impossible
    rw [initial] at impossible
    cases impossible
  preserved world action next valid step := by
    exact preserves_steps (World.transition_of_act step).areaChanges
      (fun _ _ aligned change => change.aligned aligned) valid

/-- Storage has a power of two as its alignment, with or without an area. -/
theorem staticUsedInfo_power {runtime : Runtime}
    (valid : ∀ area ∈ runtime.staticTls, AreaAligned area) :
    ∃ low < usizeBits, runtime.staticUsedInfo.2 = 2 ^ low := by
  rw [Runtime.staticUsedInfo]
  cases present : runtime.staticTls with
  | none => exact ⟨0, by decide, rfl⟩
  | some area => exact (valid area present).power

/-- The thread pointer is settled, and no alignment is forgotten. -/
structure AreaGrows (before after : StaticTlsArea) : Prop where
  tp : after.tp = before.tp
  maxAlign : before.maxAlign ≤ after.maxAlign

def GrownFrom (start : StaticTlsArea) (now : Option StaticTlsArea) : Prop :=
  ∃ area ∈ now, AreaGrows start area

theorem AreaChange.grows {start : StaticTlsArea} {before after : Option StaticTlsArea}
    (change : AreaChange before after) (grown : GrownFrom start before) :
    GrownFrom start after := by
  cases change with
  | made _ =>
      obtain ⟨area, impossible, _⟩ := grown
      cases impossible
  | placed _ =>
      obtain ⟨area, present, tp, maxAlign⟩ := grown
      cases present
      exact ⟨_, rfl, tp, maxAlign.trans (Nat.le_max_left _ _)⟩

theorem area_grows {world later : World} {actions : List Action} {area : StaticTlsArea}
    (run : World.system.Run world actions later) (present : world.runtime.staticTls = some area) :
    GrownFrom area later.runtime.staticTls := by
  have kept : ∀ state label next, GrownFrom area state.runtime.staticTls →
      World.system.step state label next → GrownFrom area next.runtime.staticTls := by
    intro state label next valid step
    exact preserves_steps (World.transition_of_act step).areaChanges
      (fun _ _ grown change => change.grows grown) valid
  exact run.preserves kept ⟨area, present, rfl, Nat.le_refl _⟩

end DynLinker.Tls
