import DynLinker.Tls.StaticArea
import DynLinker.Tls.StaticTables
import DynLinker.Tls.ThreadVectors

/-! Every way in which a call of the runtime changes the tables of modules. What holds of
the tables in every state follows from these changes, one case for each. -/

set_option autoImplicit false

namespace DynLinker.Tls

open Lib

/-- One change of the tables; only segments that are `allowed` become static modules. -/
inductive TableChange (allowed : TlsInfo → Prop) (runtime : Runtime) : Runtime → Prop where
  | kept {next : Runtime} :
      next.staticTls = runtime.staticTls → next.staticModules = runtime.staticModules →
      next.modules = runtime.modules → TableChange allowed runtime next
  | dynamic (info : TlsInfo) :
      TableChange allowed runtime
        { runtime with modules := runtime.modules ++ [some (.dynamic info none)] }
  | replaced {id : Nat} {info : TlsInfo} {old : Option TlsImageSource} (source : TlsImageSource) :
      runtime.tlsModule id = some (.dynamic info old) →
      TableChange allowed runtime { runtime with
        modules := runtime.modules.set (id - 1) (some (.dynamic info (some source))) }
  | area {base : Nat} :
      runtime.staticTls = none → base ≠ 0 → base % 0x1000 = 0 →
      TableChange allowed runtime (runtime.withArea base)
  | placed {area : StaticTlsArea} {info : TlsInfo} {finish align : Nat} :
      allowed info → runtime.staticTls = some area →
      Runtime.placeStatic area.used info = some (finish, align) →
      TableChange allowed runtime (runtime.withStatic area info finish align)
  | published {module : StaticTlsModule} {source : TlsImageSource} :
      module ∈ runtime.staticModules →
      runtime.tlsModule module.id = some (.static module.info module.offset) →
      (∀ image, source.image = some image → image.length ≤ module.info.memsz) →
      TableChange allowed runtime (runtime.withSource module source)
  | unregistered (id : Nat) : TableChange allowed runtime (runtime.unregisterModule id)

/-- What a call may do to the tables. -/
abbrev TableChanges (allowed : TlsInfo → Prop) : Runtime → Runtime → Prop :=
  Relation.ReflTransGen (TableChange allowed)

namespace TableChange

variable {allowed : TlsInfo → Prop} {runtime next : Runtime}

theorem tables (change : TableChange allowed runtime next) (valid : TablesValid runtime) :
    TablesValid next := by
  cases change with
  | kept staticTls staticModules modules => exact valid.congr staticTls staticModules modules
  | dynamic info => exact valid.registerDynamic info none
  | replaced source slot => exact valid.replaceDynamic (some source) slot
  | area absent positive _ => exact valid.withArea absent positive
  | placed _ present placing => exact valid.registerStatic present placing
  | published _ slot _ => exact valid.publish _ slot
  | unregistered id => exact valid.unregister id

end TableChange

/-! ## Calls -/

namespace Runtime

variable {allowed : TlsInfo → Prop} {runtime next : Runtime}

theorem OnlyWrites.change (writes : runtime.OnlyWrites next) :
    TableChange allowed runtime next := by
  obtain ⟨_, _, rfl⟩ := writes
  exact .kept rfl rfl rfl

theorem SameTables.change (same : runtime.SameTables next) : TableChange allowed runtime next :=
  .kept same.staticTls same.staticModules same.modules

theorem init_change {tp : Nat} {result : Nat × Runtime} (accepted : runtime.init tp = .ok result) :
    TableChange allowed runtime result.2 := by
  by_cases null : tp = 0
  · rw [init, if_pos null] at accepted
    cases accepted
    exact .kept rfl rfl rfl
  · exact (init_vectors null accepted).2.1.change

theorem allocate_changes {base : Nat} {result : Nat × Runtime}
    (accepted : runtime.allocate base = .ok result) : TableChanges allowed runtime result.2 := by
  rw [allocate] at accepted
  cases allocating : runtime.allocateStorage base with
  | none =>
      rw [allocating] at accepted
      cases accepted
      exact .refl
  | some pair =>
      rw [allocating] at accepted
      obtain ⟨layout, _, returned⟩ := Option.bind_eq_some_iff.mp allocating
      cases returned
      have initialising : Runtime.init _ (base + layout.1) = .ok result := accepted
      refine .tail ?_ (init_change initialising)
      exact .single (.kept rfl rfl rfl)

theorem deallocate_change (tp : Nat) (deallocTcb : Bool) :
    TableChange allowed runtime (runtime.dlDeallocateTls tp deallocTcb) := by
  obtain ⟨_, _, _, result, _⟩ := dlDeallocateTls_spec runtime tp deallocTcb
  rw [result]
  exact .kept rfl rfl rfl

theorem unregisterModule_subset (id : Nat) {module : StaticTlsModule}
    (listed : module ∈ (runtime.unregisterModule id).staticModules) :
    module ∈ runtime.staticModules := by
  rw [unregisterModule] at listed
  split at listed
  · exact listed
  · exact (List.mem_filter.mp listed).1

theorem initTlsModule_changes (valid : TablesValid runtime) {source : TlsImageSource} {id : Nat}
    {offset : Option Int} {result : Except TlsError Unit}
    (accepted : runtime.initTlsModule source id offset = .ok (result, next)) :
    TableChanges allowed runtime next := by
  rcases initTlsModule_cases accepted with
    rfl | ⟨info, old, slot, rfl⟩ | ⟨info, registered, slot, rfl, initialising⟩
  · exact .refl
  · exact .single (.replaced source slot)
  · obtain ⟨module, listed, rfl, rfl, rfl⟩ := valid.slots id info registered slot
    cases present : runtime.staticTls with
    | none =>
        rw [valid.absent present] at listed
        cases listed
    | some area =>
        obtain ⟨middle, writing, rfl⟩ := initStaticTls_spec valid.ids listed slot present
          initialising
        obtain ⟨written, held⟩ := initStaticTlsModule_spec writing
        obtain ⟨memory, same⟩ := initRseqArea_eq middle area.tp area.used
        have tail : TableChange allowed (runtime.withSource module source)
            (middle.initRseqArea area.tp area.used) := by
          rw [same]
          obtain ⟨staticTls, staticModules, modules, _⟩ := written.sameTables
          exact .kept staticTls staticModules modules
        refine .tail (.single (.published listed slot ?_)) tail
        -- a longer image would not have been written
        intro image given
        obtain ⟨bytes, computed, _⟩ := held image given
        rw [blockBytes] at computed
        split at computed
        · next fits => exact fits
        · cases computed

theorem registerStaticIn_changes {area : StaticTlsArea} {info : TlsInfo} (admitted : allowed info)
    (present : runtime.staticTls = some area) :
    TableChanges allowed runtime (runtime.registerStaticIn area info).2 := by
  rcases registerStaticIn_cases runtime area info with
    ⟨error, failed⟩ | ⟨finish, align, placing, succeeded⟩
  · exact failed ▸ .refl
  · exact succeeded ▸ .single (.placed admitted present placing)

end Runtime

/-! ## Runs -/

/-- Static modules come from `register_static_module`, with segments that are `allowed`. -/
def Registers (allowed : TlsInfo → Prop) : Action → Prop
  | .registerDynamic _ => True
  | .registerStatic info _ _ => allowed info
  | .addStatic _ _ => False
  | .initTls _ _ _ => True
  | .unregister _ => True
  | .getAddr _ _ _ _ => True
  | .allocate _ => True
  | .provide _ => True
  | .init _ => True
  | .deallocate _ _ => True
  | .reclaim _ => True

instance (allowed : TlsInfo → Prop) [DecidablePred allowed] (action : Action) :
    Decidable (Registers allowed action) :=
  match action with
  | .registerDynamic _ => inferInstanceAs (Decidable True)
  | .registerStatic info _ _ => inferInstanceAs (Decidable (allowed info))
  | .addStatic _ _ => inferInstanceAs (Decidable False)
  | .initTls _ _ _ => inferInstanceAs (Decidable True)
  | .unregister _ => inferInstanceAs (Decidable True)
  | .getAddr _ _ _ _ => inferInstanceAs (Decidable True)
  | .allocate _ => inferInstanceAs (Decidable True)
  | .provide _ => inferInstanceAs (Decidable True)
  | .init _ => inferInstanceAs (Decidable True)
  | .deallocate _ _ => inferInstanceAs (Decidable True)
  | .reclaim _ => inferInstanceAs (Decidable True)

namespace World

variable {allowed : TlsInfo → Prop} {world next : World}

theorem registerIn_changes {area : StaticTlsArea} {info : TlsInfo} (admitted : allowed info)
    (present : world.runtime.staticTls = some area) :
    TableChanges allowed world.runtime (world.registerIn area info).runtime := by
  have same : (world.registerIn area info).runtime =
      (world.runtime.registerStaticIn area info).2 := by
    rw [registerIn]
    cases (world.runtime.registerStaticIn area info).1 with
    | error _ => rfl
    | ok _ => rfl
  rw [same]
  exact Runtime.registerStaticIn_changes admitted present

theorem registerStaticAt_changes {info : TlsInfo} (admitted : allowed info) {base : Nat}
    (installed : Bool) (granted : world.Granted base world.wantedArena) :
    TableChanges allowed world.runtime (world.registerStaticAt info base installed).runtime := by
  cases present : world.runtime.staticTls with
  | some area =>
      rw [registerStaticAt_known present]
      exact registerIn_changes admitted present
  | none =>
      rw [wantedArena, present] at granted
      obtain ⟨aligned, mapped, _⟩ := granted
      cases installed with
      | false =>
          rw [registerStaticAt_refused present]
          exact .single (.kept rfl rfl rfl)
      | true =>
          rw [registerStaticAt_first present]
          refine .trans (.single (.area present mapped aligned)) ?_
          exact @registerIn_changes allowed (world.withArea base) _ info admitted rfl

theorem Transition.changes {action : Action} (valid : TablesValid world.runtime)
    (registers : Registers allowed action) (step : Transition world action next) :
    TableChanges allowed world.runtime next.runtime := by
  cases step with
  | @registerDynamic info =>
      cases registering : world.runtime.registerDynamicModule info with
      | error error => exact .refl
      | ok pair =>
          obtain ⟨id, appended⟩ := pair
          obtain ⟨_, rfl⟩ := Runtime.registerModule_spec registering
          exact .single (.dynamic info)
  | registerStatic granted => exact registerStaticAt_changes registers _ granted
  | addStatic => exact registers.elim
  | initTls accepted => exact Runtime.initTlsModule_changes valid accepted
  | unregister => exact .single (.unregistered _)
  | getAddr _ _ accepted => exact .single (Runtime.getAddr_spec accepted).1.change
  | allocate _ accepted => exact Runtime.allocate_changes accepted
  | provide _ _ => exact .single (.kept rfl rfl rfl)
  | init _ accepted => exact .single (Runtime.init_change accepted)
  | deallocate _ => exact .single (Runtime.deallocate_change _ _)
  | reclaim _ => exact .refl

end World

/-- What every change of the tables keeps holds in every state. -/
theorem tables_inductive {allowed : TlsInfo → Prop} {invariant : Runtime → Prop}
    (initially : invariant .new)
    (preserved : ∀ runtime next, TablesValid runtime → invariant runtime →
      TableChange allowed runtime next → invariant next) :
    (World.system.restrict fun _ => Registers allowed).Inductive fun world =>
      TablesValid world.runtime ∧ invariant world.runtime where
  initially _ initial := initial ▸ ⟨TablesValid.new, initially⟩
  preserved world action next valid step := by
    have changes := (World.transition_of_act step.2).changes valid.1 step.1
    let both : Runtime → Prop := fun runtime => TablesValid runtime ∧ invariant runtime
    have kept : ∀ runtime next, both runtime → TableChange allowed runtime next → both next := by
      intro runtime next valid change
      exact ⟨change.tables valid.1, preserved _ _ valid.1 valid.2 change⟩
    have last : both next.runtime := preserves_steps changes kept valid
    exact last

end DynLinker.Tls
