import DynLinker.Lib.TransitionSystem
import DynLinker.Tls.RuntimeProperties

/-! The TLS resolver that the loader crate calls (`RtldTlsResolver` in `runtime/rtld.rs`),
with the operations of the runtime installed. It keeps a table of its own, which has to
agree with the slots of the runtime. -/

set_option autoImplicit false

namespace DynLinker.Tls

open Lib

inductive TlsRequest where
  | dynamic
  | static (offset : Option Int)

inductive ModuleTls where
  | dynamic (modId : Nat)
  | static (modId : Nat) (tpOffset : Int)
deriving DecidableEq

def ModuleTls.modId : ModuleTls → Nat
  | .dynamic modId => modId
  | .static modId _ => modId

def ModuleTls.tpOffset : ModuleTls → Option Int
  | .dynamic _ => none
  | .static _ tpOffset => some tpOffset

structure RtldTlsResolver where
  runtime : Runtime
  table : List (Nat × Option Int)

namespace RtldTlsResolver

def new : RtldTlsResolver := ⟨.new, []⟩

/-- The operation that serves a request. -/
def serve (runtime : Runtime) (info : TlsInfo) (base : Nat) (installed : Bool) :
    TlsRequest → Except TlsError ModuleTls × Runtime
  | .dynamic =>
      match runtime.registerDynamicModule info with
      | .error error => (.error error, runtime)
      | .ok (modId, next) => (.ok (.dynamic modId), next)
  | .static none =>
      match runtime.registerStaticModule info base installed with
      | (.error error, next) => (.error error, next)
      | (.ok (modId, tpOffset), next) => (.ok (.static modId tpOffset), next)
  | .static (some tpOffset) =>
      match runtime.addStaticModule info tpOffset with
      | .error error => (.error error, runtime)
      | .ok (modId, next) => (.ok (.static modId tpOffset), next)

def register (resolver : RtldTlsResolver) (info : TlsInfo) (request : TlsRequest) (base : Nat)
    (installed : Bool) : Except TlsError ModuleTls × RtldTlsResolver :=
  match serve resolver.runtime info base installed request with
  | (.error error, runtime) => (.error error, { resolver with runtime := runtime })
  | (.ok module, runtime) =>
      (.ok module, ⟨runtime, resolver.table ++ [(module.modId, module.tpOffset)]⟩)

def publish (resolver : RtldTlsResolver) (source : TlsImageSource) (modId : Nat) :
    Except Panic (Except TlsError Unit × RtldTlsResolver) := do
  let offset := (resolver.table.lookup modId).join
  let (result, runtime) ← resolver.runtime.initTlsModule source modId offset
  return (result, { resolver with runtime := runtime })

def unregister (resolver : RtldTlsResolver) (modId : Nat) : RtldTlsResolver where
  table := resolver.table.filter fun entry => entry.1 ≠ modId
  runtime := resolver.runtime.unregisterModule modId

end RtldTlsResolver

inductive ResolverAction where
  | register (info : TlsInfo) (request : TlsRequest) (base : Nat) (installed : Bool)
  | publish (source : TlsImageSource) (modId : Nat)
  | unregister (modId : Nat)

/-- The resolver, and the ids that `register` gave out and `unregister` has not taken back. -/
structure ResolverWorld where
  resolver : RtldTlsResolver
  live : List Nat

namespace ResolverWorld

def new : ResolverWorld := ⟨.new, []⟩

def afterRegister (world : ResolverWorld) :
    Except TlsError ModuleTls × RtldTlsResolver → ResolverWorld
  | (.error _, resolver) => { world with resolver := resolver }
  | (.ok module, resolver) => ⟨resolver, module.modId :: world.live⟩

def act (world : ResolverWorld) : ResolverAction → Except Panic ResolverWorld
  | .register info request base installed =>
      .ok (world.afterRegister (world.resolver.register info request base installed))
  | .publish source modId => do
      let (_, resolver) ← world.resolver.publish source modId
      return { world with resolver := resolver }
  | .unregister modId =>
      .ok ⟨world.resolver.unregister modId, world.live.filter fun id => id ≠ modId⟩

def system : TransitionSystem ResolverWorld ResolverAction where
  initial world := world = new
  step world action next := world.act action = .ok next

end ResolverWorld

/-! ## What the operations do to the slots -/

/-- The offset that the resolver records for a module. -/
def TlsModule.tpOffset : TlsModule → Option Int
  | .dynamic _ _ => none
  | .static _ offset => some offset

theorem Runtime.registerStaticModule_modules (runtime : Runtime) (info : TlsInfo) (base : Nat)
    (installed : Bool) :
    ((∃ error, (runtime.registerStaticModule info base installed).1 = .error error) ∧
      (runtime.registerStaticModule info base installed).2.modules = runtime.modules) ∨
    ∃ offset, (runtime.registerStaticModule info base installed).1 =
        .ok (runtime.modules.length + 1, offset) ∧
      (runtime.registerStaticModule info base installed).2.modules =
        runtime.modules ++ [some (.static info offset)] := by
  have placed : ∀ (before : Runtime) (area : StaticTlsArea), before.modules = runtime.modules →
      ((∃ error, (before.registerStaticIn area info).1 = .error error) ∧
        (before.registerStaticIn area info).2.modules = runtime.modules) ∨
      ∃ offset, (before.registerStaticIn area info).1 =
          .ok (runtime.modules.length + 1, offset) ∧
        (before.registerStaticIn area info).2.modules =
          runtime.modules ++ [some (.static info offset)] := by
    intro before area same
    rcases registerStaticIn_cases before area info with ⟨error, failed⟩ | ⟨finish, align, _, placed⟩
    · rw [failed]
      exact .inl ⟨⟨error, rfl⟩, same⟩
    · rw [placed, ← same]
      exact .inr ⟨_, rfl, rfl⟩
  cases present : runtime.staticTls with
  | some area =>
      rw [registerStaticModule, present]
      exact placed runtime area rfl
  | none =>
      cases installed with
      | true =>
          rw [registerStaticModule_new _ _ _ present]
          exact placed _ _ rfl
      | false =>
          rw [registerStaticModule, present]
          exact .inl ⟨⟨_, rfl⟩, rfl⟩

/-- A request that is refused leaves the slots; one that is served appends a slot with the
offset that the resolver is told. -/
theorem RtldTlsResolver.serve_cases (runtime : Runtime) (info : TlsInfo) (base : Nat)
    (installed : Bool) (request : TlsRequest) :
    (∃ error next, serve runtime info base installed request = (.error error, next) ∧
      next.modules = runtime.modules) ∨
    ∃ module next slot, serve runtime info base installed request = (.ok module, next) ∧
      module.modId = runtime.modules.length + 1 ∧
      next.modules = runtime.modules ++ [some slot] ∧ slot.tpOffset = module.tpOffset := by
  cases request with
  | dynamic =>
      rw [serve]
      cases registering : runtime.registerDynamicModule info with
      | error error => exact .inl ⟨error, runtime, rfl, rfl⟩
      | ok result =>
          obtain ⟨modId, next⟩ := result
          obtain ⟨fresh, appended⟩ := Runtime.registerModule_spec registering
          refine .inr ⟨_, next, .dynamic info none, rfl, fresh, ?_, rfl⟩
          rw [appended]
  | static given =>
      cases given with
      | none =>
          rw [serve]
          rcases Runtime.registerStaticModule_modules runtime info base installed with
            ⟨⟨error, failed⟩, same⟩ | ⟨offset, placed, appended⟩
          · cases registering : runtime.registerStaticModule info base installed with
            | mk result next =>
                rw [registering] at failed same
                cases failed
                exact .inl ⟨error, next, rfl, same⟩
          · cases registering : runtime.registerStaticModule info base installed with
            | mk result next =>
                rw [registering] at placed appended
                cases placed
                exact .inr ⟨_, next, _, rfl, rfl, appended, rfl⟩
      | some tpOffset =>
          rw [serve, Runtime.addStaticModule]
          cases registering : runtime.registerModule (.static info tpOffset) with
          | error error => exact .inl ⟨error, runtime, rfl, rfl⟩
          | ok result =>
              obtain ⟨modId, next⟩ := result
              obtain ⟨fresh, appended⟩ := Runtime.registerModule_spec registering
              refine .inr ⟨_, _, .static info tpOffset, rfl, fresh, ?_, rfl⟩
              rw [appended]

theorem Runtime.initRseqArea_modules (runtime : Runtime) (tp used : Nat) :
    (runtime.initRseqArea tp used).modules = runtime.modules := by
  rw [initRseqArea]
  split
  · rfl
  · rfl

theorem Runtime.replaceSlot_of_bounded (runtime : Runtime) {id : Nat} (positive : id ≠ 0)
    (bounded : id - 1 < runtime.modules.length) (module : TlsModule) :
    runtime.replaceSlot id module =
      .ok { runtime with modules := runtime.modules.set (id - 1) (some module) } := by
  rw [replaceSlot, if_neg positive, if_pos bounded]

/-- Publishing a module under its own offset succeeds and keeps the offset of the slot. -/
theorem Runtime.initTlsModule_published {runtime next : Runtime} {source : TlsImageSource}
    {id : Nat} {module : TlsModule} {result : Except TlsError Unit}
    (found : runtime.tlsModule id = some module)
    (accepted : runtime.initTlsModule source id module.tpOffset = .ok (result, next)) :
    result = .ok () ∧ ∃ slot, slot.tpOffset = module.tpOffset ∧
      next.modules = runtime.modules.set (id - 1) (some slot) := by
  obtain ⟨positive, bounded⟩ := bounded_of_tlsModule found
  rw [initTlsModule, found] at accepted
  cases module with
  | dynamic info old =>
      simp only [TlsModule.tpOffset, replaceSlot_of_bounded _ positive bounded] at accepted
      cases accepted
      exact ⟨rfl, .dynamic info (some source), rfl, rfl⟩
  | static info offset =>
      simp only [TlsModule.tpOffset, if_true, initStaticTls,
        replaceSlot_of_bounded _ positive bounded] at accepted
      cases present : runtime.staticTls with
      | none =>
          rw [present] at accepted
          cases accepted
          exact ⟨rfl, .static info offset, rfl, rfl⟩
      | some area =>
          rw [present] at accepted
          obtain ⟨written, writing, returned⟩ := bind_eq_ok.mp accepted
          cases returned
          refine ⟨rfl, .static info offset, rfl, ?_⟩
          rw [initRseqArea_modules, (initStaticTlsModule_spec writing).1.sameTables.modules]

/-! ## The tables agree -/

/-- A live id has a slot and is recorded with its offset; any other id has neither. -/
structure TablesAgree (world : ResolverWorld) : Prop where
  recorded : ∀ id ∈ world.live, ∃ module, world.resolver.runtime.tlsModule id = some module ∧
    world.resolver.table.lookup id = some module.tpOffset
  absent : ∀ id, id ∉ world.live → world.resolver.runtime.tlsModule id = none ∧
    world.resolver.table.lookup id = none

theorem lookup_append_single {Value : Type} (table : List (Nat × Value)) (key : Nat) (value : Value)
    (query : Nat) : (table ++ [(key, value)]).lookup query =
      (table.lookup query).or (if query = key then some value else none) := by
  rw [List.lookup_append]
  congr 1
  by_cases same : query = key
  · simp [same]
  · simp [List.lookup_cons, beq_false_of_ne same, same]

theorem lookup_filter_ne {Value : Type} (table : List (Nat × Value)) (key query : Nat) :
    (table.filter fun entry => entry.1 ≠ key).lookup query =
      if query = key then none else table.lookup query := by
  induction table with
  | nil => simp
  | cons entry rest ih =>
      obtain ⟨first, value⟩ := entry
      by_cases removed : first = key
      · rw [List.filter_cons_of_neg (by simp [removed]), ih]
        by_cases same : query = key
        · rw [if_pos same, if_pos same]
        · have different : query ≠ first := removed ▸ same
          simp [same, List.lookup_cons, beq_false_of_ne different]
      · rw [List.filter_cons_of_pos (by simp [removed])]
        by_cases here : query = first
        · have kept : query ≠ key := here ▸ removed
          simp [here, removed]
        · simp only [List.lookup_cons, beq_false_of_ne here, ih]

namespace TablesAgree

variable {world : ResolverWorld}

theorem new : TablesAgree .new where
  recorded id member := by cases member
  absent id _ := by
    refine ⟨?_, rfl⟩
    change slotAt [] id = none
    rw [slotAt]
    split
    · rfl
    · rfl

/-- A new slot at the end, recorded under its id. -/
theorem append (agree : TablesAgree world) {next : Runtime} {slot : TlsModule} {modId : Nat}
    (fresh : modId = world.resolver.runtime.modules.length + 1)
    (appended : next.modules = world.resolver.runtime.modules ++ [some slot]) :
    TablesAgree ⟨⟨next, world.resolver.table ++ [(modId, slot.tpOffset)]⟩,
      modId :: world.live⟩ := by
  have unused : modId ∉ world.live := by
    intro member
    obtain ⟨old, found, _⟩ := agree.recorded modId member
    have bounded := (Runtime.bounded_of_tlsModule found).2
    omega
  have slots : ∀ id, next.tlsModule id =
      if id = modId then some slot else world.resolver.runtime.tlsModule id := by
    intro id
    rw [Runtime.tlsModule, Runtime.tlsModule, appended, Runtime.slotAt_append, fresh]
  have lookups : ∀ id, (world.resolver.table ++ [(modId, slot.tpOffset)]).lookup id =
      if id = modId then some slot.tpOffset else world.resolver.table.lookup id := by
    intro id
    rw [lookup_append_single]
    by_cases new : id = modId
    · rw [if_pos new, if_pos new, new, (agree.absent modId unused).2, Option.none_or]
    · rw [if_neg new, if_neg new, Option.or_none]
  refine ⟨fun id member => ?_, fun id outside => ?_⟩
  · change ∃ found, next.tlsModule id = some found ∧ List.lookup id (_ ++ _) = _
    rw [slots, lookups]
    by_cases new : id = modId
    · rw [if_pos new, if_pos new]
      exact ⟨slot, rfl, rfl⟩
    · rw [if_neg new, if_neg new]
      exact agree.recorded id ((List.mem_cons.mp member).resolve_left new)
  · change next.tlsModule id = none ∧ List.lookup id (_ ++ _) = none
    have different : id ≠ modId := fun new => outside (new ▸ List.mem_cons_self)
    rw [slots, lookups, if_neg different, if_neg different]
    exact agree.absent id fun old => outside (List.mem_cons_of_mem _ old)

/-- Slots may be rewritten as long as every offset stays. -/
theorem rewrite (agree : TablesAgree world) {next : Runtime}
    (kept : ∀ id, (next.tlsModule id).map TlsModule.tpOffset =
      (world.resolver.runtime.tlsModule id).map TlsModule.tpOffset) :
    TablesAgree { world with resolver := { world.resolver with runtime := next } } := by
  refine ⟨fun id member => ?_, fun id outside => ?_⟩
  · obtain ⟨module, found, recorded⟩ := agree.recorded id member
    have same := kept id
    rw [found, Option.map_some] at same
    obtain ⟨slot, present, offset⟩ := Option.map_eq_some_iff.mp same
    exact ⟨slot, present, by rw [offset]; exact recorded⟩
  · obtain ⟨empty, unrecorded⟩ := agree.absent id outside
    have same := kept id
    rw [empty, Option.map_none, Option.map_eq_none_iff] at same
    exact ⟨same, unrecorded⟩

theorem register (agree : TablesAgree world) (info : TlsInfo) (request : TlsRequest) (base : Nat)
    (installed : Bool) :
    TablesAgree (world.afterRegister (world.resolver.register info request base installed)) := by
  rcases RtldTlsResolver.serve_cases world.resolver.runtime info base installed request with
    ⟨error, next, served, same⟩ | ⟨module, next, slot, served, fresh, appended, offset⟩
  · rw [RtldTlsResolver.register, served]
    refine agree.rewrite fun id => ?_
    rw [Runtime.tlsModule, Runtime.tlsModule, same]
  · rw [RtldTlsResolver.register, served]
    have extended := agree.append fresh appended
    rw [offset] at extended
    exact extended

theorem publish (agree : TablesAgree world) {source : TlsImageSource} {modId : Nat}
    {result : Except TlsError Unit} {resolver : RtldTlsResolver}
    (accepted : world.resolver.publish source modId = .ok (result, resolver)) :
    TablesAgree { world with resolver := resolver } ∧
      if modId ∈ world.live then result = .ok ()
      else result = .error (.invalidModuleId modId) ∧ resolver = world.resolver := by
  obtain ⟨⟨answer, runtime⟩, initialising, returned⟩ := bind_eq_ok.mp accepted
  cases returned
  by_cases live : modId ∈ world.live
  · obtain ⟨module, found, recorded⟩ := agree.recorded modId live
    rw [recorded, Option.join_some] at initialising
    obtain ⟨succeeded, slot, offset, modules⟩ :=
      Runtime.initTlsModule_published found initialising
    obtain ⟨positive, bounded⟩ := Runtime.bounded_of_tlsModule found
    refine ⟨agree.rewrite fun id => ?_, by rw [if_pos live]; exact succeeded⟩
    rw [Runtime.tlsModule, modules]
    by_cases same : id = modId
    · rw [same, Runtime.slotAt_set_self _ _ positive, if_pos bounded, found, Option.map_some,
        Option.map_some, offset]
    · rw [Runtime.slotAt_set_ne _ _ positive same]
      rfl
  · obtain ⟨empty, _⟩ := agree.absent modId live
    rw [Runtime.initTlsModule, empty] at initialising
    cases initialising
    exact ⟨agree, by rw [if_neg live]; exact ⟨rfl, rfl⟩⟩

theorem unregister (agree : TablesAgree world) (modId : Nat) :
    TablesAgree ⟨world.resolver.unregister modId, world.live.filter fun id => id ≠ modId⟩ := by
  have slots : ∀ id, (world.resolver.runtime.unregisterModule modId).tlsModule id =
      if id = modId then none else world.resolver.runtime.tlsModule id := by
    intro id
    rw [Runtime.unregisterModule]
    by_cases zero : modId = 0
    · rw [if_pos zero]
      by_cases same : id = modId
      · rw [if_pos same, same, zero]
        rfl
      · rw [if_neg same]
    · rw [if_neg zero]
      by_cases same : id = modId
      · rw [if_pos same, same]
        exact (Runtime.slotAt_set_self _ _ zero).trans (by split <;> rfl)
      · rw [if_neg same]
        exact Runtime.slotAt_set_ne _ _ zero same
  refine ⟨fun id member => ?_, fun id outside => ?_⟩
  · obtain ⟨old, kept⟩ := List.mem_filter.mp member
    have different : id ≠ modId := of_decide_eq_true kept
    change ∃ module, (world.resolver.runtime.unregisterModule modId).tlsModule id = some module ∧
      List.lookup id (world.resolver.table.filter _) = _
    rw [slots, lookup_filter_ne, if_neg different, if_neg different]
    exact agree.recorded id old
  · change (world.resolver.runtime.unregisterModule modId).tlsModule id = none ∧
      List.lookup id (world.resolver.table.filter _) = none
    rw [slots, lookup_filter_ne]
    by_cases same : id = modId
    · rw [if_pos same, if_pos same]
      exact ⟨rfl, rfl⟩
    · rw [if_neg same, if_neg same]
      refine agree.absent id fun old => outside ?_
      exact List.mem_filter.mpr ⟨old, decide_eq_true same⟩

theorem step (agree : TablesAgree world) {action : ResolverAction} {next : ResolverWorld}
    (accepted : world.act action = .ok next) : TablesAgree next := by
  cases action with
  | register info request base installed =>
      cases accepted
      exact agree.register info request base installed
  | publish source modId =>
      obtain ⟨⟨result, resolver⟩, publishing, returned⟩ := bind_eq_ok.mp accepted
      cases returned
      exact (agree.publish publishing).1
  | unregister modId =>
      cases accepted
      exact agree.unregister modId

end TablesAgree

theorem tablesAgree_inductive : ResolverWorld.system.Inductive TablesAgree where
  initially _ initial := initial ▸ .new
  preserved _ _ _ agree step := agree.step step

/-- The two tables agree on every live id, so publishing one never meets an unknown id or
another offset; any other id is refused and nothing changes. -/
theorem tls_tables_agree (world : ResolverWorld) (reached : ResolverWorld.system.Reachable world) :
    (∀ id ∈ world.live,
      (∀ offset, world.resolver.table.lookup id = some (some offset) ↔
        ∃ info, world.resolver.runtime.tlsModule id = some (.static info offset)) ∧
      (world.resolver.table.lookup id = some none ↔
        ∃ info source, world.resolver.runtime.tlsModule id = some (.dynamic info source))) ∧
    (∀ id source result resolver,
      world.resolver.publish source id = .ok (result, resolver) → id ∈ world.live →
        result = .ok ()) ∧
    ∀ id source, id ∉ world.live →
      world.resolver.publish source id = .ok (.error (.invalidModuleId id), world.resolver) := by
  have agree := tablesAgree_inductive.reachable reached
  refine ⟨fun id live => ?_, fun id source result resolver published live => ?_,
    fun id source gone => ?_⟩
  · obtain ⟨module, found, recorded⟩ := agree.recorded id live
    rw [recorded, found]
    cases module with
    | dynamic info source => simp [TlsModule.tpOffset]
    | static info offset =>
        simp [TlsModule.tpOffset]
  · have answered := (agree.publish published).2
    rw [if_pos live] at answered
    exact answered
  · obtain ⟨empty, _⟩ := agree.absent id gone
    rw [RtldTlsResolver.publish, Runtime.initTlsModule, empty]
    rfl

/-- A dynamic module that is unregistered again, and a static one that is published. -/
def resolverCalls : List ResolverAction := [
  .register ⟨16, 0, 8⟩ .dynamic 0 true, .register ⟨32, 0, 16⟩ (.static none) 0x100000 true,
  .unregister 1, .publish ⟨some [7, 8]⟩ 2]

theorem tls_tables_agree_published :
    ∃ world, ResolverWorld.system.Reachable world ∧ 2 ∈ world.live ∧
      (∃ info, world.resolver.runtime.tlsModule 2 = some (.static info (-32))) ∧
      world.resolver.publish ⟨none⟩ 1 = .ok (.error (.invalidModuleId 1), world.resolver) := by
  have evaluated : (TransitionSystem.runLabels (fun world action =>
      (ResolverWorld.act world action).toOption) .new resolverCalls).map (fun world =>
        (world.live, world.resolver.table)) = some ([2], [(2, some (-32))]) := by
    decide +kernel
  obtain ⟨world, ran, same⟩ := Option.map_eq_some_iff.mp evaluated
  obtain ⟨live, table⟩ := Prod.mk.inj same
  have run : ResolverWorld.system.Run .new resolverCalls world :=
    TransitionSystem.Run.refl.runLabels (fun _ _ _ => toOption_eq_some_iff.mp) ran
  have reached : ResolverWorld.system.Reachable world := ⟨.new, _, rfl, run⟩
  obtain ⟨agree, _, refused⟩ := tls_tables_agree world reached
  have member : 2 ∈ world.live := by
    rw [live]
    decide
  refine ⟨world, reached, member, ((agree 2 member).1 (-32)).mp ?_, refused 1 ⟨none⟩ ?_⟩
  · rw [table]
    rfl
  · rw [live]
    decide

end DynLinker.Tls
