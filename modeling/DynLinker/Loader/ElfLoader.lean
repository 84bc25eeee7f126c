import DynLinker.Loader.Context

/-! The ELF loader crate as a parameter: the operations that the linker calls, and
the documented behaviour that its results rest on. -/

set_option autoImplicit false

namespace DynLinker.Loader

structure LinkError where
  text : String
deriving DecidableEq

/-- `LoadResult`: the lease of the root and the modules that the load committed. -/
structure LoadResult where
  lease : NativeModuleLease
  modules : List ModuleId
deriving DecidableEq

class ElfLoader (Ctx : Type) where
  Raw : Type
  Pending : Type
  new : Ctx
  view : Ctx → ContextView
  moduleId : Ctx → String → Option ModuleId
  moduleIdAt : Ctx → Nat → Option ModuleId
  loadGroup : Ctx → ModuleId → Except LinkError (List ModuleHandle)
  insert : Ctx → GraphModule → Except LinkError (NativeModuleLease × Ctx)
  addAlias : Ctx → ModuleId → String → Except LinkError Ctx
  setMeta : Ctx → ModuleId → OpenFlags → Except LinkError Ctx
  promoteGlobal : Ctx → ModuleId → Except LinkError Ctx
  acquire : Ctx → ModuleId → Except LinkError (NativeModuleLease × Ctx)
  pin : Ctx → NativeModuleLease → Except LinkError Ctx
  release : Ctx → NativeModuleLease → Except LinkError (List ModuleId × Ctx)
  loadDylib : String → List UInt8 → Except LinkError Raw
  resolveCommitted : Ctx → Option ModuleId → String → Except LinkError (Option ModuleId)
  prepareLoad : Ctx → Option ModuleId → String → Except LinkError Pending
  prepareMapped : Ctx → Option ModuleId → String → Raw → Except LinkError Pending
  relocate : Pending → Except LinkError Pending
  publish : Ctx → Pending → Except LinkError (LoadResult × Ctx)
  rollback : Ctx → LoadResult → Except LinkError Ctx

namespace ElfLoader

variable {Ctx : Type} [ElfLoader Ctx]

def module (ctx : Ctx) (id : ModuleId) : Option ModuleHandle :=
  ((view ctx).find id).map (·.handle)

def moduleKey (ctx : Ctx) (id : ModuleId) : Option String :=
  ((view ctx).find id).map (·.key)

def getMeta (ctx : Ctx) (id : ModuleId) : Option OpenFlags :=
  ((view ctx).find id).map (·.flags)

def loadOrder (ctx : Ctx) : List ModuleId :=
  (view ctx).modules.map (·.id)

end ElfLoader

open ElfLoader in
/-- What the linker relies on. Every law gives the whole effect of one operation on
the recorded data; where the crate chooses (serials, ids, the order of a scope, the
modules that a release unloads) the law bounds the choice. -/
class LawfulElfLoader (Ctx : Type) [ElfLoader Ctx] : Prop where
  view_new : view (new : Ctx) = ContextView.empty
  linkMap_unique : ∀ (ctx : Ctx) (left right : ModuleRecord) (address : LinkMapAddress),
    left ∈ (view ctx).modules → right ∈ (view ctx).modules →
    left.handle.linkMap = some address → right.handle.linkMap = some address → left = right
  moduleId_named : ∀ (ctx : Ctx) (name : String) (id : ModuleId), moduleId ctx name = some id →
    ∃ record ∈ (view ctx).modules, record.id = id ∧ record.Named name
  moduleId_total : ∀ (ctx : Ctx) (name : String) (record : ModuleRecord),
    record ∈ (view ctx).modules → record.Named name → ∃ id, moduleId ctx name = some id
  moduleIdAt_contains : ∀ (ctx : Ctx) (addr : Nat) (id : ModuleId),
    moduleIdAt ctx addr = some id →
    ∃ record ∈ (view ctx).modules, record.id = id ∧ record.handle.Contains addr
  loadGroup_total : ∀ (ctx : Ctx) (id : ModuleId), (view ctx).Committed id →
    ∃ scope, loadGroup ctx id = .ok scope
  loadGroup_spec : ∀ (ctx : Ctx) (id : ModuleId) (scope : List ModuleHandle),
    loadGroup ctx id = .ok scope →
    ∃ root, (view ctx).find id = some root ∧ scope.head? = some root.handle ∧ scope.Nodup ∧
      ∀ handle, handle ∈ scope ↔ ∃ record, (view ctx).InGroup root record ∧ record.handle = handle
  insert_total : ∀ (ctx : Ctx) (graph : GraphModule),
    (∀ record ∈ (view ctx).modules, ¬ record.Named graph.key ∧
      record.handle.instanceId ≠ graph.handle.instanceId ∧
      ∀ address, record.handle.linkMap = some address → graph.handle.linkMap ≠ some address) →
    ∃ lease next, insert ctx graph = .ok (lease, next)
  insert_spec : ∀ (ctx next : Ctx) (graph : GraphModule) (lease : NativeModuleLease),
    insert ctx graph = .ok (lease, next) →
    ¬ (view ctx).Committed lease.id ∧ lease ∉ (view ctx).issued ∧
      view next = ((view ctx).append
        [⟨lease.id, graph.key, [], graph.flags, graph.handle, graph.dependencies⟩]).issue lease
  addAlias_total : ∀ (ctx : Ctx) (id : ModuleId) (name : String), (view ctx).Committed id →
    ∃ next, addAlias ctx id name = .ok next
  addAlias_spec : ∀ (ctx next : Ctx) (id : ModuleId) (name : String),
    addAlias ctx id name = .ok next →
    ∃ aliases : ModuleRecord → List String,
      view next = { view ctx with
        modules := (view ctx).modules.map fun record =>
          { record with aliases := aliases record } } ∧
      (∀ record ∈ (view ctx).modules, ∀ given ∈ aliases record,
        given ∈ record.aliases ∨ (record.id = id ∧ given = name)) ∧
      ∀ given, (given = name ∨ ∃ record ∈ (view ctx).modules, record.Named given) →
        ∃ record ∈ (view next).modules, record.Named given
  setMeta_total : ∀ (ctx : Ctx) (id : ModuleId) (flags : OpenFlags), (view ctx).Committed id →
    ∃ next, setMeta ctx id flags = .ok next
  setMeta_spec : ∀ (ctx next : Ctx) (id : ModuleId) (flags : OpenFlags),
    setMeta ctx id flags = .ok next →
    (view ctx).Committed id ∧ view next = (view ctx).setFlags id flags
  promoteGlobal_total : ∀ (ctx : Ctx) (id : ModuleId), (view ctx).Committed id →
    ∃ next, promoteGlobal ctx id = .ok next
  promoteGlobal_spec : ∀ (ctx next : Ctx) (id : ModuleId), promoteGlobal ctx id = .ok next →
    ∃ root added, (view ctx).find id = some root ∧
      view next = { view ctx with globalScope := (view ctx).globalScope ++ added } ∧
      ∀ handle, handle ∈ (view next).globalScope ↔
        handle ∈ (view ctx).globalScope ∨
          ∃ record, (view ctx).InGroup root record ∧ record.handle = handle
  acquire_total : ∀ (ctx : Ctx) (id : ModuleId), (view ctx).Committed id →
    ∃ lease next, acquire ctx id = .ok (lease, next)
  acquire_spec : ∀ (ctx next : Ctx) (id : ModuleId) (lease : NativeModuleLease),
    acquire ctx id = .ok (lease, next) →
    (view ctx).Committed id ∧ lease.id = id ∧ lease ∉ (view ctx).issued ∧
      view next = (view ctx).issue lease
  pin_total : ∀ (ctx : Ctx) (lease : NativeModuleLease), lease ∈ (view ctx).outstanding →
    ∃ next, pin ctx lease = .ok next
  pin_spec : ∀ (ctx next : Ctx) (lease : NativeModuleLease), pin ctx lease = .ok next →
    lease ∈ (view ctx).outstanding ∧ view next = (view ctx).consume lease
  release_total : ∀ (ctx : Ctx) (lease : NativeModuleLease), lease ∈ (view ctx).outstanding →
    ∃ unloaded next, release ctx lease = .ok (unloaded, next)
  release_spec : ∀ (ctx next : Ctx) (lease : NativeModuleLease) (unloaded : List ModuleId),
    release ctx lease = .ok (unloaded, next) →
    lease ∈ (view ctx).outstanding ∧
      view next = ((view ctx).retire lease).unload unloaded ∧ unloaded.Nodup ∧
      ∀ id ∈ unloaded, (view ctx).Committed id ∧ ¬ ((view ctx).retire lease).Leased id ∧
        ¬ (view ctx).Pinned id
  resolveCommitted_spec : ∀ (ctx : Ctx) (caller : Option ModuleId) (path : String)
    (id : ModuleId), resolveCommitted ctx caller path = .ok (some id) → (view ctx).Committed id
  publish_spec : ∀ (ctx next : Ctx) (pending : Pending Ctx) (load : LoadResult),
    publish ctx pending = .ok (load, next) →
    ∃ added : List ModuleRecord,
      view next = ((view ctx).append added).issue load.lease ∧
      added.map (·.id) = load.modules ∧ load.modules.Nodup ∧
      (∀ record ∈ added, ¬ (view ctx).Committed record.id ∧ record.flags = OpenFlags.empty) ∧
      load.lease ∉ (view ctx).issued ∧
      (load.lease.id ∈ load.modules ∨
        (load.modules = [] ∧ (view ctx).Committed load.lease.id))
  rollback_total : ∀ (ctx : Ctx) (load : LoadResult), load.lease ∈ (view ctx).outstanding →
    ∃ next, rollback ctx load = .ok next
  rollback_spec : ∀ (ctx next : Ctx) (load : LoadResult), rollback ctx load = .ok next →
    load.lease ∈ (view ctx).outstanding ∧
    ∃ unloaded, view next = ((view ctx).retire load.lease).unload unloaded ∧
      unloaded.Nodup ∧
      ∀ id ∈ unloaded, id ∈ load.modules ∧ ¬ ((view ctx).retire load.lease).Leased id ∧
        ¬ (view ctx).Pinned id

end DynLinker.Loader
