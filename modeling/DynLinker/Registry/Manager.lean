import DynLinker.Lib.Outcome
import DynLinker.Loader.ElfLoader
import Mathlib.Data.List.AList

/-! The process-wide registry (`registry/manager.rs`) and the opened libraries it
hands out (`library.rs`). A `ModuleLease` keeps its acquisition as an option, as the
source does: `into_inner` empties it, and dropping an empty lease does nothing. -/

set_option autoImplicit false

namespace DynLinker.Registry

open Lib Loader

structure ModuleLease where
  inner : Option NativeModuleLease
deriving DecidableEq

namespace ModuleLease

def new (inner : NativeModuleLease) : ModuleLease := ⟨some inner⟩

def id (lease : ModuleLease) : Except Panic ModuleId := do
  let inner ← expectSome "live module lease must retain its identity" lease.inner
  return inner.id

/-- The acquisition, and the emptied lease whose drop is left to run. -/
def intoInner (lease : ModuleLease) : Except Panic (NativeModuleLease × ModuleLease) := do
  let inner ← expectSome "live module lease must retain its acquisition" lease.inner
  return (inner, ⟨none⟩)

end ModuleLease

structure OpenedLibrary where
  scope : List ModuleHandle
  lease : ModuleLease
deriving DecidableEq

namespace OpenedLibrary

def module (opened : OpenedLibrary) : Except Panic ElfModule := do
  let root ← expectSome "library scope must contain its root module" opened.scope.head?
  expectSome "library handle must contain an ELF module" root.elf

def linkMap (opened : OpenedLibrary) : Except Panic LinkMapAddress := do
  let module ← opened.module
  let data ← expectSome "library module must have extra data" module.userData
  return data.linkMap

end OpenedLibrary

structure LibrarySnapshot where
  inner : ModuleHandle
  lease : ModuleLease
deriving DecidableEq

structure HandleState where
  opened : OpenedLibrary
  extraLeases : List ModuleLease
deriving DecidableEq

namespace HandleState

/-- The entry after one more open of the same module. -/
def push : Option HandleState → OpenedLibrary → HandleState
  | none, opened => ⟨opened, []⟩
  | some state, opened => { state with extraLeases := state.extraLeases ++ [opened.lease] }

/-- The lease that a close gives back, and what is left of the entry. -/
def pop (state : HandleState) : ModuleLease × Option HandleState :=
  match state.extraLeases.getLast? with
  | some lease => (lease, some { state with extraLeases := state.extraLeases.dropLast })
  | none => (state.opened.lease, none)

end HandleState

/-- An object that was loaded before this linker took control. -/
structure LoadedDylib where
  handle : ModuleHandle
  scope : List ModuleHandle
  lazyScope : List ModuleHandle
deriving DecidableEq

/-- The registry. `handles` is keyed by the link map's address. `adds` and `subs` are `u64`
in the source; no process comes to load `2 ^ 64` modules. -/
structure Manager (Ctx : Type) where
  linkCtx : Ctx
  handles : AList fun _ : Nat => HandleState
  adds : Nat
  subs : Nat

def findSymbol (modules : List ModuleHandle) (name : String) : Option Nat :=
  modules.findSome? fun module => module.get name

def libcCompatAliases (name : String) : List String :=
  if name = "libc.so.6" then
    ["libdl.so.2", "libpthread.so.0", "libutil.so.1", "librt.so.1", "libanl.so.1"]
  else if name = "ld-linux-x86-64.so.2" then ["ld-linux.so.2"]
  else []

namespace Manager

open ElfLoader

variable {Ctx : Type} [ElfLoader Ctx]

def new : Manager Ctx where
  linkCtx := ElfLoader.new
  handles := ∅
  adds := 0
  subs := 0

def view (manager : Manager Ctx) : ContextView := ElfLoader.view manager.linkCtx

def release (manager : Manager Ctx) (lease : NativeModuleLease) :
    Except Panic (List ModuleId × Manager Ctx) := do
  let (unloaded, ctx) ← expectOk "released module lease must belong to the global context"
    (ElfLoader.release manager.linkCtx lease)
  return (unloaded, { manager with linkCtx := ctx, subs := manager.subs + unloaded.length })

/-- `Drop for ModuleLease`. -/
def dropLease (manager : Manager Ctx) (lease : ModuleLease) : Except Panic (Manager Ctx) :=
  match lease.inner with
  | none => .ok manager
  | some inner => do
      let (_, manager) ← manager.release inner
      return manager

def dropLeaseOption (manager : Manager Ctx) : Option ModuleLease → Except Panic (Manager Ctx)
  | none => .ok manager
  | some lease => manager.dropLease lease

def acquireModule (manager : Manager Ctx) (id : ModuleId) : Option (ModuleLease × Manager Ctx) :=
  match acquire manager.linkCtx id with
  | .error _ => none
  | .ok (lease, ctx) => some (.new lease, { manager with linkCtx := ctx })

def acquireModuleByAddr (manager : Manager Ctx) (addr : Nat) :
    Option (ModuleLease × Manager Ctx) := do
  let id ← moduleIdAt manager.linkCtx addr
  manager.acquireModule id

def openModule (manager : Manager Ctx) (id : ModuleId) :
    Option (OpenedLibrary × Manager Ctx) :=
  match loadGroup manager.linkCtx id with
  | .error _ => none
  | .ok scope => do
      let (lease, manager) ← manager.acquireModule id
      return (⟨scope, lease⟩, manager)

def mainLibrary (manager : Manager Ctx) : Option (OpenedLibrary × Manager Ctx) := do
  let id ← (loadOrder manager.linkCtx).head?
  manager.openModule id

def libraryByAddr (manager : Manager Ctx) (addr : Nat) :
    Option (OpenedLibrary × Manager Ctx) := do
  let id ← moduleIdAt manager.linkCtx addr
  manager.openModule id

def promoteGlobalIf (wanted : Bool) (ctx : Ctx) (id : ModuleId) (message : String) :
    Except Panic Ctx :=
  if wanted then expectOk message (promoteGlobal ctx id) else .ok ctx

/-- Acquires a module and gives the lease up to a pin. -/
def pinModuleIf (wanted : Bool) (ctx : Ctx) (id : ModuleId) (acquiring pinning : String) :
    Except Panic Ctx :=
  if wanted then do
    let (lease, ctx) ← expectOk acquiring (acquire ctx id)
    expectOk pinning (pin ctx lease)
  else .ok ctx

def promote (manager : Manager Ctx) (id : ModuleId) (flags : OpenFlags) :
    Except Panic (Manager Ctx) := do
  let flags := flags.promotable
  let recorded ← expectSome "promoted module must remain committed" (getMeta manager.linkCtx id)
  let ctx ← expectOk "promoted module must remain committed"
    (setMeta manager.linkCtx id (recorded.union flags))
  let ctx ← promoteGlobalIf flags.isGlobal ctx id "promoted module must remain committed"
  let ctx ← pinModuleIf (flags.isNodelete && !recorded.isNodelete) ctx id
    "promoted module must remain committed" "promoted module must remain committed while pinning"
  return { manager with linkCtx := ctx }

def openExisting (manager : Manager Ctx) (key : String) (flags : OpenFlags) :
    Except Panic (Option OpenedLibrary × Manager Ctx) :=
  match moduleId manager.linkCtx key with
  | none => return (none, manager)
  | some id => do
      let promoted ← manager.promote id flags
      match promoted.openModule id with
      | none => return (none, promoted)
      | some (opened, manager) => return (some opened, manager)

/-- The part of `open_load` that runs for one newly committed module. -/
def recordLoaded (flags : OpenFlags) (manager : Manager Ctx) (id : ModuleId) :
    Except Panic (Manager Ctx) := do
  let ctx ← expectOk "published module must have metadata" (setMeta manager.linkCtx id flags)
  let ctx ← pinModuleIf flags.isNodelete ctx id "published module must remain committed"
    "published module must remain committed while pinning"
  return { manager with linkCtx := ctx, adds := manager.adds + 1 }

def openLoad (manager : Manager Ctx) (load : LoadResult) (flags : OpenFlags) :
    Except Panic (OpenedLibrary × Manager Ctx) := do
  let manager ← load.modules.foldlM (recordLoaded flags) manager
  let ctx ← promoteGlobalIf flags.isGlobal manager.linkCtx load.lease.id
    "loaded root module must remain committed"
  let scope ← expectOk "linked root module must be registered" (loadGroup ctx load.lease.id)
  return (⟨scope, .new load.lease⟩, { manager with linkCtx := ctx })

def addAlias (manager : Manager Ctx) (id : ModuleId) (name : String) :
    Except Panic (Manager Ctx) := do
  let key ← expectSome "alias target must already be committed" (moduleKey manager.linkCtx id)
  if name = "" ∨ name = key then return manager
  else
    let ctx ← expectOk "alias target must remain committed"
      (ElfLoader.addAlias manager.linkCtx id name)
    return { manager with linkCtx := ctx }

def addCompatAliases (manager : Manager Ctx) (name : String) : Except Panic (Manager Ctx) :=
  match moduleId manager.linkCtx name with
  | none => .ok manager
  | some id =>
      (libcCompatAliases name).foldlM (fun manager given => manager.addAlias id given) manager

def registerInitialAliases (manager : Manager Ctx) : Except Panic (Manager Ctx) :=
  ["libc.so.6", "ld-linux-x86-64.so.2"].foldlM addCompatAliases manager

/-- The edges of a preloaded object: its needed names that are known by now. -/
def knownDependencies (ctx : Ctx) (needed : List String) : List InstanceId :=
  ((needed.filterMap (moduleId ctx)).filterMap (module ctx)).map (·.instanceId)

def registerLoaded (manager : Manager Ctx) (lib : LoadedDylib) (flags : OpenFlags) :
    Except Panic (Manager Ctx) :=
  if ¬ (lib.scope = [] ∧ lib.lazyScope = []) then
    .error ⟨"preloaded module must not retain a relocation scope"⟩
  else do
  let elf ← expectSome "preloaded handle must contain an ELF module" lib.handle.elf
  let name := elf.soname.getD lib.handle.name
  let deps := knownDependencies manager.linkCtx elf.neededLibs
  let (lease, ctx) ← expectOk "registry insert must not insert duplicate modules"
    (insert manager.linkCtx ⟨name, lib.handle, flags, deps⟩)
  let manager ← Manager.addAlias { manager with linkCtx := ctx, adds := manager.adds + 1 }
    lease.id elf.fileName
  let ctx ← promoteGlobalIf (flags.isGlobal || name.isEmpty) manager.linkCtx lease.id
    "registered global module must remain committed"
  let ctx ← expectOk "preloaded modules must remain committed" (pin ctx lease)
  return { manager with linkCtx := ctx }

/-- One element of `library_snapshot`; a module that cannot be acquired is skipped. -/
def snapshotModule (manager : Manager Ctx) (id : ModuleId) :
    Option (LibrarySnapshot × Manager Ctx) :=
  match loadGroup manager.linkCtx id with
  | .error _ => none
  | .ok scope => do
      let inner ← scope.head?
      let _ ← inner.elf
      let (lease, manager) ← manager.acquireModule id
      return (⟨inner, lease⟩, manager)

def snapshotModules (manager : Manager Ctx) :
    List ModuleId → List LibrarySnapshot × Manager Ctx
  | [] => ([], manager)
  | id :: rest =>
      match manager.snapshotModule id with
      | none => manager.snapshotModules rest
      | some (snapshot, manager) =>
          let (snapshots, manager) := manager.snapshotModules rest
          (snapshot :: snapshots, manager)

def librarySnapshot (manager : Manager Ctx) : List LibrarySnapshot × Manager Ctx :=
  manager.snapshotModules (loadOrder manager.linkCtx)

def registerHandle (manager : Manager Ctx) (opened : OpenedLibrary) :
    Except Panic (Nat × Manager Ctx) := do
  let address ← opened.linkMap
  let handle := address.value
  let state := HandleState.push (manager.handles.lookup handle) opened
  return (handle, { manager with handles := manager.handles.insert handle state })

def replaceHandle (manager : Manager Ctx) (handle : Nat) : Option HandleState → Manager Ctx
  | some state => { manager with handles := manager.handles.insert handle state }
  | none => { manager with handles := manager.handles.erase handle }

/-- `release_handle`: `none` when the handle is unknown, else what was unloaded. -/
def releaseHandle (manager : Manager Ctx) (handle : Nat) :
    Except Panic (Option (List ModuleId) × Manager Ctx) :=
  match manager.handles.lookup handle with
  | none => .ok (none, manager)
  | some state => do
      let (inner, emptied) ← state.pop.1.intoInner
      let (unloaded, manager) ← (manager.replaceHandle handle state.pop.2).release inner
      let manager ← manager.dropLease emptied
      return (some unloaded, manager)

def handleFind (manager : Manager Ctx) (handle : Nat) (name : String) : Option Nat := do
  let state ← manager.handles.lookup handle
  findSymbol state.opened.scope name

def handleLinkMap (manager : Manager Ctx) (handle : Nat) : Option Nat :=
  if (manager.handles.lookup handle).isSome then some handle else none

def flags (manager : Manager Ctx) (id : ModuleId) : Option OpenFlags := getMeta manager.linkCtx id

end Manager

end DynLinker.Registry
