import DynLinker.Registry.HostImport
import DynLinker.Registry.IteratePhdr
import DynLinker.Registry.World

/-! How a process gets its main program into the registry: the import of a running
process (`runtime/host.rs`), and the start under the replacement loader
(`bootstrap/startup.rs`, `runtime/rtld.rs`), which registers itself and then links the
mapped executable. -/

set_option autoImplicit false

namespace DynLinker.Startup

open Lib Loader ElfLoader Registry

/-- An object that is mapped already, as `load_mapped` rebuilds it. -/
structure BootstrapObject where
  instanceId : InstanceId
  name : String
  soname : Option String
  fileName : String
  neededLibs : List String
  base : Nat
  phdrs : List Phdr
  tlsModId : Option Nat
  ranges : List (Nat × Nat)
  symbols : List (String × Nat)
  userData : Option ExtraData

namespace BootstrapObject

def elf (object : BootstrapObject) : ElfModule where
  soname := object.soname
  fileName := object.fileName
  neededLibs := object.neededLibs
  base := object.base
  phdrs := some object.phdrs
  tlsModId := object.tlsModId
  userData := object.userData

def handle (object : BootstrapObject) : ModuleHandle where
  instanceId := object.instanceId
  name := object.name
  ranges := object.ranges
  symbols := object.symbols
  elf := some object.elf

end BootstrapObject

def loadBootstrapObject (object : BootstrapObject) : Except Error ModuleHandle :=
  if object.phdrs = [] then .error (.findLibError "bootstrap object is missing program headers")
  else .ok object.handle

def rtldFlags : OpenFlags := OpenFlags.rtldGlobal.union OpenFlags.rtldNodelete

def startupFlags : OpenFlags :=
  OpenFlags.rtldGlobal.union (OpenFlags.rtldNow.union OpenFlags.rtldNodelete)

/-- The key of the main program: the last part of its name. -/
def rootKey (name : String) : String :=
  if name = "" then "main"
  else ((name.splitToList fun char => char = '/' ∨ char = '\\').getLast?).getD name

variable {Ctx : Type} [ElfLoader Ctx]

/-- `rtld::register_loaded`. -/
def registerObject (manager : Manager Ctx) (raw : ModuleHandle) (flags : OpenFlags) :
    Except Panic (Except Error (LinkMapAddress × Manager Ctx)) :=
  match raw.linkMap with
  | none => .ok (.error (.findLibError "loaded object is missing link map"))
  | some address => do
      let manager ← manager.registerLoaded ⟨raw, [], []⟩ flags
      return .ok (address, manager)

/-- `run` up to the registered interpreter. -/
def registerInterpreter (interpreter : BootstrapObject) :
    Except Panic (Except Error (LinkMapAddress × Manager Ctx)) :=
  match loadBootstrapObject interpreter with
  | .error error => .ok (.error error)
  | .ok raw => registerObject Manager.new raw rtldFlags

/-- `main` is the mapped executable: the root that the load committed. A load that commits
nothing has resolved the key to an older module; the executable is then no module. -/
def IsExecutable (ctx : Ctx) (load : LoadResult) (main : ModuleHandle) : Prop :=
  if load.modules = [] then ∀ record ∈ (view ctx).modules, record.handle ≠ main
  else module ctx load.lease.id = some main

instance (ctx : Ctx) (load : LoadResult) (main : ModuleHandle) :
    Decidable (IsExecutable ctx load main) := by
  unfold IsExecutable
  infer_instance

/-- `link_mapped_root` with whatever runs in between: resolvers while the program is
relocated, and constructors after the startup hook. `main` is the executable. -/
structure LinkMappedRoot (before : World Ctx) (request name : String) (raw : Raw Ctx)
    (rtld : Option (LinkMapAddress × Nat)) (main : ModuleHandle) (after : World Ctx) where
  bindNow : Bool
  flags : OpenFlags
  pending : Pending Ctx
  manager : Manager Ctx
  preparing : before.manager.openWith bindNow request startupFlags (.mapped (rootKey name) raw)
    none = .ok (.prepared flags pending, manager)
  resolvers : List (Action Ctx)
  relocated : World Ctx
  relocating : World.system.Run (before.afterOpenWith (.prepared flags pending, manager))
    resolvers relocated
  prepared : Nat
  waiting : relocated.preparing[prepared]? = some (flags, pending)
  load : LoadResult
  next : Manager Ctx
  publishing : relocated.manager.publishPending pending = .ok (load, next)
  executable : IsExecutable next.linkCtx load main
  hooked : World Ctx
  hook : (relocated.publishAt prepared flags pending).act (.startupHook 0 rtld) = some (.ok hooked)
  constructors : List (Action Ctx)
  constructed : World Ctx
  constructing : World.system.Run hooked constructors constructed
  initialising : Nat
  published : constructed.initialising[initialising]? = some (flags, load)
  opened : World Ctx
  opening : constructed.act (.initialised initialising) = some (.ok opened)
  dropping : opened.act (.dropOpened 0) = some (.ok after)

inductive StartKind where
  | hostImport
  | rtld
deriving DecidableEq

/-- The states in which a start ends, with the executable. -/
inductive Started : StartKind → ModuleHandle → World Ctx → Prop where
  | hostImport (main : HostObject) (rest : List HostObject) (manager : Manager Ctx)
      (imported : Manager.new.importHost (main :: rest) = .ok manager) :
      Started .hostImport main.handle { World.new with manager := manager }
  | rtld (interpreter : BootstrapObject) (address : LinkMapAddress) (manager : Manager Ctx)
      (registered : registerInterpreter interpreter = .ok (.ok (address, manager)))
      (request name : String) (raw : Raw Ctx) (main : ModuleHandle) (started : World Ctx)
      (linked : LinkMappedRoot { World.new with manager := manager } request name raw
        (some (address, interpreter.base)) main started) :
      Started .rtld main started

/-- `link_startup_root` after the program is prepared, when no other code runs. -/
def linkPrepared (world : World Ctx) (rtld : LinkMapAddress × Nat) (flags : OpenFlags)
    (pending : Pending Ctx) (main : ModuleHandle) : Option (World Ctx) := do
  let (load, next) ← (world.manager.publishPending pending).toOption
  guard (IsExecutable next.linkCtx load main)
  let hooked ← (world.publishAt 0 flags pending).runActions [.startupHook 0 (some rtld)]
  guard (hooked.initialising[0]? = some (flags, load))
  let opened ← hooked.runActions [.initialised 0]
  opened.runActions [.dropOpened 0]

/-- A start under the replacement loader in which no other code runs. -/
def rtldStart (interpreter : BootstrapObject) (request name : String) (raw : Raw Ctx)
    (main : ModuleHandle) : Option (World Ctx) := do
  let registered ← (registerInterpreter interpreter).toOption
  let (address, manager) ← registered.toOption
  let (outcome, next) ← (manager.openWith false request startupFlags (.mapped (rootKey name) raw)
    none).toOption
  match outcome with
  | .finished _ => none
  | .prepared flags pending =>
      linkPrepared (World.afterOpenWith { World.new with manager := manager } (outcome, next))
        (address, interpreter.base) flags pending main

end DynLinker.Startup
