import DynLinker.Error
import DynLinker.Registry.Manager

/-! `open_with` (`dlopen/run.rs`), cut where it gives the registry up: user code may
run, and call back into the registry, while a load is relocated and while its
constructors run. The last part is the startup hook of the replacement loader
(`runtime/rtld.rs`). -/

set_option autoImplicit false

namespace DynLinker.Registry

open Lib Loader ElfLoader

inductive LinkRoot (Ctx : Type) [ElfLoader Ctx] where
  | file (path : String)
  | binary (key : String) (bytes : List UInt8)
  | mapped (key : String) (raw : Raw Ctx)

namespace LinkRoot

variable {Ctx : Type} [ElfLoader Ctx]

def isMapped : LinkRoot Ctx → Bool
  | .file _ => false
  | .binary _ _ => false
  | .mapped _ _ => true

def isBinary : LinkRoot Ctx → Bool
  | .file _ => false
  | .binary _ _ => true
  | .mapped _ _ => false

end LinkRoot

/-- Where the first part of `open_with` ends. -/
inductive OpenOutcome (Ctx : Type) [ElfLoader Ctx] where
  | finished (result : Except Error OpenedLibrary)
  | prepared (flags : OpenFlags) (pending : Pending Ctx)

def linkFailure (failure : LinkError) : Error := .loaderError failure.text

def missingFile (request : String) : Error :=
  .findLibError ("can not find file: " ++ request)

/-- `LD_BIND_NOW` in the environment adds `RTLD_NOW`. -/
def effectiveFlags (bindNow : Bool) (flags : OpenFlags) : OpenFlags :=
  if bindNow then flags.union .rtldNow else flags

namespace Manager

variable {Ctx : Type} [ElfLoader Ctx]

/-- `RTLD_NOLOAD` on a file that no name leads to. -/
def openCommitted (manager : Manager Ctx) (request path : String) (flags : OpenFlags)
    (caller : Option ModuleId) : Except Panic (OpenOutcome Ctx × Manager Ctx) :=
  match resolveCommitted manager.linkCtx caller path with
  | .error failure => .ok (.finished (.error (linkFailure failure)), manager)
  | .ok none => .ok (.finished (.error (missingFile request)), manager)
  | .ok (some id) => do
      let promoted ← manager.promote id flags
      let (opened, next) ← expectSome "resolved module must remain committed"
        (promoted.openModule id)
      return (.finished (.ok opened), next)

def prepareOutcome (flags : OpenFlags) :
    Except LinkError (Pending Ctx) → OpenOutcome Ctx
  | .error failure => .finished (.error (linkFailure failure))
  | .ok pending => .prepared flags pending

/-- From the second borrow of the registry to the prepared load. -/
def prepare (manager : Manager Ctx) (request : String) (flags : OpenFlags)
    (root : LinkRoot Ctx) (caller : Option Nat) :
    Except Panic (OpenOutcome Ctx × Manager Ctx) :=
  let callerId := caller.bind (moduleIdAt manager.linkCtx)
  match root with
  | .file path =>
      if flags.isNoload then manager.openCommitted request path flags callerId
      else .ok (prepareOutcome flags (prepareLoad manager.linkCtx callerId path), manager)
  | .binary key bytes =>
      match loadDylib key bytes with
      | .error failure => .ok (.finished (.error (linkFailure failure)), manager)
      | .ok raw =>
          .ok (prepareOutcome flags (prepareMapped manager.linkCtx callerId key raw), manager)
  | .mapped key raw =>
      .ok (prepareOutcome flags (prepareMapped manager.linkCtx callerId key raw), manager)

/-- `open_with` up to the point where it drops its borrow of the registry. -/
def openWith (manager : Manager Ctx) (bindNow : Bool) (request : String)
    (requested : OpenFlags) (root : LinkRoot Ctx) (caller : Option Nat) :
    Except Panic (OpenOutcome Ctx × Manager Ctx) :=
  let flags := effectiveFlags bindNow requested
  if root.isMapped then manager.prepare request flags root caller
  else do
    let (found, manager) ← manager.openExisting request flags
    match found with
    | some opened => return (.finished (.ok opened), manager)
    | none =>
        if flags.isNoload && root.isBinary then
          return (.finished (.error (missingFile request)), manager)
        else manager.prepare request flags root caller

/-- `relocate` and `publish`. -/
def publishPending (manager : Manager Ctx) (pending : Pending Ctx) :
    Except Error (LoadResult × Manager Ctx) :=
  match relocate pending with
  | .error failure => .error (linkFailure failure)
  | .ok relocated =>
      match publish manager.linkCtx relocated with
      | .error failure => .error (linkFailure failure)
      | .ok (load, ctx) => .ok (load, { manager with linkCtx := ctx })

/-- `rollback` of a load that was published; its own failure leaves the context. -/
def rollbackLoad (manager : Manager Ctx) (load : LoadResult) : Manager Ctx :=
  match rollback manager.linkCtx load with
  | .error _ => manager
  | .ok ctx => { manager with linkCtx := ctx }

structure StartupState where
  main : LinkMapAddress
  maps : List LinkMapAddress
  libcMap : Option LinkMapAddress
deriving DecidableEq

/-- The maps of the scope without the interpreter's, and the map of the C library. -/
def startupMaps (rtld : Option (LinkMapAddress × Nat)) :
    List ModuleHandle → Except Panic (List LinkMapAddress × Option LinkMapAddress)
  | [] => .ok ([], none)
  | handle :: rest =>
      match handle.elf with
      | none => startupMaps rtld rest
      | some elf => do
          let data ← expectSome "loaded dependency must have extra data" elf.userData
          let (maps, libc) ← startupMaps rtld rest
          let libc := libc.or (if handle.name = "libc.so.6" then some data.linkMap else none)
          let isRtld := rtld.any fun (address, base) => data.linkMap = address || elf.base = base
          return (if isRtld then maps else data.linkMap :: maps, libc)

/-- `startup_state`: the hook that runs before the constructors of the program. -/
def startupState (manager : Manager Ctx) (root : ModuleId)
    (rtld : Option (LinkMapAddress × Nat)) :
    Except Panic (Except Error StartupState × Manager Ctx) :=
  match promoteGlobal manager.linkCtx root with
  | .error failure => .ok (.error (linkFailure failure), manager)
  | .ok ctx => do
      let manager ← registerInitialAliases { manager with linkCtx := ctx }
      match loadGroup manager.linkCtx root with
      | .error failure => return (.error (linkFailure failure), manager)
      | .ok scope =>
          match scope.head?.bind ModuleHandle.linkMap with
          | none =>
              return (.error (.findLibError "startup root is missing link map"), manager)
          | some main =>
              let (maps, libc) ← startupMaps rtld scope
              let maps := match rtld, maps with
                | none, maps => maps
                | some (address, _), [] => [address]
                | some (address, _), first :: rest => first :: address :: rest
              return (.ok ⟨main, maps, libc⟩, manager)

end Manager

end DynLinker.Registry
