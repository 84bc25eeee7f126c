import DynLinker.Lib.RefCell
import DynLinker.Loader.Images
import DynLinker.Registry.IteratePhdr
import DynLinker.Registry.World

/-! The functions that the linker offers, as programs over the registry's `RefCell`. Each
borrow is a scope of its own, every value is dropped where the source drops it, and user
code is a parameter: whatever it does, it does as a program over the same process. -/

set_option autoImplicit false

namespace DynLinker.Registry

open Lib Loader ElfLoader ImageLoader Debug

/-- What is not behind the `RefCell`. `memory` stands for everything that user code
remembers between its calls. -/
structure Surroundings where
  debug : DebugWorld
  libraries : List ElfLibrary
  destructors : List ThreadDestructor
  startupRoot : Option ModuleId
  memory : Nat

/-- A panic, or a link map that is null or at an address in use. -/
inductive Failure where
  | panic (panic : Panic)
  | invalidLinkMap
deriving DecidableEq

/-- Where the linker runs code that is not its own. -/
inductive UserPoint where
  | constructors (modules : List ModuleId)
  | beforeInit (state : Manager.StartupState)
  | finalizers (unloaded : List ModuleId)
  | finalizeModule (handle : ModuleHandle)
  | phdrCallback (info : DlPhdrInfo)
  | threadDestructor

/-- `UnloadGroup`: the modules that a release took out of the context, and the link maps
of their images. -/
structure UnloadGroup where
  modules : List ModuleId
  maps : List LinkMapAddress

abbrev Process (Ctx : Type) : Type := RefCell (Manager Ctx) × Surroundings

abbrev Program (Ctx Answer : Type) : Type := CellM (Manager Ctx) Surroundings Failure Answer

/-- User code, by the point where it runs. -/
abbrev User (Ctx : Type) : Type := UserPoint → Program Ctx (Except Error Unit)

namespace Process

variable {Ctx : Type} [ElfLoader Ctx]

def manager (process : Process Ctx) : Manager Ctx := process.1.value

def view (process : Process Ctx) : ContextView := process.manager.view

def debug (process : Process Ctx) : DebugWorld := process.2.debug

end Process

namespace Manager

variable {Ctx : Type} [ElfLoader Ctx]

def mapsOf (manager : Manager Ctx) (ids : List ModuleId) : List LinkMapAddress :=
  ids.filterMap fun id => (module manager.linkCtx id).bind ModuleHandle.linkMap

def releaseGroup (manager : Manager Ctx) (lease : NativeModuleLease) :
    Except Panic (UnloadGroup × Manager Ctx) := do
  let (unloaded, next) ← manager.release lease
  return (⟨unloaded, manager.mapsOf unloaded⟩, next)

/-- The scope that `RTLD_NEXT` searches, from its beginning. -/
def nextScope (manager : Manager Ctx) (caller : ModuleId) (handle : ModuleHandle) :
    Option (List ModuleHandle) :=
  let global := manager.view.globalScope
  if global.any fun module => module.instanceId = handle.instanceId then some global
  else (loadGroup manager.linkCtx caller).toOption

def nextFind (manager : Manager Ctx) (addr : Nat) (name : String) : Option Nat := do
  let caller ← moduleIdAt manager.linkCtx addr
  let handle ← module manager.linkCtx caller
  let scope ← manager.nextScope caller handle
  findSymbol ((scope.dropWhile fun module => module.instanceId ≠ handle.instanceId).drop 1) name

def moduleByAddr (manager : Manager Ctx) (addr : Nat) : Option ModuleHandle := do
  let id ← moduleIdAt manager.linkCtx addr
  let scope ← (loadGroup manager.linkCtx id).toOption
  let module ← scope.head?
  let _ ← module.elf
  return module

end Manager

section Borrows

variable {Ctx Answer : Type}

def panicking (result : Except Panic Answer) : Program Ctx Answer :=
  CellM.lift (result.mapError .panic)

/-- One call of a method that takes the manager by `&mut`. -/
def withManager (method : Manager Ctx → Except Panic (Answer × Manager Ctx)) :
    Program Ctx Answer :=
  CellM.borrowMut fun manager => panicking (method manager)

def readManager (method : Manager Ctx → Answer) : Program Ctx Answer :=
  CellM.borrow fun manager => pure (method manager)

def surroundings : Program Ctx Surroundings :=
  CellM.surroundings fun around => .ok (around, around)

def modifySurroundings (change : Surroundings → Surroundings) : Program Ctx Unit :=
  CellM.surroundings fun around => .ok ((), change around)

/-- What happens to the debugger's list. -/
def debugActions (actions : List DebugAction) : Program Ctx Unit :=
  CellM.surroundings fun around =>
    match TransitionSystem.runLabels DebugWorld.act around.debug actions with
    | some debug => .ok ((), { around with debug := debug })
    | none => .error .invalidLinkMap

/-- `on_after_dynamic_load`, for the images that were mapped. -/
def addImages (images : List LoadedImage) : Program Ctx Unit :=
  debugActions (images.map fun image => .add image.linkMap image.contents)

def dropImages (maps : List LinkMapAddress) : Program Ctx Unit :=
  debugActions (maps.map .drop)

end Borrows

section Drops

variable {Ctx : Type} [ElfLoader Ctx] (user : User Ctx)

/-- Dropping an `UnloadGroup` runs the finalizers and gives the images up. -/
def dropGroup (group : UnloadGroup) : Program Ctx Unit := do
  let _ ← user (.finalizers group.modules)
  dropImages group.maps

/-- `Drop for ModuleLease`. -/
def dropLease (lease : ModuleLease) : Program Ctx Unit :=
  match lease.inner with
  | none => pure ()
  | some inner => do
      let unloaded ← withManager fun manager => manager.releaseGroup inner
      dropGroup user unloaded

def dropLeases : List ModuleLease → Program Ctx Unit
  | [] => pure ()
  | lease :: rest => do
      dropLease user lease
      dropLeases rest

def dropLeaseOption : Option ModuleLease → Program Ctx Unit
  | none => pure ()
  | some lease => dropLease user lease

end Drops

/-! ## Opening -/

section Opening

variable {Ctx : Type} [ElfLoader Ctx] [ImageLoader Ctx]

/-- A loaded object keeps the images it owns; the others are dropped. -/
def keepImages (owned kept : List LinkMapAddress) : Program Ctx Unit :=
  dropImages (owned.filter fun linkMap => linkMap ∉ kept)

def openExisting (request : String) (flags : OpenFlags) (root : LinkRoot Ctx) :
    Program Ctx (Option OpenedLibrary) :=
  if root.isMapped then pure none
  else withManager fun manager => manager.openExisting request flags

/-- A binary root is loaded before the registry is borrowed for linking. The link maps
are those of the images that the open owns from here on. -/
def mapRoot : LinkRoot Ctx → Program Ctx (Except Error (LinkRoot Ctx × List LinkMapAddress))
  | .file path => pure (.ok (.file path, []))
  | .mapped key raw => pure (.ok (.mapped key raw, rawMaps raw))
  | .binary key bytes => do
      let images := @dylibImages Ctx _ _ key bytes
      addImages images
      match @loadDylib Ctx _ key bytes with
      | .error failure =>
          dropImages (images.map (·.linkMap))
          return .error (linkFailure failure)
      | .ok raw =>
          keepImages (images.map (·.linkMap)) (rawMaps raw)
          return .ok (.mapped key raw, rawMaps raw)

/-- The images that linking maps for a root. `RTLD_NOLOAD` maps nothing. -/
def linkedImages (ctx : Ctx) (caller : Option ModuleId) (flags : OpenFlags) :
    LinkRoot Ctx → List LoadedImage
  | .file path => if flags.isNoload then [] else loadImages ctx caller path
  | .binary _ _ => []
  | .mapped key raw => mappedImages ctx caller key raw

/-- The second borrow of `open_with`, from `borrow_mut` to `drop(manager)`. -/
def prepareRoot (request : String) (flags : OpenFlags) (root : LinkRoot Ctx)
    (maps : List LinkMapAddress) (caller : Option Nat) : Program Ctx (OpenOutcome Ctx) :=
  CellM.borrowMut fun manager => do
    let images := linkedImages manager.linkCtx (caller.bind (moduleIdAt manager.linkCtx)) flags root
    addImages images
    let owned := maps ++ images.map (·.linkMap)
    let (outcome, next) ← panicking (manager.prepare request flags root caller)
    match outcome with
    | .finished _ =>
        dropImages owned
        return (outcome, next)
    | .prepared _ pending =>
        keepImages owned (pendingMaps pending)
        return (outcome, next)

/-- `relocate`, which runs without a borrow, and `publish`. -/
def publishPrepared (pending : Pending Ctx) : Program Ctx (Except Error LoadResult) :=
  match relocate pending with
  | .error failure => do
      dropImages (pendingMaps pending)
      return .error (linkFailure failure)
  | .ok relocated => CellM.borrowMut fun manager =>
      match publish manager.linkCtx relocated with
      | .error failure => do
          dropImages (pendingMaps relocated)
          return (.error (linkFailure failure), manager)
      | .ok (load, ctx) => return (.ok load, { manager with linkCtx := ctx })

/-- Where an open stands before any user code has run for it. -/
inductive OpenStage where
  | finished (result : Except Error OpenedLibrary)
  | published (flags : OpenFlags) (load : LoadResult)

/-- A rollback that fails replaces the error that led to it. -/
def rollbackPublished (load : LoadResult) (error : Error) : Program Ctx Error :=
  CellM.borrowMut fun manager =>
    match rollback manager.linkCtx load with
    | .error failure => return (linkFailure failure, manager)
    | .ok ctx => do
        let next := { manager with linkCtx := ctx }
        dropImages (manager.mapsOf (load.modules.filter fun id => ¬ next.view.Committed id))
        return (error, next)

/-- The hook, the constructors, and what follows from how they end. -/
def initialise (user : User Ctx) (beforeInit : ModuleId → Program Ctx (Except Error Unit))
    (flags : OpenFlags) (load : LoadResult) : Program Ctx (Except Error OpenedLibrary) := do
  match ← beforeInit load.lease.id with
  | .error error => return .error (← rollbackPublished load error)
  | .ok () =>
      match ← user (.constructors load.modules) with
      | .error error => return .error (← rollbackPublished load error)
      | .ok () => return .ok (← withManager fun manager => manager.openLoad load flags)

/-- `open_with` from the loading of the root to the publication. -/
def publishRoot (request : String) (flags : OpenFlags) (root : LinkRoot Ctx)
    (caller : Option Nat) : Program Ctx OpenStage := do
  match ← mapRoot root with
  | .error error => return .finished (.error error)
  | .ok (root, maps) =>
      match ← prepareRoot request flags root maps caller with
      | .finished result => return .finished result
      | .prepared flags pending =>
          match ← publishPrepared pending with
          | .error error => return .finished (.error error)
          | .ok load => return .published flags load

/-- All of `open_with` that runs before any user code does. -/
def beginOpen (bindNow : Bool) (request : String) (requested : OpenFlags) (root : LinkRoot Ctx)
    (caller : Option Nat) : Program Ctx OpenStage := do
  let flags := effectiveFlags bindNow requested
  match ← openExisting request flags root with
  | some opened => return .finished (.ok opened)
  | none =>
      if flags.isNoload && root.isBinary then return .finished (.error (missingFile request))
      else publishRoot request flags root caller

def openWith (user : User Ctx) (beforeInit : ModuleId → Program Ctx (Except Error Unit))
    (bindNow : Bool) (request : String) (requested : OpenFlags) (root : LinkRoot Ctx)
    (caller : Option Nat) : Program Ctx (Except Error OpenedLibrary) := do
  match ← beginOpen bindNow request requested root caller with
  | .finished result => return result
  | .published flags load => initialise user beforeInit flags load

def open_ (user : User Ctx) (bindNow : Bool) (request : String) (flags : OpenFlags)
    (root : LinkRoot Ctx) (caller : Option Nat) : Program Ctx (Except Error OpenedLibrary) :=
  openWith user (fun _ => pure (.ok ())) bindNow request flags root caller

def openMain : Program Ctx OpenedLibrary :=
  withManager fun manager => expectSome "Main executable must be initialized" manager.mainLibrary

end Opening

/-! ## The interface -/

section Interface

variable {Ctx : Type} [ElfLoader Ctx] [ImageLoader Ctx] (user : User Ctx)

def registerHandle (opened : OpenedLibrary) : Program Ctx Nat :=
  withManager fun manager => manager.registerHandle opened

/-- The C function; a null name stands for the main program. -/
def dlopen (bindNow : Bool) (filename : Option String) (flags : OpenFlags) (caller : Nat) :
    Program Ctx Nat :=
  match filename with
  | none => do
      let opened ← openMain
      registerHandle opened
  | some path => do
      match ← open_ user bindNow path flags (.file path) (some caller) with
      | .error _ => return 0
      | .ok opened => registerHandle opened

/-- `into_inner` takes the acquisition and drops the emptied lease. -/
def intoInner (lease : ModuleLease) : Program Ctx NativeModuleLease := do
  let (inner, emptied) ← panicking lease.intoInner
  dropLease user emptied
  return inner

/-- When an entry is removed, what is left of it besides the library is dropped. -/
def dropRemoved (state : HandleState) : Program Ctx Unit :=
  if state.pop.2 = none then dropLeases user state.extraLeases else pure ()

/-- `Manager::release_handle`, under its borrow. -/
def takeHandle (handle : Nat) (manager : Manager Ctx) :
    Program Ctx (Option UnloadGroup × Manager Ctx) :=
  match manager.handles.lookup handle with
  | none => return (none, manager)
  | some state => do
      dropRemoved user state
      let inner ← intoInner user state.pop.1
      let (unloaded, manager) ←
        panicking ((manager.replaceHandle handle state.pop.2).releaseGroup inner)
      return (some unloaded, manager)

def releaseHandle (handle : Nat) : Program Ctx Bool := do
  match ← CellM.borrowMut (takeHandle user handle) with
  | none => return false
  | some unloaded =>
      dropGroup user unloaded
      return true

def dlclose (handle : Nat) : Program Ctx Bool :=
  if handle = 0 then return false else releaseHandle user handle

inductive SymbolQuery where
  | default (name : String)
  | next (caller : Nat) (name : String)
  | handle (handle : Nat) (name : String)

/-- `global_find`, `next_find` and `handle_find`. -/
def dlsym : SymbolQuery → Program Ctx (Option Nat)
  | .default name => readManager fun manager => findSymbol manager.view.globalScope name
  | .next caller name => withManager fun manager => .ok (manager.nextFind caller name, manager)
  | .handle handle name => readManager fun manager => manager.handleFind handle name

def libraryByAddr (addr : Nat) : Program Ctx (Option OpenedLibrary) :=
  withManager fun manager =>
    match manager.libraryByAddr addr with
    | none => .ok (none, manager)
    | some (opened, next) => .ok (some opened, next)

/-- The C function drops the library it looked at. -/
def dladdr (addr : Nat) : Program Ctx Bool := do
  match ← libraryByAddr addr with
  | none => return false
  | some opened =>
      dropLease user opened.lease
      return true

/-- `loaded_by_addr`, for `_dl_find_object` and `dl_find_dso_for_object`. -/
def loadedByAddr (addr : Nat) : Program Ctx (Option ModuleHandle) :=
  withManager fun manager => .ok (manager.moduleByAddr addr, manager)

def visitSnapshots (tlsDataPtr : Nat → Nat) (adds subs : Nat) :
    List LibrarySnapshot → Program Ctx (Except Error Unit)
  | [] => return .ok ()
  | snapshot :: rest => do
      match ← panicking (phdrInfo tlsDataPtr adds subs snapshot) with
      | none => visitSnapshots tlsDataPtr adds subs rest
      | some info =>
          match ← user (.phdrCallback info) with
          | .error error => return .error error
          | .ok () => visitSnapshots tlsDataPtr adds subs rest

/-- The snapshots, and with them their leases, are dropped on every way out. -/
def forEachPhdr (tlsDataPtr : Nat → Nat) : Program Ctx (Except Error Unit) := do
  let (adds, subs, libraries) ← withManager fun manager =>
    let (libraries, next) := manager.librarySnapshot
    .ok ((manager.adds, manager.subs, libraries), next)
  let result ← visitSnapshots user tlsDataPtr adds subs libraries
  dropLeases user (libraries.map (·.lease))
  return result

/-- A library that user code holds from now on. -/
def keepLibrary (opened : OpenedLibrary) : Program Ctx Unit :=
  modifySurroundings fun around =>
    { around with libraries := ⟨opened, 0⟩ :: around.libraries }

/-- `ElfLibrary::dlopen` and `ElfLibrary::dlopen_from_binary`. -/
def openLibrary (bindNow : Bool) (request : String) (flags : OpenFlags) (root : LinkRoot Ctx)
    (caller : Option Nat) : Program Ctx Unit := do
  match ← open_ user bindNow request flags root caller with
  | .error _ => return
  | .ok opened => keepLibrary opened

/-- `ElfLibrary::this`. -/
def thisLibrary : Program Ctx Unit := do
  let opened ← openMain
  keepLibrary opened

/-- `ElfLibrary::dladdr`, whose answer keeps the library. -/
def dladdrLibrary (addr : Nat) : Program Ctx Unit := do
  match ← libraryByAddr addr with
  | none => return
  | some opened => keepLibrary opened

def libraryFlags (index : Nat) : Program Ctx OpenFlags := do
  let around ← surroundings
  match around.libraries[index]? with
  | none => return .empty
  | some library =>
      let id ← panicking library.opened.lease.id
      let found ← readManager fun manager => manager.flags id
      return found.getD .empty

def cloneLibrary (index : Nat) : Program Ctx Unit :=
  modifySurroundings fun around =>
    match around.libraries[index]? with
    | none => around
    | some library => { around with
        libraries := around.libraries.set index { library with clones := library.clones + 1 } }

/-- Dropping an `ElfLibrary`; its last owner drops the lease. -/
def dropLibrary (index : Nat) : Program Ctx Unit := do
  let around ← surroundings
  match around.libraries[index]? with
  | none => return
  | some library =>
      match library.clones with
      | clones + 1 => modifySurroundings fun around => { around with
          libraries := around.libraries.set index { library with clones := clones } }
      | 0 =>
          modifySurroundings fun around =>
            { around with libraries := around.libraries.eraseIdx index }
          dropLease user library.opened.lease

/-- `accepted`: whether the C library takes the destructor. -/
def registerThreadDestructor (dsoHandle : Nat) (accepted : Bool) : Program Ctx Unit := do
  let lease ← withManager fun manager =>
    match manager.acquireModuleByAddr dsoHandle with
    | none => .ok (none, manager)
    | some (lease, next) => .ok (some lease, next)
  if accepted then
    modifySurroundings fun around =>
      { around with destructors := ⟨lease⟩ :: around.destructors }
  else dropLeaseOption user lease

def runThreadDestructor (index : Nat) : Program Ctx Unit := do
  let around ← surroundings
  match around.destructors[index]? with
  | none => return
  | some destructor =>
      modifySurroundings fun around =>
        { around with destructors := around.destructors.eraseIdx index }
      let _ ← user .threadDestructor
      dropLeaseOption user destructor.lease

/-- What `link_mapped_root` does before the constructors: `startup_state`, and then the code
of its caller. -/
def startupHook (rtld : Option (LinkMapAddress × Nat)) (root : ModuleId) :
    Program Ctx (Except Error Unit) := do
  match ← withManager fun manager => manager.startupState root rtld with
  | .error error => return .error error
  | .ok state => user (.beforeInit state)

/-- `link_mapped_root`: the library that the open yields is dropped. -/
def linkMappedRoot (bindNow : Bool) (request key : String) (raw : Raw Ctx) (flags : OpenFlags)
    (rtld : Option (LinkMapAddress × Nat)) : Program Ctx Unit := do
  match ← openWith user (startupHook user rtld) bindNow request flags (.mapped key raw) none with
  | .error _ => return
  | .ok opened =>
      modifySurroundings fun around =>
        { around with startupRoot := opened.lease.inner.map (·.id) }
      dropLease user opened.lease

def finalizeModules : List ModuleHandle → Program Ctx Unit
  | [] => return
  | handle :: rest => do
      let _ ← user (.finalizeModule handle)
      finalizeModules rest

def finalizeStartup : Program Ctx Unit := do
  let around ← surroundings
  modifySurroundings fun around => { around with startupRoot := none }
  match around.startupRoot with
  | none => return
  | some root =>
      let scope ← withManager fun manager =>
        .ok ((loadGroup manager.linkCtx root).toOption, manager)
      match scope with
      | none => return
      | some scope => finalizeModules user scope

def registerLoaded (lib : LoadedDylib) (flags : OpenFlags) : Program Ctx Unit :=
  withManager fun manager => do
    let next ← manager.registerLoaded lib flags
    return ((), next)

def registerInitialAliases : Program Ctx Unit :=
  withManager fun manager => do
    let next ← manager.registerInitialAliases
    return ((), next)

end Interface

end DynLinker.Registry
