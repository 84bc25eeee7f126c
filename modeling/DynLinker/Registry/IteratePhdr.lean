import DynLinker.Registry.Manager

/-! `dl_iterate_phdr` (`api/dl_iterate_phdr.rs`): the walk over a snapshot of the
committed modules. The snapshot holds a lease on each of them until the walk ends. -/

set_option autoImplicit false

namespace DynLinker.Registry

open Lib Loader

/-- `library` is the snapshot that the borrowed fields point into. -/
structure DlPhdrInfo where
  library : LibrarySnapshot
  libBase : Nat
  libName : String
  phdrs : List Phdr
  dlpiAdds : Nat
  dlpiSubs : Nat
  tlsModid : Nat
  tlsData : Nat
deriving DecidableEq

/-- `TlsModuleId::RESERVED`. -/
def tlsModIdReserved : Nat := 0

def LibrarySnapshot.module (snapshot : LibrarySnapshot) : Except Panic ElfModule :=
  expectSome "library snapshot must contain an ELF module" snapshot.inner.elf

/-- What is reported for one module: nothing if it has no program headers. -/
def phdrInfo (tlsDataPtr : Nat → Nat) (adds subs : Nat) (snapshot : LibrarySnapshot) :
    Except Panic (Option DlPhdrInfo) := do
  let module ← snapshot.module
  let data ← expectSome "loaded module must have extra data" module.userData
  let phdrs := module.phdrs.getD []
  if phdrs = [] then return none
  else return some {
    library := snapshot
    libBase := module.base
    libName := data.cName
    phdrs := phdrs
    dlpiAdds := adds
    dlpiSubs := subs
    tlsModid := module.tlsModId.getD tlsModIdReserved
    tlsData := (module.tlsModId.map tlsDataPtr).getD 0 }

section

variable {State Failure : Type}

/-- The loop of `for_each_phdr`; a failing callback ends it. -/
def visitPhdrs (tlsDataPtr : Nat → Nat) (adds subs : Nat)
    (callback : State → DlPhdrInfo → Except Failure State) (state : State) :
    List LibrarySnapshot → Except Panic (Except Failure State)
  | [] => .ok (.ok state)
  | snapshot :: rest => do
      match ← phdrInfo tlsDataPtr adds subs snapshot with
      | none => visitPhdrs tlsDataPtr adds subs callback state rest
      | some info =>
          match callback state info with
          | .error failure => return .error failure
          | .ok next => visitPhdrs tlsDataPtr adds subs callback next rest

def Manager.forEachPhdr {Ctx : Type} [ElfLoader Ctx] (manager : Manager Ctx)
    (tlsDataPtr : Nat → Nat) (callback : State → DlPhdrInfo → Except Failure State)
    (state : State) : Except Panic (Except Failure State) :=
  visitPhdrs tlsDataPtr manager.adds manager.subs callback state manager.librarySnapshot.1

end

/-- The object that a walk reports first: a callback that gives its first argument
back as its failure. -/
def Manager.firstReported {Ctx : Type} [ElfLoader Ctx] (manager : Manager Ctx)
    (tlsDataPtr : Nat → Nat) : Except Panic (Except DlPhdrInfo Unit) :=
  manager.forEachPhdr tlsDataPtr (fun _ info => .error info) ()

/-- The modules that a walk reports, in order: a callback that keeps what it is given and
never ends the walk. -/
def Manager.reportedModules {Ctx : Type} [ElfLoader Ctx] (manager : Manager Ctx)
    (tlsDataPtr : Nat → Nat) : Except Panic (Except Empty (List ModuleHandle)) :=
  manager.forEachPhdr tlsDataPtr (fun seen info => .ok (seen ++ [info.library.inner])) []

end DynLinker.Registry
