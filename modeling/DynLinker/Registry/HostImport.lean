import DynLinker.Registry.Manager

/-! Taking over the objects that the host's loader has already loaded
(`runtime/host.rs`): one `register_loaded` for each object that the host's
`dl_iterate_phdr` reports, then the compatibility aliases. -/

set_option autoImplicit false

namespace DynLinker.Registry

open Lib Loader

def ptDynamic : Nat := 2

/-- An object as `from_raw` rebuilds it. The callback panics without `PT_DYNAMIC`,
and `from_raw` always attaches a boxed link map. -/
structure HostObject where
  instanceId : InstanceId
  name : String
  soname : Option String
  fileName : String
  neededLibs : List String
  base : Nat
  phdrs : List Phdr
  tlsModId : Option Nat
  ranges : List (Nat × Nat)
  symbols : List (String × Nat)
  linkMap : LinkMapAddress
  dynamic : ∃ phdr ∈ phdrs, phdr.programType = ptDynamic
deriving DecidableEq

namespace HostObject

def elf (object : HostObject) : ElfModule where
  soname := object.soname
  fileName := object.fileName
  neededLibs := object.neededLibs
  base := object.base
  phdrs := some object.phdrs
  tlsModId := object.tlsModId
  userData := some ⟨object.name, object.linkMap⟩

def handle (object : HostObject) : ModuleHandle where
  instanceId := object.instanceId
  name := object.name
  ranges := object.ranges
  symbols := object.symbols
  elf := some object.elf

def loaded (object : HostObject) : LoadedDylib := ⟨object.handle, [], []⟩

def key (object : HostObject) : String := object.soname.getD object.name

/-- The names an object has by itself: its key and its file name. -/
def OwnName (object : HostObject) (name : String) : Prop :=
  name = object.key ∨ (name = object.fileName ∧ name ≠ "")

instance (object : HostObject) (name : String) : Decidable (object.OwnName name) :=
  inferInstanceAs (Decidable (_ ∨ _))

/-- All names of an object, with the aliases that replace merged libraries. -/
def Names (object : HostObject) (name : String) : Prop :=
  object.OwnName name ∨
    ∃ original ∈ ["libc.so.6", "ld-linux-x86-64.so.2"],
      object.OwnName original ∧ name ∈ libcCompatAliases original

instance (object : HostObject) (name : String) : Decidable (object.Names name) :=
  inferInstanceAs (Decidable (_ ∨ _))

end HostObject

namespace Manager

variable {Ctx : Type} [ElfLoader Ctx]

def hostFlags : OpenFlags := OpenFlags.rtldNodelete.union OpenFlags.rtldGlobal

/-- `callback`, for an object that `from_raw` accepts. -/
def importObject (manager : Manager Ctx) (object : HostObject) : Except Panic (Manager Ctx) :=
  manager.registerLoaded object.loaded hostFlags

/-- `init` over the objects in the order in which the host reports them. -/
def importHost (manager : Manager Ctx) (objects : List HostObject) :
    Except Panic (Manager Ctx) := do
  let manager ← objects.foldlM importObject manager
  manager.registerInitialAliases

end Manager

end DynLinker.Registry
