import DynLinker.OpenFlags
import Mathlib.Data.List.Perm.Basic
import Mathlib.Logic.Relation

/-! What a link context of the ELF loader crate records, as far as the linker
uses it. The crate is a dependency, so its operations are the interface of
`Loader.ElfLoader`; this module only fixes the data they speak about. -/

set_option autoImplicit false

namespace DynLinker.Loader

structure ModuleId where
  index : Nat
deriving DecidableEq

structure InstanceId where
  index : Nat
deriving DecidableEq

/-- The address of a boxed `LinkMap`. -/
structure LinkMapAddress where
  value : Nat
  nonnull : value ≠ 0
deriving DecidableEq

structure ExtraData where
  cName : String
  linkMap : LinkMapAddress
deriving DecidableEq

structure Phdr where
  programType : Nat
  vaddr : Nat
  memsz : Nat
deriving DecidableEq

structure ElfModule where
  soname : Option String
  fileName : String
  neededLibs : List String
  base : Nat
  phdrs : Option (List Phdr)
  tlsModId : Option Nat
  userData : Option ExtraData
deriving DecidableEq

/-- A shared handle to a loaded module. `elf` is what `downcast_ref` finds. -/
structure ModuleHandle where
  instanceId : InstanceId
  name : String
  ranges : List (Nat × Nat)
  symbols : List (String × Nat)
  elf : Option ElfModule
deriving DecidableEq

namespace ModuleHandle

def get (handle : ModuleHandle) (name : String) : Option Nat := handle.symbols.lookup name

def Contains (handle : ModuleHandle) (addr : Nat) : Prop :=
  ∃ range ∈ handle.ranges, range.1 ≤ addr ∧ addr < range.2

def linkMap (handle : ModuleHandle) : Option LinkMapAddress := do
  let elf ← handle.elf
  let data ← elf.userData
  return data.linkMap

end ModuleHandle

structure GraphModule where
  key : String
  handle : ModuleHandle
  flags : OpenFlags
  dependencies : List InstanceId
deriving DecidableEq

/-- One acquisition of a module. The serial number tells acquisitions of the same
module apart; the linker itself only reads `id`. -/
structure NativeModuleLease where
  serial : Nat
  id : ModuleId
deriving DecidableEq

structure ModuleRecord where
  id : ModuleId
  key : String
  aliases : List String
  flags : OpenFlags
  handle : ModuleHandle
  dependencies : List InstanceId
deriving DecidableEq

def ModuleRecord.Named (record : ModuleRecord) (name : String) : Prop :=
  name = record.key ∨ name ∈ record.aliases

/-- The committed modules in load order, the global scope, and every acquisition
ever made: still outstanding, consumed by a pin, or released. -/
structure ContextView where
  modules : List ModuleRecord
  globalScope : List ModuleHandle
  issued : List NativeModuleLease
  outstanding : List NativeModuleLease
  pinned : List NativeModuleLease
  released : List NativeModuleLease
deriving DecidableEq

namespace ContextView

def empty : ContextView := ⟨[], [], [], [], [], []⟩

def find (view : ContextView) (id : ModuleId) : Option ModuleRecord :=
  view.modules.find? fun record => record.id = id

def order (view : ContextView) : List (ModuleId × ModuleHandle) :=
  view.modules.map fun record => (record.id, record.handle)

def Committed (view : ContextView) (id : ModuleId) : Prop :=
  ∃ record ∈ view.modules, record.id = id

instance (view : ContextView) (id : ModuleId) : Decidable (view.Committed id) :=
  inferInstanceAs (Decidable (∃ record ∈ view.modules, record.id = id))

def Leased (view : ContextView) (id : ModuleId) : Prop :=
  ∃ lease ∈ view.outstanding, lease.id = id

def Pinned (view : ContextView) (id : ModuleId) : Prop :=
  ∃ lease ∈ view.pinned, lease.id = id

instance (view : ContextView) (id : ModuleId) : Decidable (view.Pinned id) :=
  inferInstanceAs (Decidable (∃ lease ∈ view.pinned, lease.id = id))

def GroupEdge (view : ContextView) (source target : ModuleRecord) : Prop :=
  target ∈ view.modules ∧ target.handle.instanceId ∈ source.dependencies

def InGroup (view : ContextView) (root member : ModuleRecord) : Prop :=
  Relation.ReflTransGen view.GroupEdge root member

def setFlags (view : ContextView) (id : ModuleId) (flags : OpenFlags) : ContextView :=
  { view with
    modules := view.modules.map fun record =>
      if record.id = id then { record with flags := flags } else record }

def issue (view : ContextView) (lease : NativeModuleLease) : ContextView :=
  { view with issued := lease :: view.issued, outstanding := lease :: view.outstanding }

def append (view : ContextView) (records : List ModuleRecord) : ContextView :=
  { view with modules := view.modules ++ records }

def unload (view : ContextView) (unloaded : List ModuleId) : ContextView :=
  { view with
    modules := view.modules.filter fun record => record.id ∉ unloaded
    globalScope := view.globalScope.filter fun handle =>
      ¬ ∃ record ∈ view.modules, record.id ∈ unloaded ∧ record.handle = handle }

/-- A lease stops being outstanding because a pin consumes it. -/
def consume (view : ContextView) (lease : NativeModuleLease) : ContextView :=
  { view with outstanding := view.outstanding.erase lease, pinned := lease :: view.pinned }

def retire (view : ContextView) (lease : NativeModuleLease) : ContextView :=
  { view with outstanding := view.outstanding.erase lease, released := lease :: view.released }

end ContextView

end DynLinker.Loader
