import DynLinker.Debug.LinkMaps
import DynLinker.Registry.Open

/-! How the replacement loader publishes its link maps (`bootstrap/startup.rs`,
`bootstrap/publish.rs`). `_r_debug` starts at the main program, while `DEBUG` keeps the
head and the tail of the order in which the maps were added. -/

set_option autoImplicit false

namespace DynLinker.Debug

open Lib Loader Registry

namespace CustomDebug

/-- `link_startup_root` on the interpreter's map. -/
def resetLinks (custom : CustomDebug) (rtld : LinkMapAddress) : CustomDebug :=
  ((custom.setNext rtld none).setPrev rtld none).setReal rtld (some rtld)

/-- The loop of `link_loaded_objects`; `prev` is the map before the rest. -/
def linkLoadedObjects (custom : CustomDebug) (prev : Option LinkMapAddress) :
    List LinkMapAddress → CustomDebug
  | [] => custom
  | linkMap :: rest =>
      ((custom.setPrev linkMap prev).setNext linkMap rest.head?).linkLoadedObjects
        (some linkMap) rest

end CustomDebug

def insertRtld (rtld : LinkMapAddress) : List LinkMapAddress → List LinkMapAddress
  | [] => [rtld]
  | main :: rest => main :: rtld :: rest

/-- A startup: the maps in the order in which they were added, and the load group of the
program. The group has the program first and, apart from the interpreter, exactly the
objects that were loaded; no other object lies where the interpreter lies. -/
structure StartupScope where
  memory : LinkMapAddress → LinkMap
  rtld : LinkMapAddress
  rtldBase : Nat
  main : LinkMapAddress
  dependencies : List LinkMapAddress
  scope : List ModuleHandle
  distinct : (rtld :: main :: dependencies).Nodup
  root : scope.head?.bind ModuleHandle.linkMap = some main
  owned : ∀ handle ∈ scope, ∀ elf, handle.elf = some elf → elf.userData.isSome
  apart : ∀ handle ∈ scope, ∀ elf, handle.elf = some elf → elf.base = rtldBase →
    handle.linkMap = some rtld
  loaded : ((scope.filterMap ModuleHandle.linkMap).filter fun linkMap => linkMap ≠ rtld).Perm
    (main :: dependencies)

namespace StartupScope

/-- The load group without the interpreter, in its order. -/
def group (startup : StartupScope) : List LinkMapAddress :=
  (startup.scope.filterMap ModuleHandle.linkMap).filter fun linkMap => linkMap ≠ startup.rtld

def state (startup : StartupScope) : Except Panic Manager.StartupState := do
  let (maps, libc) ← Manager.startupMaps (some (startup.rtld, startup.rtldBase)) startup.scope
  return ⟨startup.main, insertRtld startup.rtld maps, libc⟩

def loadedMaps (startup : StartupScope) : CustomDebug :=
  let bootstrap := ((CustomDebug.initial startup.memory).addDebugLinkMap startup.rtld)
    |>.addDebugLinkMap startup.main
  startup.dependencies.foldl CustomDebug.addDebugLinkMap (bootstrap.resetLinks startup.rtld)

/-- `publish_loaded_globals`: the relinked maps and the head that `_r_debug` gets. -/
def publishLoadedGlobals (startup : StartupScope) :
    Except Panic (CustomDebug × LinkMapAddress) := do
  let state ← startup.state
  return (startup.loadedMaps.linkLoadedObjects none state.maps, state.main)

def world (startup : StartupScope) (custom : CustomDebug) : DebugWorld :=
  ⟨custom, startup.rtld :: startup.main :: startup.dependencies, [], []⟩

end StartupScope

/-- Later steps load a library or unload one that was loaded later: the objects of the
startup are `RTLD_NODELETE`. -/
def LoadsOrUnloads (world : DebugWorld) : DebugAction → Prop
  | .add _ _ => True
  | .copy _ _ _ => False
  | .drop linkMap => linkMap ∈ world.added

/-- Following `l_next` from the head visits every loaded map once, and `l_prev` is its
inverse. -/
def Complete (head : LinkMapAddress) (world : DebugWorld) : Prop :=
  ∃ nodes : List LinkMapAddress, nodes.Perm world.listed ∧
    DoublyLinked world.custom.next world.custom.prev (some head) nodes.getLast? nodes

def StartupScope.StaysComplete (startup : StartupScope) (custom : CustomDebug)
    (head : LinkMapAddress) : Prop :=
  ∀ (actions : List DebugAction) (world : DebugWorld),
    (DebugWorld.system.restrict LoadsOrUnloads).Run (startup.world custom) actions world →
    Complete head world

end DynLinker.Debug
