import DynLinker.Lib.LinkedList
import DynLinker.Lib.TransitionSystem
import DynLinker.Loader.Context

/-! The list of link maps that a debugger follows (`runtime/debug.rs`), and the two
places that set it up (`runtime/host.rs`). Pointers are optional addresses; a null
pointer that is dereferenced ends the operation with `none`. -/

set_option autoImplicit false

namespace DynLinker.Debug

open Lib Loader

/-- `RT_CONSISTENT`, `RT_ADD` and `RT_DELETE`. -/
inductive ListState where
  | consistent
  | add
  | delete
deriving DecidableEq

structure LinkMap where
  lAddr : Nat
  lNext : Option LinkMapAddress
  lPrev : Option LinkMapAddress
  lReal : Option LinkMapAddress
deriving DecidableEq

def LinkMap.zero : LinkMap := ⟨0, none, none, none⟩

/-- `GDBDebug`. `internal` tells `INTERNAL_GDB_DEBUG` from a record of the host, and
`brk` whether there is a function to call. -/
structure GdbDebug where
  internal : Bool
  map : Option LinkMapAddress
  brk : Bool
  state : ListState
deriving DecidableEq

def internalGdbDebug : GdbDebug := ⟨true, none, true, .consistent⟩

/-- `CustomDebug` with the memory behind its pointers. `notified` is the state at every
call of `brk`. -/
structure CustomDebug where
  debug : Option GdbDebug
  tail : Option LinkMapAddress
  maps : LinkMapAddress → LinkMap
  notified : List ListState

namespace CustomDebug

/-- The static `DEBUG`. -/
def initial (maps : LinkMapAddress → LinkMap) : CustomDebug :=
  ⟨some internalGdbDebug, none, maps, []⟩

def next (custom : CustomDebug) (address : LinkMapAddress) : Option LinkMapAddress :=
  (custom.maps address).lNext

def prev (custom : CustomDebug) (address : LinkMapAddress) : Option LinkMapAddress :=
  (custom.maps address).lPrev

def setMap (custom : CustomDebug) (address : LinkMapAddress) (map : LinkMap) : CustomDebug :=
  { custom with maps := Function.update custom.maps address map }

def setNext (custom : CustomDebug) (address : LinkMapAddress) (next : Option LinkMapAddress) :
    CustomDebug :=
  custom.setMap address { custom.maps address with lNext := next }

def setPrev (custom : CustomDebug) (address : LinkMapAddress) (prev : Option LinkMapAddress) :
    CustomDebug :=
  custom.setMap address { custom.maps address with lPrev := prev }

def setReal (custom : CustomDebug) (address : LinkMapAddress) (real : Option LinkMapAddress) :
    CustomDebug :=
  custom.setMap address { custom.maps address with lReal := real }

/-- Stores the record and runs `call_debug_state` on it. -/
def callDebugState (custom : CustomDebug) (debug : GdbDebug) : CustomDebug :=
  { custom with
    debug := some debug
    notified := if debug.brk then custom.notified ++ [debug.state] else custom.notified }

/-- The new map becomes its own real map in the internal namespace and has none in the
host's. -/
def ownReal (custom : CustomDebug) (debug : GdbDebug) (linkMap : LinkMapAddress) : CustomDebug :=
  if debug.internal = true ∧ (custom.maps linkMap).lReal = none then
    custom.setReal linkMap (some linkMap)
  else if debug.internal = false then custom.setReal linkMap none
  else custom

/-- Makes the new map reachable: from the head of the list or from its last node. -/
def attach (custom : CustomDebug) (debug : GdbDebug) (linkMap : LinkMapAddress) :
    Option LinkMapAddress → GdbDebug × CustomDebug
  | none => ({ debug with map := some linkMap }, custom)
  | some tail => (debug, custom.setNext tail (some linkMap))

def addDebugLinkMap (custom : CustomDebug) (linkMap : LinkMapAddress) : CustomDebug :=
  match custom.debug with
  | none => custom
  | some debug =>
      let linked :=
        ((custom.ownReal debug linkMap).setPrev linkMap custom.tail).setNext linkMap none
      let (debug, attached) := linked.attach debug linkMap custom.tail
      let notified := { attached with tail := some linkMap }.callDebugState
        { debug with state := .add }
      notified.callDebugState { debug with state := .consistent }

/-- The four ways to take a listed map out, by whether it is first and last. -/
def detach (custom : CustomDebug) (debug : GdbDebug) (linkMap : LinkMapAddress) :
    Option (GdbDebug × CustomDebug) :=
  match decide (debug.map = some linkMap), decide (custom.tail = some linkMap) with
  | true, true => some ({ debug with map := none }, { custom with tail := none })
  | true, false => do
      let next ← (custom.maps linkMap).lNext
      return ({ debug with map := some next }, custom.setPrev next none)
  | false, true => do
      let prev ← (custom.maps linkMap).lPrev
      return (debug, { custom.setNext prev none with tail := some prev })
  | false, false => do
      let prev ← (custom.maps linkMap).lPrev
      let next ← (custom.maps linkMap).lNext
      return (debug, (custom.setNext prev (some next)).setPrev next (some prev))

/-- `Drop for ExtraData`; `linkMap` is the map that the data owns. -/
def dropExtraData (custom : CustomDebug) (linkMap : LinkMapAddress) : Option CustomDebug :=
  match custom.debug with
  | none => some custom
  | some debug =>
      if debug.map ≠ some linkMap ∧ (custom.maps linkMap).lPrev = none then some custom
      else do
        let debug := { debug with state := .delete }
        let (debug, detached) ← (custom.callDebugState debug).detach debug linkMap
        return detached.callDebugState { debug with state := .consistent }

/-- The loop of `init_host_debug`: follows `l_next` to the last map. -/
def lastFrom (maps : LinkMapAddress → LinkMap) : Nat → LinkMapAddress → Option LinkMapAddress
  | 0, _ => none
  | fuel + 1, current =>
      match (maps current).lNext with
      | none => some current
      | some next => lastFrom maps fuel next

/-- `none` when the fuel does not reach the end of the host's list. -/
def initHostDebug (custom : CustomDebug) (fuel : Nat) (host : GdbDebug) : Option CustomDebug :=
  match host.map with
  | none => some { custom with debug := some host, tail := none }
  | some first => do
      let last ← lastFrom custom.maps fuel first
      return { custom with debug := some host, tail := some last }

/-- The boxed link map of `from_raw`: a copy of the host's, or a new one. -/
def fromRaw (custom : CustomDebug) (base : Nat) (host : Option LinkMapAddress)
    (boxed : LinkMapAddress) : CustomDebug :=
  let copied := match host with
    | none => { LinkMap.zero with lAddr := base }
    | some address => custom.maps address
  custom.setMap boxed { copied with lReal := some boxed, lNext := none, lPrev := none }

end CustomDebug

/-! ## Histories -/

/-- The list together with what it should hold: the nodes it started with, the maps
added since, and the unlisted maps that are owned by an `ExtraData` as well. -/
structure DebugWorld where
  custom : CustomDebug
  initial : List LinkMapAddress
  added : List LinkMapAddress
  unlisted : List LinkMapAddress

inductive DebugAction where
  | add (linkMap : LinkMapAddress) (contents : LinkMap)
  | copy (base : Nat) (host : Option LinkMapAddress) (boxed : LinkMapAddress)
  | drop (linkMap : LinkMapAddress)

namespace DebugWorld

def listed (world : DebugWorld) : List LinkMapAddress := world.initial ++ world.added

def Live (world : DebugWorld) (linkMap : LinkMapAddress) : Prop :=
  linkMap ∈ world.listed ∨ linkMap ∈ world.unlisted

instance (world : DebugWorld) (linkMap : LinkMapAddress) : Decidable (world.Live linkMap) :=
  inferInstanceAs (Decidable (_ ∨ _))

/-- One operation. A new map lies at an address that no live map has, and only a live
map is dropped. -/
def act (world : DebugWorld) : DebugAction → Option DebugWorld
  | .add linkMap contents =>
      if world.Live linkMap then none
      else some { world with
        custom := (world.custom.setMap linkMap contents).addDebugLinkMap linkMap
        added := world.added ++ [linkMap] }
  | .copy base host boxed =>
      if world.Live boxed then none
      else some { world with
        custom := world.custom.fromRaw base host boxed
        unlisted := boxed :: world.unlisted }
  | .drop linkMap =>
      if world.Live linkMap then do
        let custom ← world.custom.dropExtraData linkMap
        return {
          custom := custom
          initial := world.initial.erase linkMap
          added := world.added.erase linkMap
          unlisted := world.unlisted.erase linkMap }
      else none

/-- An empty list, or the host's list as `init_host_debug` leaves it. -/
inductive Started : DebugWorld → Prop where
  | internal {maps : LinkMapAddress → LinkMap} : Started ⟨.initial maps, [], [], []⟩
  | host {before custom : CustomDebug} {fuel : Nat} {host : GdbDebug}
      {nodes : List LinkMapAddress} :
      host.internal = false → host.state = .consistent →
      DoublyLinked before.next before.prev host.map nodes.getLast? nodes →
      before.initHostDebug fuel host = some custom → Started ⟨custom, nodes, [], []⟩

def system : TransitionSystem DebugWorld DebugAction where
  initial := Started
  step world action next := world.act action = some next

end DebugWorld

end DynLinker.Debug
