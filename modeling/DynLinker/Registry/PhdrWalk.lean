import DynLinker.Loader.Collection
import DynLinker.Registry.LeaseConservation
import DynLinker.Registry.PhdrReports

/-! `for_each_phdr` step by step. Its callbacks, and the finalizers of what it unloads, may
call the linker in any way, so a walk may begin inside another one; the innermost walk is
the one that goes on. -/

set_option autoImplicit false

namespace DynLinker.Registry

open Lib Loader ElfLoader

variable {Ctx : Type} [ElfLoader Ctx] {Failure : Type}

/-- The loop before its next element, inside a callback, and the drop of `libraries`. -/
inductive WalkStage (Failure : Type) where
  | visiting (rest : List LibrarySnapshot)
  | calling (info : DlPhdrInfo) (rest : List LibrarySnapshot)
  | leaving (result : Except Failure Unit)

/-- `entry` is the registry's view when the walk began and `calls` are the callbacks that
have returned; the source keeps neither. -/
structure Walk (Failure : Type) where
  entry : ContextView
  adds : Nat
  subs : Nat
  libraries : List LibrarySnapshot
  calls : List (DlPhdrInfo × Except Failure Unit)
  stage : WalkStage Failure

namespace Walk

def begin_ (manager : Manager Ctx) : Walk Failure where
  entry := manager.view
  adds := manager.adds
  subs := manager.subs
  libraries := manager.librarySnapshot.1
  calls := []
  stage := .visiting manager.librarySnapshot.1

/-- The loop up to the next callback; a module without program headers is passed over. -/
def visit (walk : Walk Failure) (tlsDataPtr : Nat → Nat) : Option (Except Panic (Walk Failure)) :=
  match walk.stage with
  | .visiting [] => some (.ok { walk with stage := .leaving (.ok ()) })
  | .visiting (snapshot :: rest) => some do
      match ← phdrInfo tlsDataPtr walk.adds walk.subs snapshot with
      | none => return { walk with stage := .visiting rest }
      | some info => return { walk with stage := .calling info rest }
  | .calling _ _ => none
  | .leaving _ => none

/-- The callback returns. -/
def answer (walk : Walk Failure) (result : Except Failure Unit) : Option (Walk Failure) :=
  match walk.stage with
  | .calling info rest => some { walk with
      calls := walk.calls ++ [(info, result)]
      stage := match result with
        | .ok () => .visiting rest
        | .error failure => .leaving (.error failure) }
  | .visiting _ => none
  | .leaving _ => none

def isLeaving (walk : Walk Failure) : Bool :=
  match walk.stage with
  | .leaving _ => true
  | .visiting _ => false
  | .calling _ _ => false

end Walk

/-- The registry, and the walks in progress with the innermost first. The leases of a walk
are those of the iteration at the same place. -/
structure WalkWorld (Ctx : Type) [ElfLoader Ctx] (Failure : Type) where
  world : World Ctx
  walks : List (Walk Failure)

/-- `run` is anything that callbacks, finalizers or other threads do, apart from walks. -/
inductive WalkAction (Ctx : Type) [ElfLoader Ctx] (Failure : Type) where
  | run (action : Action Ctx)
  | enter
  | visit (tlsDataPtr : Nat → Nat)
  | answer (result : Except Failure Unit)
  | drop
  | leave

/-- The steps of the world that only a walk takes. -/
def Action.ofWalk : Action Ctx → Bool
  | .iteratePhdr => true
  | .dropSnapshot _ => true
  | _ => false

namespace WalkWorld

def initial : WalkWorld Ctx Failure := ⟨.new, []⟩

def view (state : WalkWorld Ctx Failure) : ContextView := state.world.view

/-- The world takes a step and the walks become these. -/
def withStep (walks : List (Walk Failure)) (stepped : Option (Except Panic (World Ctx))) :
    Option (Except Panic (WalkWorld Ctx Failure)) :=
  stepped.map fun result => result.map fun world => ⟨world, walks⟩

def act (state : WalkWorld Ctx Failure) :
    WalkAction Ctx Failure → Option (Except Panic (WalkWorld Ctx Failure))
  | .run action => if action.ofWalk then none else withStep state.walks (state.world.act action)
  | .enter => withStep (.begin_ state.world.manager :: state.walks) (state.world.act .iteratePhdr)
  | .visit tlsDataPtr =>
      match state.walks with
      | [] => none
      | walk :: outer => (walk.visit tlsDataPtr).map fun result =>
          result.map fun walk => { state with walks := walk :: outer }
  | .answer result =>
      match state.walks with
      | [] => none
      | walk :: outer => (walk.answer result).map fun walk =>
          .ok { state with walks := walk :: outer }
  | .drop =>
      match state.walks, state.world.iterations with
      | walk :: outer, (_ :: _) :: _ =>
          if walk.isLeaving then withStep (walk :: outer) (state.world.act (.dropSnapshot 0))
          else none
      | _, _ => none
  | .leave =>
      match state.walks, state.world.iterations with
      | walk :: outer, [] :: _ =>
          if walk.isLeaving then withStep outer (state.world.act (.dropSnapshot 0)) else none
      | _, _ => none

def system : TransitionSystem (WalkWorld Ctx Failure) (WalkAction Ctx Failure) where
  initial state := state = initial
  step state action next := state.act action = some (.ok next)

end WalkWorld

end DynLinker.Registry
