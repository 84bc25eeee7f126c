import DynLinker.Lib.Holdings
import DynLinker.Lib.TransitionSystem
import DynLinker.Registry.Open

/-! The registry together with everything that holds a lease on it. A step is one
section of code that runs under the loader lock without giving the registry up;
constructors, finalizers, callbacks and other threads run between steps, so any
interleaving of calls is a run. -/

set_option autoImplicit false

namespace DynLinker.Registry

open Lib Loader ElfLoader

/-- `ElfLibrary`: a shared `OpenedLibrary` with `clones + 1` owners. -/
structure ElfLibrary where
  opened : OpenedLibrary
  clones : Nat

structure ThreadDestructor where
  lease : Option ModuleLease

/-- `preparing` and `initialising` are the opens in progress, before and after their
modules are published. `opened` are libraries on their way to a caller. `opens` and
`closes` count the successful C calls for each handle. -/
structure World (Ctx : Type) [ElfLoader Ctx] where
  manager : Manager Ctx
  preparing : List (OpenFlags × Pending Ctx)
  initialising : List (OpenFlags × LoadResult)
  opened : List OpenedLibrary
  libraries : List ElfLibrary
  iterations : List (List LibrarySnapshot)
  destructors : List ThreadDestructor
  opens : Nat → Nat
  closes : Nat → Nat

inductive Action (Ctx : Type) [ElfLoader Ctx] where
  | registerLoaded (lib : LoadedDylib) (flags : OpenFlags)
  | registerInitialAliases
  | openWith (bindNow : Bool) (request : String) (flags : OpenFlags) (root : LinkRoot Ctx)
      (caller : Option Nat)
  | publish (index : Nat)
  | startupHook (index : Nat) (rtld : Option (LinkMapAddress × Nat))
  | initialised (index : Nat)
  | initialiseFailed (index : Nat)
  | openMain
  | libraryByAddr (addr : Nat)
  | intoElfLibrary (index : Nat)
  | dropOpened (index : Nat)
  | cloneLibrary (index : Nat)
  | dropLibrary (index : Nat)
  | registerHandle (index : Nat)
  | dlclose (handle : Nat)
  | dlsym (handle : Nat) (name : String)
  | iteratePhdr
  | dropSnapshot (index : Nat)
  | registerDestructor (dsoHandle : Nat)
  | dropDestructor (index : Nat)

namespace World

variable {Ctx : Type} [ElfLoader Ctx]

def new : World Ctx where
  manager := .new
  preparing := []
  initialising := []
  opened := []
  libraries := []
  iterations := []
  destructors := []
  opens _ := 0
  closes _ := 0

def addOpened (world : World Ctx) (opened : OpenedLibrary) (manager : Manager Ctx) : World Ctx :=
  { world with manager := manager, opened := opened :: world.opened }

/-- The first part of an open has ended. -/
def afterOpenWith (world : World Ctx) : OpenOutcome Ctx × Manager Ctx → World Ctx
  | (.finished (.ok opened), manager) => world.addOpened opened manager
  | (.finished (.error _), manager) => { world with manager := manager }
  | (.prepared flags pending, manager) =>
      { world with manager := manager, preparing := (flags, pending) :: world.preparing }

def publishAt (world : World Ctx) (index : Nat) (flags : OpenFlags) (pending : Pending Ctx) :
    World Ctx :=
  let rest := { world with preparing := world.preparing.eraseIdx index }
  match world.manager.publishPending pending with
  | .error _ => rest
  | .ok (load, manager) =>
      { rest with manager := manager, initialising := (flags, load) :: world.initialising }

/-- An open in progress fails after its modules were published. -/
def abandon (world : World Ctx) (index : Nat) (load : LoadResult) : World Ctx :=
  { world with
    manager := world.manager.rollbackLoad load
    initialising := world.initialising.eraseIdx index }

def startupHookAt (world : World Ctx) (index : Nat) (load : LoadResult)
    (rtld : Option (LinkMapAddress × Nat)) : Except Panic (World Ctx) := do
  let (result, manager) ← world.manager.startupState load.lease.id rtld
  let world := { world with manager := manager }
  match result with
  | .ok _ => return world
  | .error _ => return world.abandon index load

def dlcloseAt (world : World Ctx) (handle : Nat) : Except Panic (Bool × World Ctx) :=
  if handle = 0 then .ok (false, world)
  else do
    let (unloaded, manager) ← world.manager.releaseHandle handle
    match unloaded with
    | none => return (false, { world with manager := manager })
    | some _ => return (true, { world with
        manager := manager
        closes := Function.update world.closes handle (world.closes handle + 1) })

def dropLibraryAt (world : World Ctx) (index : Nat) (library : ElfLibrary) :
    Except Panic (World Ctx) :=
  match library.clones with
  | clones + 1 =>
      .ok { world with libraries := world.libraries.set index { library with clones := clones } }
  | 0 => do
      let manager ← world.manager.dropLease library.opened.lease
      return { world with manager := manager, libraries := world.libraries.eraseIdx index }

def registerHandleAt (world : World Ctx) (index : Nat) (opened : OpenedLibrary) :
    Except Panic (World Ctx) := do
  let (handle, manager) ← world.manager.registerHandle opened
  return { world with
    manager := manager
    opened := world.opened.eraseIdx index
    opens := Function.update world.opens handle (world.opens handle + 1) }

def dropDestructorAt (world : World Ctx) (index : Nat) (destructor : ThreadDestructor) :
    Except Panic (World Ctx) := do
  let manager ← world.manager.dropLeaseOption destructor.lease
  return { world with manager := manager, destructors := world.destructors.eraseIdx index }

/-- One step, if it is possible: `none` when the named value does not exist. -/
def act (world : World Ctx) : Action Ctx → Option (Except Panic (World Ctx))
  | .registerLoaded lib flags => some do
      let manager ← world.manager.registerLoaded lib flags
      return { world with manager := manager }
  | .registerInitialAliases => some do
      let manager ← world.manager.registerInitialAliases
      return { world with manager := manager }
  | .openWith bindNow request flags root caller => some do
      let outcome ← world.manager.openWith bindNow request flags root caller
      return world.afterOpenWith outcome
  | .publish index => do
      let (flags, pending) ← world.preparing[index]?
      return .ok (world.publishAt index flags pending)
  | .startupHook index rtld => do
      let (_, load) ← world.initialising[index]?
      return world.startupHookAt index load rtld
  | .initialised index => do
      let (flags, load) ← world.initialising[index]?
      return do
        let (opened, manager) ← world.manager.openLoad load flags
        return { world.addOpened opened manager with
          initialising := world.initialising.eraseIdx index }
  | .initialiseFailed index => do
      let (_, load) ← world.initialising[index]?
      return .ok (world.abandon index load)
  | .openMain => some do
      let (opened, manager) ← expectSome "Main executable must be initialized"
        world.manager.mainLibrary
      return world.addOpened opened manager
  | .libraryByAddr addr =>
      match world.manager.libraryByAddr addr with
      | none => some (.ok world)
      | some (opened, manager) => some (.ok (world.addOpened opened manager))
  | .intoElfLibrary index => do
      let opened ← world.opened[index]?
      return .ok { world with
        opened := world.opened.eraseIdx index
        libraries := ⟨opened, 0⟩ :: world.libraries }
  | .dropOpened index => do
      let opened ← world.opened[index]?
      return do
        let manager ← world.manager.dropLease opened.lease
        return { world with manager := manager, opened := world.opened.eraseIdx index }
  | .cloneLibrary index => do
      let library ← world.libraries[index]?
      return .ok { world with
        libraries := world.libraries.set index { library with clones := library.clones + 1 } }
  | .dropLibrary index => do
      let library ← world.libraries[index]?
      return world.dropLibraryAt index library
  | .registerHandle index => do
      let opened ← world.opened[index]?
      return world.registerHandleAt index opened
  | .dlclose handle => some do
      let (_, world) ← world.dlcloseAt handle
      return world
  | .dlsym _ _ => some (.ok world)
  | .iteratePhdr =>
      let (snapshots, manager) := world.manager.librarySnapshot
      some (.ok { world with manager := manager, iterations := snapshots :: world.iterations })
  | .dropSnapshot index =>
      match world.iterations[index]? with
      | none => none
      | some [] => some (.ok { world with iterations := world.iterations.eraseIdx index })
      | some (snapshot :: rest) => some do
          let manager ← world.manager.dropLease snapshot.lease
          return { world with manager := manager, iterations := world.iterations.set index rest }
  | .registerDestructor dsoHandle =>
      match world.manager.acquireModuleByAddr dsoHandle with
      | none => some (.ok { world with destructors := ⟨none⟩ :: world.destructors })
      | some (lease, manager) => some (.ok { world with
          manager := manager, destructors := ⟨some lease⟩ :: world.destructors })
  | .dropDestructor index => do
      let destructor ← world.destructors[index]?
      return world.dropDestructorAt index destructor

def system : TransitionSystem (World Ctx) (Action Ctx) where
  initial world := world = new
  step world action next := world.act action = some (.ok next)

def runActions (world : World Ctx) : List (Action Ctx) → Option (World Ctx)
  | [] => some world
  | action :: rest =>
      match world.act action with
      | some (.ok next) => next.runActions rest
      | some (.error _) => none
      | none => none

/-- One step of `system.restrict condition`, executed. -/
def actWhen (condition : World Ctx → Action Ctx → Prop)
    [∀ world action, Decidable (condition world action)] (world : World Ctx)
    (action : Action Ctx) : Option (World Ctx) :=
  if condition world action then (world.act action).bind Except.toOption else none

theorem step_of_actWhen {condition : World Ctx → Action Ctx → Prop}
    [∀ world action, Decidable (condition world action)] {action : Action Ctx}
    {world next : World Ctx} (ran : actWhen condition world action = some next) :
    (system.restrict condition).step world action next := by
  obtain ⟨allowed, acted⟩ := Option.ite_none_right_eq_some.mp ran
  exact ⟨allowed, bind_toOption_eq_some_iff.mp acted⟩

theorem run_of_actWhen {condition : World Ctx → Action Ctx → Prop}
    [∀ world action, Decidable (condition world action)] {actions : List (Action Ctx)}
    {start world : World Ctx}
    (ran : TransitionSystem.runLabels (actWhen condition) start actions = some world) :
    (system.restrict condition).Run start actions world :=
  TransitionSystem.Run.refl.runLabels (fun _ _ _ => step_of_actWhen) ran

theorem act_of_runActions {world next : World Ctx} {action : Action Ctx}
    (ran : world.runActions [action] = some next) : world.act action = some (.ok next) := by
  rw [runActions] at ran
  split at ran
  · next accepted =>
      cases ran
      exact accepted
  · cases ran
  · cases ran

theorem run_of_runActions {start world finish : World Ctx} {labels actions : List (Action Ctx)}
    (run : system.Run start labels world) (ran : world.runActions actions = some finish) :
    ∃ labels, system.Run start labels finish := by
  induction actions generalizing world labels with
  | nil =>
      cases ran
      exact ⟨labels, run⟩
  | cons action rest ih =>
      rw [runActions] at ran
      split at ran
      · next accepted => exact ih (run.snoc accepted) ran
      · cases ran
      · cases ran

theorem reachable_of_runActions {actions : List (Action Ctx)} {world : World Ctx}
    (ran : (new : World Ctx).runActions actions = some world) : system.Reachable world := by
  obtain ⟨labels, run⟩ := run_of_runActions .refl ran
  exact ⟨new, labels, rfl, run⟩

end World

end DynLinker.Registry
