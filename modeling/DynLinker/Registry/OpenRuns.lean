import DynLinker.Registry.CallFrames

/-! An open, followed by the step relation: its first part is one step, publication is
another, and the hook, the constructors and what comes after them are steps with user code
between them. -/

set_option autoImplicit false

namespace DynLinker.Registry

open Lib Loader ElfLoader ImageLoader

variable {Ctx : Type} [ElfLoader Ctx]

/-! ## Up to the publication -/

section Stages

variable [ImageLoader Ctx] {before after : Process Ctx}

/-- A binary root is loaded first, and the object it yields stands for it. -/
theorem mapRoot_prepares {root : LinkRoot Ctx}
    {result : Except Error (LinkRoot Ctx × List LinkMapAddress)}
    (ran : mapRoot root before = .ok (result, after)) :
    Leaves before.manager before after ∧
      ((∃ error, result = .error error ∧ ∀ (manager : Manager Ctx) request flags caller,
          manager.prepare request flags root caller =
            .ok (.finished (.error error), manager)) ∨
        ∃ mapped maps, result = .ok (mapped, maps) ∧
          ∀ (manager : Manager Ctx) request flags caller,
            manager.prepare request flags mapped caller =
              manager.prepare request flags root caller) := by
  cases root with
  | file path =>
      cases ran
      exact ⟨.refl before, .inr ⟨_, _, rfl, fun _ _ _ _ => rfl⟩⟩
  | mapped key raw =>
      cases ran
      exact ⟨.refl before, .inr ⟨_, _, rfl, fun _ _ _ _ => rfl⟩⟩
  | binary key bytes =>
      rw [mapRoot] at ran
      obtain ⟨_, middle, adding, ran⟩ := CellM.run_bind.mp ran
      have added : Leaves before.manager before middle := debugActions_leaves adding
      cases loaded : @loadDylib Ctx _ key bytes with
      | error failure =>
          rw [loaded] at ran
          obtain ⟨_, last, dropping, returned⟩ := CellM.run_bind.mp ran
          cases returned
          refine ⟨added.trans (added.manager ▸ debugActions_leaves dropping), .inl ⟨_, rfl, ?_⟩⟩
          intro manager request flags caller
          rw [Manager.prepare, loaded]
      | ok raw =>
          rw [loaded] at ran
          obtain ⟨_, last, keeping, returned⟩ := CellM.run_bind.mp ran
          cases returned
          refine ⟨added.trans (added.manager ▸ debugActions_leaves keeping),
            .inr ⟨_, _, rfl, ?_⟩⟩
          intro manager request flags caller
          rw [Manager.prepare, Manager.prepare, loaded]

theorem prepareRoot_leaves {request : String} {flags : OpenFlags} {root : LinkRoot Ctx}
    {maps : List LinkMapAddress} {caller : Option Nat} {outcome : OpenOutcome Ctx}
    (ran : prepareRoot request flags root maps caller before = .ok (outcome, after)) :
    ∃ next, before.manager.prepare request flags root caller = .ok (outcome, next) ∧
      Leaves next before after := by
  obtain ⟨cell, around⟩ := before
  obtain ⟨_, value, last, next, body, rfl⟩ := CellM.run_borrowMut.mp ran
  obtain ⟨_, first, adding, body⟩ := CellM.run_bind.mp body
  have added := debugActions_leaves adding
  obtain ⟨⟨found, manager⟩, second, preparing, body⟩ := CellM.run_bind.mp body
  obtain ⟨prepared, rfl⟩ := run_panicking.mp preparing
  cases found with
  | finished result =>
      obtain ⟨_, third, dropping, returned⟩ := CellM.run_bind.mp body
      have dropped := added.trans (added.manager ▸ debugActions_leaves dropping)
      cases returned
      exact ⟨_, prepared, rfl, dropped.libraries, dropped.destructors⟩
  | prepared given pending =>
      obtain ⟨_, third, keeping, returned⟩ := CellM.run_bind.mp body
      have kept := added.trans (added.manager ▸ debugActions_leaves keeping)
      cases returned
      exact ⟨_, prepared, rfl, kept.libraries, kept.destructors⟩

theorem publishPrepared_leaves {pending : Pending Ctx} {result : Except Error LoadResult}
    (ran : publishPrepared pending before = .ok (result, after)) :
    (∃ error, result = .error error ∧ before.manager.publishPending pending = .error error ∧
      Leaves before.manager before after) ∨
    ∃ load next, result = .ok load ∧
      before.manager.publishPending pending = .ok (load, next) ∧ Leaves next before after := by
  obtain ⟨cell, around⟩ := before
  rw [publishPrepared] at ran
  cases relocating : relocate pending with
  | error failure =>
      rw [relocating] at ran
      obtain ⟨_, last, dropping, returned⟩ := CellM.run_bind.mp ran
      have dropped := debugActions_leaves dropping
      cases returned
      refine .inl ⟨_, rfl, ?_, dropped⟩
      rw [Manager.publishPending, relocating]
  | ok relocated =>
      rw [relocating] at ran
      obtain ⟨_, value, last, next, body, rfl⟩ := CellM.run_borrowMut.mp ran
      cases publishing : publish cell.value.linkCtx relocated with
      | error failure =>
          simp only [publishing] at body
          obtain ⟨_, third, dropping, returned⟩ := CellM.run_bind.mp body
          have dropped := debugActions_leaves dropping
          cases returned
          refine .inl ⟨_, rfl, ?_, rfl, dropped.libraries, dropped.destructors⟩
          simp only [Manager.publishPending, relocating, Process.manager, publishing]
      | ok published =>
          simp only [publishing] at body
          cases body
          refine .inr ⟨_, _, rfl, ?_, rfl, rfl, rfl⟩
          simp only [Manager.publishPending, relocating, Process.manager, publishing]

/-- Where an open stands, by what the registry answered to its first part. -/
inductive Reaches (next : Manager Ctx) (before after : Process Ctx) :
    OpenOutcome Ctx → OpenStage → Prop where
  | finished {result : Except Error OpenedLibrary} :
      Leaves next before after → Reaches next before after (.finished result) (.finished result)
  | unpublished {flags : OpenFlags} {pending : Pending Ctx} {error : Error} :
      next.publishPending pending = .error error → Leaves next before after →
      Reaches next before after (.prepared flags pending) (.finished (.error error))
  | published {flags : OpenFlags} {pending : Pending Ctx} {load : LoadResult}
      {published : Manager Ctx} :
      next.publishPending pending = .ok (load, published) → Leaves published before after →
      Reaches next before after (.prepared flags pending) (.published flags load)

theorem publishRoot_reaches {request : String} {flags : OpenFlags} {root : LinkRoot Ctx}
    {caller : Option Nat} {stage : OpenStage}
    (ran : publishRoot request flags root caller before = .ok (stage, after)) :
    ∃ outcome next, before.manager.prepare request flags root caller = .ok (outcome, next) ∧
      Reaches next before after outcome stage := by
  obtain ⟨mapped, middle, mapping, ran⟩ := CellM.run_bind.mp ran
  obtain ⟨kept, ⟨error, rfl, failing⟩ | ⟨root', maps, rfl, same⟩⟩ := mapRoot_prepares mapping
  · cases ran
    exact ⟨_, _, failing _ _ _ _, .finished kept⟩
  · obtain ⟨outcome, last, preparing, ran⟩ := CellM.run_bind.mp ran
    obtain ⟨next, prepared, leaves⟩ := prepareRoot_leaves preparing
    replace leaves := kept.trans leaves
    rw [kept.manager, same] at prepared
    refine ⟨outcome, next, prepared, ?_⟩
    cases outcome with
    | finished result =>
        cases ran
        exact .finished leaves
    | prepared given pending =>
        obtain ⟨result, final, publishing, ran⟩ := CellM.run_bind.mp ran
        rcases publishPrepared_leaves publishing with
          ⟨error, rfl, failed, rest⟩ | ⟨load, published, rfl, accepted, rest⟩
        · cases ran
          rw [leaves.manager] at failed rest
          exact .unpublished failed (leaves.trans rest)
        · cases ran
          rw [leaves.manager] at accepted
          exact .published accepted (leaves.trans rest)

omit [ImageLoader Ctx] in
/-- A mapped root is not looked up by name. -/
theorem openExisting_leaves {request : String} {flags : OpenFlags} {root : LinkRoot Ctx}
    {found : Option OpenedLibrary}
    (ran : openExisting request flags root before = .ok (found, after)) :
    root.isMapped = true ∧ found = none ∧ after = before ∨
    root.isMapped = false ∧ ∃ next, before.manager.openExisting request flags =
      .ok (found, next) ∧ Leaves next before after := by
  rw [openExisting] at ran
  split at ran
  · next mapped =>
      cases ran
      exact .inl ⟨mapped, rfl, rfl⟩
  · next unmapped =>
      exact .inr ⟨Bool.eq_false_iff.mpr unmapped, run_withManager ran⟩

omit [ImageLoader Ctx] in
theorem LinkRoot.isBinary_of_isMapped {root : LinkRoot Ctx} (mapped : root.isMapped = true) :
    root.isBinary = false := by
  cases root with
  | file path => cases mapped
  | binary key bytes => cases mapped
  | mapped key raw => rfl

theorem beginOpen_reaches {bindNow : Bool} {request : String} {requested : OpenFlags}
    {root : LinkRoot Ctx} {caller : Option Nat} {stage : OpenStage}
    (ran : beginOpen bindNow request requested root caller before = .ok (stage, after)) :
    ∃ outcome next, before.manager.openWith bindNow request requested root caller =
      .ok (outcome, next) ∧ Reaches next before after outcome stage := by
  obtain ⟨found, middle, searching, continued⟩ := CellM.run_bind.mp ran
  rw [Manager.openWith]
  rcases openExisting_leaves searching with
    ⟨mapped, rfl, rfl⟩ | ⟨unmapped, next, searched, leaves⟩
  · rw [if_pos mapped]
    simp only [LinkRoot.isBinary_of_isMapped mapped, Bool.and_false, Bool.false_eq_true,
      if_false] at continued
    exact publishRoot_reaches continued
  · simp only [unmapped, Bool.false_eq_true, if_false, searched, ok_bind]
    cases found with
    | some opened =>
        cases continued
        exact ⟨_, _, rfl, .finished leaves⟩
    | none =>
        simp only at continued ⊢
        split
        · next absent =>
            rw [if_pos absent] at continued
            cases continued
            exact ⟨_, _, rfl, .finished leaves⟩
        · next wanted =>
            rw [if_neg wanted] at continued
            obtain ⟨outcome, last, prepared, reaches⟩ := publishRoot_reaches continued
            rw [leaves.manager] at prepared
            refine ⟨outcome, last, prepared, ?_⟩
            cases reaches with
            | finished rest => exact .finished (leaves.trans rest)
            | unpublished failed rest => exact .unpublished failed (leaves.trans rest)
            | published accepted rest => exact .published accepted (leaves.trans rest)

/-- The first part is one step, and publication is one more. -/
theorem beginOpen_follows (frames : CallFrames Ctx) (bindNow : Bool) (request : String)
    (requested : OpenFlags) (root : LinkRoot Ctx) (caller : Option Nat) :
    World.system.Follows (Mirrors frames) (beginOpen bindNow request requested root caller)
      fun stage => Mirrors (frames.atStage stage) := by
  intro world process stage final mirrors ran
  obtain ⟨outcome, next, accepted, reaches⟩ := beginOpen_reaches ran
  rw [← mirrors.manager] at accepted
  have opening : World.system.step world (.openWith bindNow request requested root caller)
      (world.afterOpenWith (outcome, next)) :=
    congrArg some (bind_eq_ok.mpr ⟨_, accepted, rfl⟩)
  cases reaches with
  | @finished result leaves =>
      have after := mirrors.leaves leaves
      cases result with
      | error error => exact .step opening (.now after)
      | ok opened =>
          exact .step opening
            (.now { after with opened := congrArg (opened :: ·) mirrors.opened })
  | @unpublished flags pending error failed leaves =>
      have publishing : World.system.step
          (world.afterOpenWith (.prepared flags pending, next)) (.publish 0)
          { world with manager := next } := by
        simp [World.system, World.act, World.publishAt, World.afterOpenWith, failed]
      exact .step opening (.step publishing (.now (mirrors.leaves leaves)))
  | @published flags pending load published committed leaves =>
      have publishing : World.system.step
          (world.afterOpenWith (.prepared flags pending, next)) (.publish 0)
          { world with
            manager := published
            initialising := (flags, load) :: world.initialising } := by
        simp [World.system, World.act, World.publishAt, World.afterOpenWith, committed]
      have after := mirrors.leaves leaves
      exact .step opening (.step publishing (.now { after with
        initialising := congrArg ((flags, load) :: ·) mirrors.initialising }))

end Stages

/-! ## The hook and the constructors -/

section Initialise

variable {frames : CallFrames Ctx} {flags : OpenFlags} {load : LoadResult}

/-- The load is about to be rolled back, and the system can follow. -/
def Failing (frames : CallFrames Ctx) (load : LoadResult) (world : World Ctx)
    (process : Process Ctx) : Prop :=
  ∀ final, Leaves (process.manager.rollbackLoad load) process final →
    World.system.Later (Mirrors frames) world final

/-- How the hook may end. -/
def AfterHook (frames : CallFrames Ctx) (flags : OpenFlags) (load : LoadResult) :
    Except Error Unit → World Ctx → Process Ctx → Prop
  | .ok _ => Mirrors (frames.addInitialising flags load)
  | .error _ => Failing frames load

theorem Mirrors.initialising_head {world : World Ctx} {process : Process Ctx}
    (mirrors : Mirrors (frames.addInitialising flags load) world process) :
    world.initialising[0]? = some (flags, load) := by
  rw [mirrors.initialising]
  rfl

theorem Mirrors.initialising_tail {world : World Ctx} {process : Process Ctx}
    (mirrors : Mirrors (frames.addInitialising flags load) world process) :
    world.initialising.eraseIdx 0 = frames.initialising := by
  rw [mirrors.initialising]
  rfl

theorem Mirrors.failing {world : World Ctx} {process : Process Ctx}
    (mirrors : Mirrors (frames.addInitialising flags load) world process) :
    Failing frames load world process := by
  intro final leaves
  have present := mirrors.initialising_head
  have failing : World.system.step world (.initialiseFailed 0) (world.abandon 0 load) := by
    simp [World.system, World.act, present]
  rw [← mirrors.manager] at leaves
  have after := mirrors.leaves leaves
  exact .step failing (.now { after with initialising := mirrors.initialising_tail })

theorem rollbackPublished_follows (error : Error) :
    World.system.Follows (Failing frames load) (rollbackPublished load error)
      fun _ => Mirrors frames := by
  intro world process reported final failing ran
  refine failing final ?_
  obtain ⟨cell, around⟩ := process
  obtain ⟨_, value, last, next, body, rfl⟩ := CellM.run_borrowMut.mp ran
  cases rolling : rollback cell.value.linkCtx load with
  | error failure =>
      simp only [rolling] at body
      cases body
      refine ⟨?_, rfl, rfl⟩
      simp only [Manager.rollbackLoad, Process.manager, rolling]
  | ok ctx =>
      simp only [rolling] at body
      obtain ⟨_, second, dropping, returned⟩ := CellM.run_bind.mp body
      have dropped := debugActions_leaves dropping
      cases returned
      refine ⟨?_, dropped.libraries, dropped.destructors⟩
      simp only [Manager.rollbackLoad, Process.manager, rolling]

theorem openLoad_follows :
    World.system.Follows (Mirrors (frames.addInitialising flags load))
      (withManager fun manager => manager.openLoad load flags)
      fun opened => Mirrors (frames.addOpened opened) := by
  refine withManager_follows ?_
  intro world process final opened next mirrors accepted leaves
  have present := mirrors.initialising_head
  rw [← mirrors.manager] at accepted
  have initialised : World.system.step world (.initialised 0)
      { world.addOpened opened next with initialising := world.initialising.eraseIdx 0 } := by
    simp only [World.system, World.act, present, Option.bind_eq_bind, Option.bind_some, accepted]
    rfl
  have after := mirrors.leaves leaves
  exact .step initialised (.now { after with
    initialising := mirrors.initialising_tail
    opened := congrArg (opened :: ·) mirrors.opened })

variable {user : User Ctx} {beforeInit : ModuleId → Program Ctx (Except Error Unit)}

/-- User code that runs for the load, the hook or the constructors. -/
theorem User.Followed.afterHook (followed : user.Followed) (point : UserPoint) :
    World.system.Follows (Mirrors (frames.addInitialising flags load)) (user point)
      (AfterHook frames flags load) := by
  refine (followed point _).weaken (fun _ _ mirrors => mirrors) ?_
  intro result world process mirrors
  cases result with
  | error error => exact mirrors.failing
  | ok _ => exact mirrors

theorem initialise_follows (followed : user.Followed)
    (hook : World.system.Follows (Mirrors (frames.addInitialising flags load))
      (beforeInit load.lease.id) (AfterHook frames flags load)) :
    World.system.Follows (Mirrors (frames.addInitialising flags load))
      (initialise user beforeInit flags load) fun result => Mirrors (frames.afterOpen result) := by
  refine hook.bind fun accepted => ?_
  cases accepted with
  | error error =>
      exact (rollbackPublished_follows error).bind fun _ => .pure _ fun _ _ mirrors => mirrors
  | ok _ =>
      refine (followed.afterHook (.constructors load.modules)).bind fun constructed => ?_
      cases constructed with
      | error error =>
          exact (rollbackPublished_follows error).bind fun _ => .pure _ fun _ _ mirrors => mirrors
      | ok _ => exact openLoad_follows.bind fun _ => .pure _ fun _ _ mirrors => mirrors

/-- The step of the hook rolls the load back itself when the hook fails. -/
theorem startupState_follows (rtld : Option (LinkMapAddress × Nat))
    (flags : OpenFlags) (load : LoadResult) :
    World.system.Follows (Mirrors (frames.addInitialising flags load))
      (withManager fun manager => manager.startupState load.lease.id rtld)
      fun result => AfterHook frames flags load (result.map fun _ => ()) := by
  refine withManager_follows ?_
  intro world process final result next mirrors accepted leaves
  have present := mirrors.initialising_head
  rw [← mirrors.manager] at accepted
  have after := mirrors.leaves leaves
  cases result with
  | ok state =>
      have hooked : World.system.step world (.startupHook 0 rtld)
          { world with manager := next } := by
        simp only [World.system, World.act, present, Option.bind_eq_bind, Option.bind_some,
          World.startupHookAt, accepted]
        rfl
      exact .step hooked (.now after)
  | error error =>
      have hooked : World.system.step world (.startupHook 0 rtld)
          (World.abandon { world with manager := next } 0 load) := by
        simp only [World.system, World.act, present, Option.bind_eq_bind, Option.bind_some,
          World.startupHookAt, accepted]
        rfl
      refine .now fun last rolled => .step hooked ?_
      rw [leaves.manager] at rolled
      have ended := after.leaves rolled
      exact .now { ended with initialising := mirrors.initialising_tail }

variable [ImageLoader Ctx]

theorem openWith_follows (followed : user.Followed)
    (hook : ∀ flags load, World.system.Follows (Mirrors (frames.addInitialising flags load))
      (beforeInit load.lease.id) (AfterHook frames flags load))
    (bindNow : Bool) (request : String) (requested : OpenFlags) (root : LinkRoot Ctx)
    (caller : Option Nat) :
    World.system.Follows (Mirrors frames)
      (openWith user beforeInit bindNow request requested root caller)
      fun result => Mirrors (frames.afterOpen result) := by
  refine (beginOpen_follows frames bindNow request requested root caller).bind fun stage => ?_
  cases stage with
  | finished result => exact .pure _ fun _ _ mirrors => mirrors
  | published flags load => exact initialise_follows followed (hook flags load)

theorem open_follows (followed : user.Followed) (bindNow : Bool) (request : String)
    (flags : OpenFlags) (root : LinkRoot Ctx) (caller : Option Nat) :
    World.system.Follows (Mirrors frames) (open_ user bindNow request flags root caller)
      fun result => Mirrors (frames.afterOpen result) := by
  refine openWith_follows followed ?_ bindNow request flags root caller
  intro flags load world process answer final mirrors ran
  cases ran
  exact .now mirrors

end Initialise

end DynLinker.Registry
