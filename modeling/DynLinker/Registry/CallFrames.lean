import DynLinker.Lib.Simulation
import DynLinker.Registry.OwnedImages

/-! The registry that the offered functions leave behind is one that the step relation
reaches. Calls in progress hold values that no field of the process keeps: these are their
frames, and a process mirrors a world up to them. -/

set_option autoImplicit false

namespace DynLinker.Registry

open Lib Loader ElfLoader ImageLoader

/-- What the calls in progress hold, the innermost first. `running` are the thread
destructors that were taken to be run. -/
structure CallFrames (Ctx : Type) [ElfLoader Ctx] where
  preparing : List (OpenFlags × Pending Ctx)
  initialising : List (OpenFlags × LoadResult)
  opened : List OpenedLibrary
  iterations : List (List LibrarySnapshot)
  running : List ThreadDestructor

namespace CallFrames

variable {Ctx : Type} [ElfLoader Ctx]

def none : CallFrames Ctx := ⟨[], [], [], [], []⟩

def addOpened (frames : CallFrames Ctx) (opened : OpenedLibrary) : CallFrames Ctx :=
  { frames with opened := opened :: frames.opened }

def addInitialising (frames : CallFrames Ctx) (flags : OpenFlags) (load : LoadResult) :
    CallFrames Ctx :=
  { frames with initialising := (flags, load) :: frames.initialising }

def addIteration (frames : CallFrames Ctx) (snapshots : List LibrarySnapshot) :
    CallFrames Ctx :=
  { frames with iterations := snapshots :: frames.iterations }

def addRunning (frames : CallFrames Ctx) (destructor : ThreadDestructor) : CallFrames Ctx :=
  { frames with running := destructor :: frames.running }

/-- A library that was found is on its way to the caller. -/
def afterFind (frames : CallFrames Ctx) : Option OpenedLibrary → CallFrames Ctx
  | some opened => frames.addOpened opened
  | .none => frames

def afterOpen (frames : CallFrames Ctx) : Except Error OpenedLibrary → CallFrames Ctx
  | .ok opened => frames.addOpened opened
  | .error _ => frames

def atStage (frames : CallFrames Ctx) : OpenStage → CallFrames Ctx
  | .finished result => frames.afterOpen result
  | .published flags load => frames.addInitialising flags load

end CallFrames

variable {Ctx : Type} [ElfLoader Ctx]

/-- The world has the registry, the libraries and the thread destructors of the process,
and in progress what the frames hold. -/
structure Mirrors (frames : CallFrames Ctx) (world : World Ctx) (process : Process Ctx) :
    Prop where
  manager : world.manager = process.manager
  libraries : world.libraries = process.2.libraries
  destructors : world.destructors.Perm (process.2.destructors ++ frames.running)
  preparing : world.preparing = frames.preparing
  initialising : world.initialising = frames.initialising
  opened : world.opened = frames.opened
  iterations : world.iterations = frames.iterations

/-- From `before` to `after` nothing that a world mirrors has changed but the registry. -/
structure Leaves (next : Manager Ctx) (before after : Process Ctx) : Prop where
  manager : after.manager = next
  libraries : after.2.libraries = before.2.libraries
  destructors : after.2.destructors = before.2.destructors

namespace Leaves

variable {first second : Manager Ctx} {before middle after : Process Ctx}

omit [ElfLoader Ctx] in
theorem refl (process : Process Ctx) : Leaves process.1.value process process :=
  ⟨rfl, rfl, rfl⟩

omit [ElfLoader Ctx] in
theorem trans (early : Leaves first before middle) (late : Leaves second middle after) :
    Leaves second before after :=
  ⟨late.manager, late.libraries.trans early.libraries,
    late.destructors.trans early.destructors⟩

end Leaves

theorem Mirrors.leaves {frames : CallFrames Ctx} {world : World Ctx} {next : Manager Ctx}
    {before after : Process Ctx} (mirrors : Mirrors frames world before)
    (leaves : Leaves next before after) :
    Mirrors frames { world with manager := next } after where
  manager := leaves.manager.symm
  libraries := mirrors.libraries.trans leaves.libraries.symm
  destructors := leaves.destructors ▸ mirrors.destructors
  preparing := mirrors.preparing
  initialising := mirrors.initialising
  opened := mirrors.opened
  iterations := mirrors.iterations

theorem Mirrors.unchanged {frames : CallFrames Ctx} {world : World Ctx}
    {before after : Process Ctx} (mirrors : Mirrors frames world before)
    (leaves : Leaves before.manager before after) : Mirrors frames world after := by
  have same := mirrors.leaves leaves
  rw [← mirrors.manager] at same
  exact same

/-- The program has looked at what surrounds the registry. -/
structure Seen (frames : CallFrames Ctx) (around : Surroundings) (world : World Ctx)
    (process : Process Ctx) : Prop where
  mirrors : Mirrors frames world process
  same : process.2 = around

/-! ## The rules for one borrow -/

section Borrows

variable {Answer : Type}

omit [ElfLoader Ctx] in
theorem run_withManager {method : Manager Ctx → Except Panic (Answer × Manager Ctx)}
    {before after : Process Ctx} {answer : Answer}
    (ran : withManager method before = .ok (answer, after)) :
    ∃ next, method before.manager = .ok (answer, next) ∧ Leaves next before after := by
  obtain ⟨cell, around⟩ := before
  obtain ⟨_, value, middle, next, body, rfl⟩ := CellM.run_borrowMut.mp ran
  obtain ⟨accepted, same⟩ := run_panicking.mp body
  cases same
  exact ⟨value, accepted, rfl, rfl, rfl⟩

theorem withManager_follows {before : World Ctx → Process Ctx → Prop}
    {after : Answer → World Ctx → Process Ctx → Prop}
    {method : Manager Ctx → Except Panic (Answer × Manager Ctx)}
    (matched : ∀ world process final answer next, before world process →
      method process.manager = .ok (answer, next) → Leaves next process final →
      World.system.Later (after answer) world final) :
    World.system.Follows before (withManager method) after := by
  intro world process answer final related ran
  obtain ⟨next, accepted, leaves⟩ := run_withManager ran
  exact matched world process final answer next related accepted leaves

/-- A method that gives the registry back as it was. -/
theorem lookup_follows {frames : CallFrames Ctx} (method : Manager Ctx → Answer) :
    World.system.Follows (Mirrors frames)
      (withManager fun manager => .ok (method manager, manager)) fun _ => Mirrors frames := by
  refine withManager_follows ?_
  intro world process final answer next mirrors accepted leaves
  cases accepted
  exact .now (mirrors.unchanged leaves)

theorem readManager_follows {frames : CallFrames Ctx} (method : Manager Ctx → Answer) :
    World.system.Follows (Mirrors frames) (readManager method) fun _ => Mirrors frames := by
  refine .stays ?_
  intro world process answer final mirrors ran
  obtain ⟨cell, around⟩ := process
  rw [readManager, CellM.borrow] at ran
  cases shared : cell.state.share with
  | none => simp [shared] at ran
  | some reading =>
      simp only [shared, bind_eq_ok] at ran
      obtain ⟨_, body, returned⟩ := ran
      cases body
      cases returned
      exact mirrors.unchanged ⟨rfl, rfl, rfl⟩

theorem panicking_follows {frames : CallFrames Ctx} (result : Except Panic Answer) :
    World.system.Follows (Mirrors frames) (panicking result : Program Ctx Answer)
      fun _ => Mirrors frames := by
  refine .stays ?_
  intro world process answer final mirrors ran
  obtain ⟨_, rfl⟩ := run_panicking.mp ran
  exact mirrors

theorem surroundings_follows {frames : CallFrames Ctx} :
    World.system.Follows (Mirrors frames) (surroundings : Program Ctx Surroundings)
      (Seen frames) := by
  intro world process answer final mirrors ran
  obtain ⟨next, changed, rfl⟩ := CellM.run_surroundings.mp ran
  cases changed
  exact .now ⟨mirrors, rfl⟩

theorem Seen.forget {frames : CallFrames Ctx} {around : Surroundings}
    {program : Program Ctx Answer} {after : Answer → World Ctx → Process Ctx → Prop}
    (followed : World.system.Follows (Mirrors frames) program after) :
    World.system.Follows (Seen frames around) program after :=
  followed.weaken (fun _ _ seen => seen.mirrors) fun _ _ _ holds => holds

theorem modifySurroundings_follows {before : World Ctx → Process Ctx → Prop}
    {after : Unit → World Ctx → Process Ctx → Prop} {change : Surroundings → Surroundings}
    (matched : ∀ world process, before world process →
      World.system.Later (after ()) world (process.1, change process.2)) :
    World.system.Follows before (modifySurroundings change : Program Ctx Unit) after := by
  intro world process answer final related ran
  obtain ⟨next, changed, rfl⟩ := CellM.run_surroundings.mp ran
  cases changed
  exact matched world process related

/-- What the process remembers besides what a world mirrors. -/
theorem remember_follows {frames : CallFrames Ctx} {change : Surroundings → Surroundings}
    (libraries : ∀ around, (change around).libraries = around.libraries)
    (destructors : ∀ around, (change around).destructors = around.destructors) :
    World.system.Follows (Mirrors frames) (modifySurroundings change : Program Ctx Unit)
      fun _ => Mirrors frames :=
  modifySurroundings_follows fun _ process mirrors =>
    .now (mirrors.unchanged ⟨rfl, libraries process.2, destructors process.2⟩)

omit [ElfLoader Ctx] in
theorem debugActions_leaves {actions : List Debug.DebugAction} {before after : Process Ctx}
    {answer : Unit} (ran : debugActions actions before = .ok (answer, after)) :
    Leaves before.manager before after := by
  obtain ⟨cell, around⟩ := before
  obtain ⟨debug, _, rfl⟩ := run_debugActions ran
  exact ⟨rfl, rfl, rfl⟩

theorem dropImages_follows {frames : CallFrames Ctx} (maps : List LinkMapAddress) :
    World.system.Follows (Mirrors frames) (dropImages maps : Program Ctx Unit)
      fun _ => Mirrors frames :=
  .stays fun _ _ _ _ mirrors ran => mirrors.unchanged (debugActions_leaves ran)

end Borrows

/-! ## User code and drops -/

/-- User code that the system follows, whatever calls are in progress around it. -/
def User.Followed (user : User Ctx) : Prop :=
  ∀ point frames, World.system.Follows (Mirrors frames) (user point) fun _ => Mirrors frames

section Drops

variable {user : User Ctx} {frames : CallFrames Ctx}

theorem dropGroup_follows (followed : user.Followed) (group : UnloadGroup) :
    World.system.Follows (Mirrors frames) (dropGroup user group) fun _ => Mirrors frames :=
  (followed _ frames).bind fun _ => dropImages_follows group.maps

/-- The system matches the release of the lease; the finalizers run after it. -/
theorem dropLease_follows (followed : user.Followed) {before : World Ctx → Process Ctx → Prop}
    {lease : ModuleLease}
    (matched : ∀ world process final next, before world process →
      process.manager.dropLease lease = .ok next → Leaves next process final →
      World.system.Later (Mirrors frames) world final) :
    World.system.Follows before (dropLease user lease) fun _ => Mirrors frames := by
  cases live : lease.inner with
  | none =>
      intro world process answer final related ran
      rw [dropLease, live] at ran
      cases ran
      refine matched world process process process.manager related ?_ (.refl process)
      rw [Manager.dropLease, live]
  | some inner =>
      have released : World.system.Follows before
          (withManager fun manager => manager.releaseGroup inner) fun _ => Mirrors frames := by
        refine withManager_follows ?_
        intro world process final group next related accepted leaves
        obtain ⟨⟨unloaded, released⟩, releasing, returned⟩ := bind_eq_ok.mp accepted
        cases returned
        refine matched world process final _ related ?_ leaves
        rw [Manager.dropLease, live]
        exact bind_eq_ok.mpr ⟨_, releasing, rfl⟩
      rw [dropLease, live]
      exact released.bind (dropGroup_follows followed)

theorem dropLeaseOption_follows (followed : user.Followed)
    {before : World Ctx → Process Ctx → Prop} {lease : Option ModuleLease}
    (matched : ∀ world process final next, before world process →
      process.manager.dropLeaseOption lease = .ok next → Leaves next process final →
      World.system.Later (Mirrors frames) world final) :
    World.system.Follows before (dropLeaseOption user lease) fun _ => Mirrors frames := by
  cases lease with
  | none =>
      intro world process answer final related ran
      cases ran
      exact matched world process process process.manager related rfl (.refl process)
  | some lease => exact dropLease_follows followed matched

end Drops

end DynLinker.Registry
