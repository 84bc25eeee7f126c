import DynLinker.Registry.LeaseConservation
import DynLinker.Registry.ProgramRuns

/-! No program leaks a lease. What is out is held by the handle table, a live library, a
registered thread destructor, or a call in progress, and a call that returns holds
nothing any more. -/

set_option autoImplicit false

namespace DynLinker.Registry

open Lib Loader ElfLoader ImageLoader

variable {Ctx : Type} [ElfLoader Ctx]

/-- What the calls in progress hold. -/
def CallFrames.leases (frames : CallFrames Ctx) : Multiset ModuleLease :=
  holdings (fun opened => {opened.lease}) frames.opened +
    holdings (fun snapshots => holdings (fun snapshot => {snapshot.lease}) snapshots)
      frames.iterations +
    holdings ThreadDestructor.leases frames.running +
    holdings (fun opening => {ModuleLease.new opening.2.lease}) frames.initialising

namespace Process

/-- What is held between calls. -/
def leases (process : Process Ctx) : Multiset ModuleLease :=
  mapHoldings HandleState.leases process.manager.handles +
    holdings (fun library => {library.opened.lease}) process.2.libraries +
    holdings ThreadDestructor.leases process.2.destructors

/-- Every lease that is out is held once, and none was given back twice. -/
structure Balanced (frames : CallFrames Ctx) (process : Process Ctx) : Prop where
  accounted : process.view.Accounted
  held : process.leases + frames.leases =
    (process.view.outstanding.map ModuleLease.new : Multiset ModuleLease)

end Process

/-- The world of a process and the calls in progress. -/
def World.ofProcess (frames : CallFrames Ctx) (process : Process Ctx) : World Ctx where
  manager := process.manager
  preparing := frames.preparing
  initialising := frames.initialising
  opened := frames.opened
  libraries := process.2.libraries
  iterations := frames.iterations
  destructors := process.2.destructors ++ frames.running
  opens _ := 0
  closes _ := 0

theorem mirrors_ofProcess (frames : CallFrames Ctx) (process : Process Ctx) :
    Mirrors frames (.ofProcess frames process) process :=
  ⟨rfl, rfl, .refl _, rfl, rfl, rfl, rfl⟩

theorem Mirrors.leases {frames : CallFrames Ctx} {world : World Ctx} {process : Process Ctx}
    (mirrors : Mirrors frames world process) :
    world.leases = process.leases + frames.leases := by
  have destructors : world.destructorLeases = holdings ThreadDestructor.leases
      process.2.destructors + holdings ThreadDestructor.leases frames.running := by
    rw [← holdings_append]
    exact (mirrors.destructors.map _).sum_eq
  rw [World.leases, destructors, World.tableLeases, World.libraryLeases, World.snapshotLeases,
    World.openingLeases, mirrors.manager, mirrors.libraries, mirrors.initialising,
    mirrors.opened, mirrors.iterations, Process.leases, CallFrames.leases]
  abel

theorem Mirrors.balanced_iff {frames : CallFrames Ctx} {world : World Ctx}
    {process : Process Ctx} (mirrors : Mirrors frames world process) :
    process.Balanced frames ↔ Conserved world := by
  have view : world.view = process.view := congrArg Manager.view mirrors.manager
  constructor
  · intro balanced
    exact ⟨view ▸ balanced.accounted, by rw [mirrors.leases, balanced.held, view]⟩
  · intro conserved
    exact ⟨view ▸ conserved.accounted, by rw [← mirrors.leases, conserved.held, view]⟩

variable [LawfulElfLoader Ctx]

theorem Process.Balanced.start (around : Surroundings) (libraries : around.libraries = [])
    (destructors : around.destructors = []) :
    Process.Balanced .none ((⟨.new, .unused⟩, around) : Process Ctx) := by
  have fresh : Mirrors .none (World.new : World Ctx) (⟨.new, .unused⟩, around) :=
    ⟨rfl, libraries.symm, by rw [destructors]; exact .refl _, rfl, rfl, rfl, rfl⟩
  exact fresh.balanced_iff.mpr conserved_new

omit [LawfulElfLoader Ctx] in
theorem Process.Balanced.counted {frames : CallFrames Ctx} {process : Process Ctx}
    (balanced : process.Balanced frames) (id : ModuleId) :
    process.view.outstanding.countP (fun lease => lease.id = id) =
      leasesOn id process.leases + leasesOn id frames.leases := by
  rw [leasesOn, leasesOn, ← Multiset.countP_add, balanced.held, Multiset.coe_countP,
    List.countP_map]
  apply List.countP_congr
  intro lease _
  simp [ModuleLease.names, ModuleLease.new]

/-- Whatever user code does, when it ends the leases that are out are those that the handle
table, libraries, thread destructors and the calls around it hold; each is held once, none
was given back twice, and each can be given back. -/
theorem user_code_leaks_no_lease [ImageLoader Ctx] (program : Program Ctx (Except Error Unit))
    (code : UserCode program) (frames : CallFrames Ctx) (process after : Process Ctx)
    (result : Except Error Unit) (balanced : process.Balanced frames)
    (ran : program process = .ok (result, after)) :
    after.Balanced frames ∧
      (∀ id, after.view.outstanding.countP (fun lease => lease.id = id) =
        leasesOn id after.leases + leasesOn id frames.leases) ∧
      ∀ lease ∈ after.leases + frames.leases, ∃ inner next, lease = .new inner ∧
        inner ∉ after.view.released ∧ after.manager.dropLease lease = .ok next ∧
        next.view.released = inner :: after.view.released := by
  have started := mirrors_ofProcess frames process
  have conserved : Conserved (World.ofProcess frames process) := started.balanced_iff.mp balanced
  obtain ⟨actions, next, run, mirrors⟩ :=
    code.follows frames _ process result after started ran
  have ended : Conserved next := run.preserves conserved_inductive.preserved conserved
  have kept := mirrors.balanced_iff.mpr ended
  refine ⟨kept, kept.counted, ?_⟩
  intro lease held
  rw [← mirrors.leases] at held
  have drops := ended.drop_releases held
  rw [World.view, mirrors.manager] at drops
  exact drops

/-- A program that opens two libraries and closes them again holds nothing at its end. -/
theorem user_code_leaks_no_lease_nested :
    ∃ result after, nestedCalls Process.start = .ok (result, after) ∧
      Process.Balanced .none after ∧ (Process.view after).outstanding = [] := by
  have code : UserCode nestedCalls :=
    .call _ nestingUser _ nestingUser_code (.call _ nestingUser _ nestingUser_code (.finish _))
  have evaluated : (nestedCalls Process.start).toOption.map (fun (_, after) =>
      (Process.view after).outstanding) = some [] := by
    decide +kernel
  obtain ⟨⟨result, after⟩, ran, empty⟩ := Option.map_eq_some_iff.mp evaluated
  rw [toOption_eq_some_iff] at ran
  obtain ⟨balanced, _⟩ := user_code_leaks_no_lease nestedCalls code .none Process.start after
    result (Process.Balanced.start _ rfl rfl) ran
  exact ⟨result, after, ran, balanced, empty⟩

end DynLinker.Registry
