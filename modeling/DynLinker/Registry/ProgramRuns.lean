import DynLinker.Registry.OpenRuns
import DynLinker.Registry.Reentry

/-! Every program that is built from calls of the linker is followed by the step relation
of the registry, at every depth of re-entry. Each offered function has its steps, and user
code runs between them. -/

set_option autoImplicit false

namespace DynLinker.Registry

open Lib Loader ElfLoader ImageLoader

variable {Ctx : Type} [ElfLoader Ctx] {user : User Ctx} {frames : CallFrames Ctx}

/-! ## Libraries on their way to a caller -/

section Opened

variable {opened : OpenedLibrary} {world : World Ctx} {process : Process Ctx}

theorem Mirrors.opened_head (mirrors : Mirrors (frames.addOpened opened) world process) :
    world.opened[0]? = some opened := by
  rw [mirrors.opened]
  rfl

theorem Mirrors.opened_tail (mirrors : Mirrors (frames.addOpened opened) world process) :
    world.opened.eraseIdx 0 = frames.opened := by
  rw [mirrors.opened]
  rfl

theorem openMain_follows :
    World.system.Follows (Mirrors frames) (openMain : Program Ctx OpenedLibrary)
      fun opened => Mirrors (frames.addOpened opened) := by
  refine withManager_follows ?_
  intro world process final opened next mirrors accepted leaves
  rw [← mirrors.manager] at accepted
  have found : World.system.step world .openMain (world.addOpened opened next) :=
    congrArg some (bind_eq_ok.mpr ⟨_, accepted, rfl⟩)
  have after := mirrors.leaves leaves
  exact .step found (.now { after with opened := congrArg (opened :: ·) mirrors.opened })

theorem libraryByAddr_follows (addr : Nat) :
    World.system.Follows (Mirrors frames) (libraryByAddr addr : Program Ctx _)
      fun found => Mirrors (frames.afterFind found) := by
  refine withManager_follows ?_
  intro world process final found next mirrors accepted leaves
  rw [← mirrors.manager] at accepted
  have after := mirrors.leaves leaves
  cases looked : world.manager.libraryByAddr addr with
  | none =>
      simp only [looked] at accepted
      cases accepted
      exact .now (mirrors.unchanged (mirrors.manager ▸ leaves))
  | some result =>
      obtain ⟨opened, manager⟩ := result
      simp only [looked] at accepted
      cases accepted
      have stepped : World.system.step world (.libraryByAddr addr)
          (world.addOpened opened next) := by
        simp only [World.system, World.act, looked]
      exact .step stepped (.now { after with opened := congrArg (opened :: ·) mirrors.opened })

theorem dropOpened_follows (followed : user.Followed) (opened : OpenedLibrary) :
    World.system.Follows (Mirrors (frames.addOpened opened)) (dropLease user opened.lease)
      fun _ => Mirrors frames := by
  refine dropLease_follows followed ?_
  intro world process final next mirrors accepted leaves
  have present := mirrors.opened_head
  rw [← mirrors.manager] at accepted
  have dropped : World.system.step world (.dropOpened 0)
      { world with manager := next, opened := world.opened.eraseIdx 0 } := by
    simp only [World.system, World.act, present, Option.bind_eq_bind, Option.bind_some, accepted]
    rfl
  have after := mirrors.leaves leaves
  exact .step dropped (.now { after with opened := mirrors.opened_tail })

theorem registerHandle_follows (opened : OpenedLibrary) :
    World.system.Follows (Mirrors (frames.addOpened opened))
      (registerHandle opened : Program Ctx Nat) fun _ => Mirrors frames := by
  refine withManager_follows ?_
  intro world process final handle next mirrors accepted leaves
  have present := mirrors.opened_head
  rw [← mirrors.manager] at accepted
  have registered : World.system.step world (.registerHandle 0) { world with
      manager := next
      opened := world.opened.eraseIdx 0
      opens := Function.update world.opens handle (world.opens handle + 1) } := by
    simp only [World.system, World.act, present, Option.bind_eq_bind, Option.bind_some,
      World.registerHandleAt, accepted]
    rfl
  have after := mirrors.leaves leaves
  exact .step registered (.now { after with opened := mirrors.opened_tail })

theorem keepLibrary_follows (opened : OpenedLibrary) :
    World.system.Follows (Mirrors (frames.addOpened opened))
      (keepLibrary opened : Program Ctx Unit) fun _ => Mirrors frames := by
  refine modifySurroundings_follows ?_
  intro world process mirrors
  have present := mirrors.opened_head
  have kept : World.system.step world (.intoElfLibrary 0) { world with
      opened := world.opened.eraseIdx 0
      libraries := ⟨opened, 0⟩ :: world.libraries } := by
    simp only [World.system, World.act, present, Option.bind_eq_bind, Option.bind_some]
    rfl
  exact .step kept (.now { mirrors with
    libraries := congrArg ((⟨opened, 0⟩ : ElfLibrary) :: ·) mirrors.libraries
    opened := mirrors.opened_tail })

end Opened

/-! ## The C functions -/

section Functions

theorem dladdr_follows (followed : user.Followed) (addr : Nat) :
    World.system.Follows (Mirrors frames) (dladdr user addr) fun _ => Mirrors frames := by
  refine (libraryByAddr_follows addr).bind fun found => ?_
  cases found with
  | none => exact .pure _ fun _ _ mirrors => mirrors
  | some opened =>
      exact (dropOpened_follows followed opened).bind fun _ => .pure _ fun _ _ mirrors => mirrors

theorem dladdrLibrary_follows (addr : Nat) :
    World.system.Follows (Mirrors frames) (dladdrLibrary addr : Program Ctx Unit)
      fun _ => Mirrors frames := by
  refine (libraryByAddr_follows addr).bind fun found => ?_
  cases found with
  | none => exact .pure _ fun _ _ mirrors => mirrors
  | some opened => exact keepLibrary_follows opened

theorem thisLibrary_follows :
    World.system.Follows (Mirrors frames) (thisLibrary : Program Ctx Unit)
      fun _ => Mirrors frames :=
  openMain_follows.bind keepLibrary_follows

theorem dlsym_follows (query : SymbolQuery) :
    World.system.Follows (Mirrors frames) (dlsym query : Program Ctx (Option Nat))
      fun _ => Mirrors frames := by
  cases query with
  | default name => exact readManager_follows _
  | next caller name => exact lookup_follows _
  | handle handle name => exact readManager_follows _

theorem libraryFlags_follows (index : Nat) :
    World.system.Follows (Mirrors frames) (libraryFlags index : Program Ctx OpenFlags)
      fun _ => Mirrors frames := by
  refine surroundings_follows.bind fun around => Seen.forget ?_
  split
  · exact .pure _ fun _ _ mirrors => mirrors
  · exact (panicking_follows _).bind fun _ => (readManager_follows _).bind fun _ =>
      .pure _ fun _ _ mirrors => mirrors

theorem dropRemoved_same {entry : HandleState} {before after : Process Ctx} {answer : Unit}
    (ran : dropRemoved user entry before = .ok (answer, after)) : after = before := by
  rw [dropRemoved] at ran
  split at ran
  · next gone =>
      rw [HandleState.extraLeases_of_pop gone] at ran
      cases ran
      rfl
  · cases ran
    rfl

theorem intoInner_same {lease : ModuleLease} {inner : NativeModuleLease}
    {before after : Process Ctx} (ran : intoInner user lease before = .ok (inner, after)) :
    lease.intoInner = .ok (inner, ⟨none⟩) ∧ after = before := by
  obtain ⟨⟨found, emptied⟩, middle, taking, ran⟩ := CellM.run_bind.mp ran
  obtain ⟨taken, rfl⟩ := run_panicking.mp taking
  have empty : emptied = ⟨none⟩ := by
    obtain ⟨_, _, returned⟩ := bind_eq_ok.mp taken
    cases returned
    rfl
  subst empty
  obtain ⟨_, last, dropping, returned⟩ := CellM.run_bind.mp ran
  cases dropping
  cases returned
  exact ⟨taken, rfl⟩

/-- What is dropped under the borrow of `release_handle` is empty. -/
theorem takeHandle_releases {handle : Nat} {before after : Process Ctx}
    {manager next : Manager Ctx} {unloaded : Option UnloadGroup}
    (ran : takeHandle user handle manager before = .ok ((unloaded, next), after)) :
    after = before ∧ manager.releaseHandle handle = .ok (unloaded.map (·.modules), next) := by
  rw [takeHandle] at ran
  rw [Manager.releaseHandle]
  cases found : manager.handles.lookup handle with
  | none =>
      simp only [found] at ran
      cases ran
      exact ⟨rfl, rfl⟩
  | some state =>
      simp only [found] at ran
      obtain ⟨_, first, removing, emptied⟩ := CellM.run_bind.mp ran
      obtain ⟨inner, second, taking, left⟩ := CellM.run_bind.mp emptied
      obtain ⟨⟨group, released⟩, third, releasing, returned⟩ := CellM.run_bind.mp left
      obtain ⟨taken, same⟩ := intoInner_same taking
      obtain ⟨accepted, kept⟩ := run_panicking.mp releasing
      obtain ⟨⟨modules, ctx⟩, gone, grouped⟩ := bind_eq_ok.mp accepted
      cases grouped
      cases returned
      refine ⟨kept.trans (same.trans (dropRemoved_same removing)), ?_⟩
      simp only [taken, ok_bind, gone]
      rfl

theorem takeHandle_follows {handle : Nat} (nonnull : handle ≠ 0) :
    World.system.Follows (Mirrors frames) (CellM.borrowMut (takeHandle user handle))
      fun _ => Mirrors frames := by
  intro world process unloaded final mirrors ran
  obtain ⟨cell, around⟩ := process
  obtain ⟨_, value, middle, next, body, rfl⟩ := CellM.run_borrowMut.mp ran
  obtain ⟨same, accepted⟩ := takeHandle_releases body
  cases same
  have leaves : Leaves value (cell, around) (⟨value, .unused⟩, around) := ⟨rfl, rfl, rfl⟩
  change cell.value.releaseHandle handle = _ at accepted
  cases unloaded with
  | none =>
      obtain ⟨_, rfl⟩ := Manager.releaseHandle_none accepted
      exact .now (mirrors.unchanged leaves)
  | some group =>
      have manager : world.manager = cell.value := mirrors.manager
      have closed : World.system.step world (.dlclose handle) { world with
          manager := value
          closes := Function.update world.closes handle (world.closes handle + 1) } := by
        simp only [World.system, World.act, World.dlcloseAt, if_neg nonnull, manager, accepted]
        rfl
      have after := mirrors.leaves leaves
      exact .step closed (.now { after with })

theorem dlclose_follows (followed : user.Followed) (handle : Nat) :
    World.system.Follows (Mirrors frames) (dlclose user handle) fun _ => Mirrors frames := by
  rw [dlclose]
  split
  · exact .pure _ fun _ _ mirrors => mirrors
  · next nonnull =>
      refine (takeHandle_follows nonnull).bind fun unloaded => ?_
      cases unloaded with
      | none => exact .pure _ fun _ _ mirrors => mirrors
      | some group =>
          exact (dropGroup_follows followed group).bind fun _ =>
            .pure _ fun _ _ mirrors => mirrors

theorem registerLoaded_follows (lib : LoadedDylib) (flags : OpenFlags) :
    World.system.Follows (Mirrors frames) (registerLoaded lib flags : Program Ctx Unit)
      fun _ => Mirrors frames := by
  refine withManager_follows ?_
  intro world process final answer next mirrors accepted leaves
  obtain ⟨manager, registering, returned⟩ := bind_eq_ok.mp accepted
  cases returned
  rw [← mirrors.manager] at registering
  have registered : World.system.step world (.registerLoaded lib flags)
      { world with manager := next } :=
    congrArg some (bind_eq_ok.mpr ⟨_, registering, rfl⟩)
  exact .step registered (.now (mirrors.leaves leaves))

theorem registerInitialAliases_follows :
    World.system.Follows (Mirrors frames) (registerInitialAliases : Program Ctx Unit)
      fun _ => Mirrors frames := by
  refine withManager_follows ?_
  intro world process final answer next mirrors accepted leaves
  obtain ⟨manager, adding, returned⟩ := bind_eq_ok.mp accepted
  cases returned
  rw [← mirrors.manager] at adding
  have added : World.system.step world .registerInitialAliases { world with manager := next } :=
    congrArg some (bind_eq_ok.mpr ⟨_, adding, rfl⟩)
  exact .step added (.now (mirrors.leaves leaves))

theorem finalizeModules_follows (followed : user.Followed) (handles : List ModuleHandle) :
    World.system.Follows (Mirrors frames) (finalizeModules user handles)
      fun _ => Mirrors frames := by
  induction handles with
  | nil => exact .pure _ fun _ _ mirrors => mirrors
  | cons handle rest ih => exact (followed _ _).bind fun _ => ih

theorem finalizeStartup_follows (followed : user.Followed) :
    World.system.Follows (Mirrors frames) (finalizeStartup user) fun _ => Mirrors frames := by
  refine surroundings_follows.bind fun around => Seen.forget ?_
  refine .through (fun _ => Mirrors frames)
    (remember_follows (fun _ => rfl) fun _ => rfl) fun _ => ?_
  split
  · exact .pure _ fun _ _ mirrors => mirrors
  · refine (lookup_follows _).bind fun scope => ?_
    cases scope with
    | none => exact .pure _ fun _ _ mirrors => mirrors
    | some scope => exact finalizeModules_follows followed scope

end Functions

/-! ## Walks -/

section Walks

theorem visitSnapshots_follows (followed : user.Followed) (tlsDataPtr : Nat → Nat)
    (adds subs : Nat) (snapshots : List LibrarySnapshot) :
    World.system.Follows (Mirrors frames) (visitSnapshots user tlsDataPtr adds subs snapshots)
      fun _ => Mirrors frames := by
  induction snapshots with
  | nil => exact .pure _ fun _ _ mirrors => mirrors
  | cons snapshot rest ih =>
      refine (panicking_follows _).bind fun info => ?_
      cases info with
      | none => exact ih
      | some info =>
          refine (followed _ _).bind fun continued => ?_
          cases continued with
          | error error => exact .pure _ fun _ _ mirrors => mirrors
          | ok _ => exact ih

/-- The leases of a walk are dropped one by one, and then the walk has ended. -/
theorem dropSnapshots_follows (followed : user.Followed) (snapshots : List LibrarySnapshot) :
    World.system.Follows (Mirrors (frames.addIteration snapshots))
      (dropLeases user (snapshots.map (·.lease))) fun _ => Mirrors frames := by
  induction snapshots with
  | nil =>
      intro world process answer final mirrors ran
      cases ran
      have present : world.iterations = [] :: frames.iterations := mirrors.iterations
      have ended : World.system.step world (.dropSnapshot 0)
          { world with iterations := frames.iterations } := by
        simp [World.system, World.act, present]
      exact .step ended (.now { mirrors with iterations := rfl })
  | cons snapshot rest ih =>
      have dropped : World.system.Follows (Mirrors (frames.addIteration (snapshot :: rest)))
          (dropLease user snapshot.lease) fun _ => Mirrors (frames.addIteration rest) := by
        refine dropLease_follows followed ?_
        intro world process final next mirrors accepted leaves
        have present : world.iterations = (snapshot :: rest) :: frames.iterations :=
          mirrors.iterations
        rw [← mirrors.manager] at accepted
        have given : World.system.step world (.dropSnapshot 0)
            { world with manager := next, iterations := rest :: frames.iterations } := by
          simp only [World.system, World.act, present, List.getElem?_cons_zero, accepted]
          rfl
        have after := mirrors.leaves leaves
        exact .step given (.now { after with iterations := rfl })
      exact dropped.bind fun _ => ih

theorem forEachPhdr_follows (followed : user.Followed) (tlsDataPtr : Nat → Nat) :
    World.system.Follows (Mirrors frames) (forEachPhdr user tlsDataPtr)
      fun _ => Mirrors frames := by
  refine .through (fun taken => Mirrors (frames.addIteration taken.2.2))
    (withManager_follows ?_) fun taken => ?_
  · intro world process final taken next mirrors accepted leaves
    cases accepted
    rw [← mirrors.manager] at leaves ⊢
    have after := mirrors.leaves leaves
    have walked : World.system.step world .iteratePhdr { world with
        manager := world.manager.librarySnapshot.2
        iterations := world.manager.librarySnapshot.1 :: world.iterations } := rfl
    exact .step walked (.now { after with
      iterations := congrArg (world.manager.librarySnapshot.1 :: ·) mirrors.iterations })
  · exact (visitSnapshots_follows followed _ _ _ _).bind fun _ =>
      (dropSnapshots_follows followed _).bind fun _ => .pure _ fun _ _ mirrors => mirrors

end Walks

/-! ## Libraries and thread destructors -/

section Held

theorem cloneLibrary_follows (index : Nat) :
    World.system.Follows (Mirrors frames) (cloneLibrary index : Program Ctx Unit)
      fun _ => Mirrors frames := by
  refine modifySurroundings_follows ?_
  intro world process mirrors
  cases found : process.2.libraries[index]? with
  | none => exact .now (by simpa only [found] using mirrors)
  | some library =>
      have present := mirrors.libraries ▸ found
      have cloned : World.system.step world (.cloneLibrary index) { world with
          libraries := world.libraries.set index
            { library with clones := library.clones + 1 } } := by
        simp only [World.system, World.act, present, Option.bind_eq_bind, Option.bind_some]
        rfl
      refine .step cloned (.now ?_)
      simp only
      exact { mirrors with libraries := by rw [mirrors.libraries] }

/-- The process gives the library up just before it drops the lease; the step does both. -/
structure Erased (frames : CallFrames Ctx) (index : Nat) (library : ElfLibrary)
    (world : World Ctx) (process : Process Ctx) : Prop where
  present : world.libraries[index]? = some library
  last : library.clones = 0
  mirrors : Mirrors frames { world with libraries := world.libraries.eraseIdx index } process

theorem dropLibrary_follows (followed : user.Followed) (index : Nat) :
    World.system.Follows (Mirrors frames) (dropLibrary user index) fun _ => Mirrors frames := by
  refine surroundings_follows.bind fun around => ?_
  cases found : around.libraries[index]? with
  | none => exact Seen.forget (.pure _ fun _ _ mirrors => mirrors)
  | some library =>
      simp only
      cases shared : library.clones with
      | succ clones =>
          refine modifySurroundings_follows ?_
          intro world process seen
          have present := seen.mirrors.libraries ▸ seen.same ▸ found
          have dropped : World.system.step world (.dropLibrary index) { world with
              libraries := world.libraries.set index { library with clones := clones } } := by
            simp only [World.system, World.act, present, Option.bind_eq_bind, Option.bind_some,
              World.dropLibraryAt, shared]
            rfl
          exact .step dropped (.now { seen.mirrors with
            libraries := by rw [seen.mirrors.libraries] })
      | zero =>
          refine .through (fun _ => Erased frames index library)
            (modifySurroundings_follows ?_) fun _ => dropLease_follows followed ?_
          · intro world process seen
            exact .now ⟨seen.mirrors.libraries ▸ seen.same ▸ found, shared,
              { seen.mirrors with libraries := by rw [seen.mirrors.libraries] }⟩
          · intro world process final next erased accepted leaves
            rw [← erased.mirrors.manager] at accepted
            have dropped : World.system.step world (.dropLibrary index)
                { world with manager := next, libraries := world.libraries.eraseIdx index } := by
              simp only [World.system, World.act, erased.present, Option.bind_eq_bind,
                Option.bind_some, World.dropLibraryAt, erased.last, accepted]
              rfl
            exact .step dropped (.now (erased.mirrors.leaves leaves))

/-- A destructor that is taken to be run is one of those that the world has. -/
theorem dropRunning_follows (followed : user.Followed) (destructor : ThreadDestructor) :
    World.system.Follows (Mirrors (frames.addRunning destructor))
      (dropLeaseOption user destructor.lease) fun _ => Mirrors frames := by
  refine dropLeaseOption_follows followed ?_
  intro world process final next mirrors accepted leaves
  have listed : world.destructors.Perm
      (destructor :: (process.2.destructors ++ frames.running)) :=
    mirrors.destructors.trans List.perm_middle
  obtain ⟨index, bound, found⟩ := List.mem_iff_getElem.mp (listed.mem_iff.mpr List.mem_cons_self)
  have present : world.destructors[index]? = some destructor := by
    rw [List.getElem?_eq_getElem bound, found]
  rw [← mirrors.manager] at accepted
  have dropped : World.system.step world (.dropDestructor index)
      { world with manager := next, destructors := world.destructors.eraseIdx index } := by
    simp only [World.system, World.act, present, Option.bind_eq_bind, Option.bind_some,
      World.dropDestructorAt, accepted]
    rfl
  have left : (world.destructors.eraseIdx index).Perm
      (process.2.destructors ++ frames.running) := by
    have split := List.getElem_cons_eraseIdx_perm bound
    rw [found] at split
    exact (split.trans listed).cons_inv
  have after := mirrors.leaves leaves
  exact .step dropped (.now { after with destructors := leaves.destructors ▸ left })

theorem registerThreadDestructor_follows (followed : user.Followed) (dsoHandle : Nat)
    (accepted : Bool) :
    World.system.Follows (Mirrors frames) (registerThreadDestructor user dsoHandle accepted)
      fun _ => Mirrors frames := by
  refine .through (fun lease => Mirrors (frames.addRunning ⟨lease⟩))
    (withManager_follows ?_) fun lease => ?_
  · intro world process final lease next mirrors answered leaves
    rw [← mirrors.manager] at answered
    cases acquiring : world.manager.acquireModuleByAddr dsoHandle with
    | none =>
        simp only [acquiring] at answered
        cases answered
        have registered : World.system.step world (.registerDestructor dsoHandle)
            { world with destructors := ⟨none⟩ :: world.destructors } := by
          simp only [World.system, World.act, acquiring]
        have after := mirrors.unchanged (mirrors.manager ▸ leaves)
        exact .step registered (.now { after with
          destructors := (after.destructors.cons _).trans List.perm_middle.symm })
    | some acquired =>
        obtain ⟨lease, manager⟩ := acquired
        simp only [acquiring] at answered
        cases answered
        have registered : World.system.step world (.registerDestructor dsoHandle) { world with
            manager := next
            destructors := ⟨some lease⟩ :: world.destructors } := by
          simp only [World.system, World.act, acquiring]
        have after := mirrors.leaves leaves
        exact .step registered (.now { after with
          destructors := (after.destructors.cons _).trans List.perm_middle.symm })
  · split
    · refine modifySurroundings_follows ?_
      intro world process mirrors
      exact .now { mirrors with destructors := mirrors.destructors.trans List.perm_middle }
    · exact dropRunning_follows followed ⟨lease⟩

theorem runThreadDestructor_follows (followed : user.Followed) (index : Nat) :
    World.system.Follows (Mirrors frames) (runThreadDestructor user index)
      fun _ => Mirrors frames := by
  refine surroundings_follows.bind fun around => ?_
  cases found : around.destructors[index]? with
  | none => exact Seen.forget (.pure _ fun _ _ mirrors => mirrors)
  | some destructor =>
      refine .through (fun _ => Mirrors (frames.addRunning destructor))
        (modifySurroundings_follows ?_) fun _ => (followed _ _).bind fun _ =>
          dropRunning_follows followed destructor
      intro world process seen
      obtain ⟨bound, present⟩ := List.getElem?_eq_some_iff.mp (seen.same ▸ found)
      have split := List.getElem_cons_eraseIdx_perm bound
      rw [present] at split
      refine .now { seen.mirrors with destructors := ?_ }
      exact seen.mirrors.destructors.trans
        ((split.symm.append_right _).trans List.perm_middle.symm)

end Held

/-! ## Opens -/

section Opens

variable [ImageLoader Ctx]

theorem dlopen_follows (followed : user.Followed) (bindNow : Bool) (filename : Option String)
    (flags : OpenFlags) (caller : Nat) :
    World.system.Follows (Mirrors frames) (dlopen user bindNow filename flags caller)
      fun _ => Mirrors frames := by
  cases filename with
  | none => exact openMain_follows.bind registerHandle_follows
  | some path =>
      refine (open_follows followed _ _ _ _ _).bind fun result => ?_
      cases result with
      | error error => exact .pure _ fun _ _ mirrors => mirrors
      | ok opened => exact registerHandle_follows opened

theorem openLibrary_follows (followed : user.Followed) (bindNow : Bool) (request : String)
    (flags : OpenFlags) (root : LinkRoot Ctx) (caller : Option Nat) :
    World.system.Follows (Mirrors frames) (openLibrary user bindNow request flags root caller)
      fun _ => Mirrors frames := by
  refine (open_follows followed _ _ _ _ _).bind fun result => ?_
  cases result with
  | error error => exact .pure _ fun _ _ mirrors => mirrors
  | ok opened => exact keepLibrary_follows opened

theorem linkMappedRoot_follows (followed : user.Followed) (bindNow : Bool)
    (request key : String) (raw : Raw Ctx) (flags : OpenFlags)
    (rtld : Option (LinkMapAddress × Nat)) :
    World.system.Follows (Mirrors frames)
      (linkMappedRoot user bindNow request key raw flags rtld) fun _ => Mirrors frames := by
  refine (openWith_follows followed ?_ _ _ _ _ _).bind fun result => ?_
  · intro flags load
    refine (startupState_follows rtld flags load).bind fun state => ?_
    cases state with
    | error error => exact .pure _ fun _ _ failing => failing
    | ok state => exact followed.afterHook _
  · cases result with
    | error error => exact .pure _ fun _ _ mirrors => mirrors
    | ok opened =>
        exact .through (fun _ => Mirrors (frames.addOpened opened))
          (remember_follows (fun _ => rfl) fun _ => rfl) fun _ =>
            dropOpened_follows followed opened

omit [ImageLoader Ctx] in
theorem discard_follows {Answer : Type} {program : Program Ctx Answer}
    (follows : World.system.Follows (Mirrors frames) program fun _ => Mirrors frames) :
    World.system.Follows (Mirrors frames) (discard program) fun _ => Mirrors frames :=
  follows.bind fun _ => .pure () fun _ _ mirrors => mirrors

theorem Api.run_follows (followed : user.Followed) (api : Api Ctx) :
    World.system.Follows (Mirrors frames) (api.run user) fun _ => Mirrors frames := by
  cases api with
  | dlopen bindNow filename flags caller => exact discard_follows (dlopen_follows followed _ _ _ _)
  | dlclose handle => exact discard_follows (dlclose_follows followed _)
  | dlsym query => exact discard_follows (dlsym_follows _)
  | dladdr addr => exact discard_follows (dladdr_follows followed _)
  | dlFindObject addr => exact discard_follows (lookup_follows _)
  | dlIteratePhdr tlsDataPtr => exact discard_follows (forEachPhdr_follows followed _)
  | openLibrary bindNow request flags root caller =>
      exact openLibrary_follows followed _ _ _ _ _
  | thisLibrary => exact thisLibrary_follows
  | dladdrLibrary addr => exact dladdrLibrary_follows _
  | libraryFlags index => exact discard_follows (libraryFlags_follows _)
  | cloneLibrary index => exact cloneLibrary_follows _
  | dropLibrary index => exact dropLibrary_follows followed _
  | registerThreadDestructor dsoHandle accepted =>
      exact registerThreadDestructor_follows followed _ _
  | runThreadDestructor index => exact runThreadDestructor_follows followed _
  | linkMappedRoot bindNow request key raw flags rtld =>
      exact linkMappedRoot_follows followed _ _ _ _ _ _
  | finalizeStartup => exact finalizeStartup_follows followed
  | registerLoaded lib flags => exact registerLoaded_follows _ _
  | registerInitialAliases => exact registerInitialAliases_follows

/-- The induction is on how the user code is built; the frames are arbitrary, because code
that runs inside a call runs among the frames of that call. -/
theorem UserCode.follows {program : Program Ctx (Except Error Unit)} (code : UserCode program)
    (frames : CallFrames Ctx) :
    World.system.Follows (Mirrors frames) program fun _ => Mirrors frames := by
  induction code generalizing frames with
  | finish result => exact .pure _ fun _ _ mirrors => mirrors
  | choose choice _ ih =>
      refine .choose fun seen => (ih seen frames).weaken ?_ ?_
      · exact fun _ _ both => both.1
      · exact fun _ _ _ mirrors => mirrors
  | remember memory rest _ ih =>
      exact .through (fun _ => Mirrors frames)
        (remember_follows (fun _ => rfl) fun _ => rfl) fun _ => ih frames
  | call api inner rest _ _ innerIH restIH =>
      exact (api.run_follows innerIH).bind fun _ => restIH frames

end Opens

/-- What user code does to the process, at any depth and whatever calls are in progress
around it, a run of registry steps does to every world that the process mirrors; the calls
around it find their values as they left them. -/
theorem user_code_runs_registry [ImageLoader Ctx] (program : Program Ctx (Except Error Unit))
    (code : UserCode program) (frames : CallFrames Ctx) (world : World Ctx)
    (process after : Process Ctx) (result : Except Error Unit)
    (mirrors : Mirrors frames world process) (ran : program process = .ok (result, after)) :
    ∃ actions next, World.system.Run world actions next ∧ Mirrors frames next after :=
  code.follows frames world process result after mirrors ran

theorem Process.start_mirrors :
    Mirrors .none (World.new : World PluginContext) Process.start :=
  ⟨rfl, rfl, .refl _, rfl, rfl, rfl, rfl⟩

/-- A program whose constructors open another library and whose callbacks look addresses
up, from a fresh process. -/
theorem user_code_runs_registry_nested :
    ∃ result after actions next, nestedCalls Process.start = .ok (result, after) ∧
      (World.system : TransitionSystem (World PluginContext) _).Run .new actions next ∧
      Mirrors .none next after := by
  have code : UserCode nestedCalls :=
    .call _ nestingUser _ nestingUser_code (.call _ nestingUser _ nestingUser_code (.finish _))
  have completes : (nestedCalls Process.start).toOption.isSome = true := by decide +kernel
  obtain ⟨⟨result, after⟩, ran⟩ := Option.isSome_iff_exists.mp completes
  rw [toOption_eq_some_iff] at ran
  obtain ⟨actions, next, run, mirrors⟩ := user_code_runs_registry nestedCalls code .none .new
    Process.start after result Process.start_mirrors ran
  exact ⟨result, after, actions, next, ran, run, mirrors⟩

end DynLinker.Registry
