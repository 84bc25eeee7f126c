import DynLinker.Loader.ReferenceImages
import DynLinker.Registry.ModuleCounters
import DynLinker.Registry.Process

/-! Re-entry. User code is any program that is built from calls of the linker, where the
user code that runs inside a call is built the same way. Whatever it does, the registry
is never borrowed while a conflicting borrow is live. -/

set_option autoImplicit false

namespace DynLinker.Registry

open Lib Loader ElfLoader ImageLoader

section Rules

variable {Ctx Answer : Type} {state : BorrowState}

theorem panicking_keeps (result : Except Panic Answer) :
    CellM.Keeps state (panicking result : Program Ctx Answer) :=
  .lift _

theorem withManager_keeps (method : Manager Ctx → Except Panic (Answer × Manager Ctx)) :
    CellM.Keeps .unused (withManager method) :=
  .borrowMut rfl fun _ => panicking_keeps _

theorem readManager_keeps (method : Manager Ctx → Answer) :
    CellM.Keeps .unused (readManager method) :=
  .borrow rfl fun _ => .pure _

theorem surroundings_keeps : CellM.Keeps state (surroundings : Program Ctx Surroundings) :=
  .surroundings _

theorem modifySurroundings_keeps (change : Surroundings → Surroundings) :
    CellM.Keeps state (modifySurroundings change : Program Ctx Unit) :=
  .surroundings _

theorem debugActions_keeps (actions : List Debug.DebugAction) :
    CellM.Keeps state (debugActions actions : Program Ctx Unit) :=
  .surroundings _

theorem addImages_keeps (images : List LoadedImage) :
    CellM.Keeps state (addImages images : Program Ctx Unit) :=
  debugActions_keeps _

theorem dropImages_keeps (maps : List LinkMapAddress) :
    CellM.Keeps state (dropImages maps : Program Ctx Unit) :=
  debugActions_keeps _

theorem discard_keeps {program : Program Ctx Answer} (keeps : CellM.Keeps state program) :
    CellM.Keeps state (discard program) :=
  keeps.bind fun _ => .pure _

end Rules

/-- User code that never conflicts when no borrow is live. -/
def User.Tidy {Ctx : Type} (user : User Ctx) : Prop := ∀ point, CellM.Keeps .unused (user point)

section Drops

variable {Ctx : Type} {user : User Ctx}

theorem dropGroup_keeps (tidy : user.Tidy) (group : UnloadGroup) :
    CellM.Keeps .unused (dropGroup user group) :=
  (tidy _).bind fun _ => dropImages_keeps _

variable [ElfLoader Ctx]

/-- An emptied lease borrows nothing, so it may be dropped under any borrow. -/
theorem dropLease_emptied {state : BorrowState} {lease : ModuleLease}
    (emptied : lease.inner = none) : CellM.Keeps state (dropLease user lease) := by
  rw [dropLease, emptied]
  exact .pure _

theorem dropLease_keeps (tidy : user.Tidy) (lease : ModuleLease) :
    CellM.Keeps .unused (dropLease user lease) := by
  cases live : lease.inner with
  | none => exact dropLease_emptied live
  | some inner =>
      rw [dropLease, live]
      exact (withManager_keeps _).bind (dropGroup_keeps tidy)

theorem dropLeases_keeps (tidy : user.Tidy) (leases : List ModuleLease) :
    CellM.Keeps .unused (dropLeases user leases) := by
  induction leases with
  | nil => exact .pure _
  | cons lease rest ih => exact (dropLease_keeps tidy lease).bind fun _ => ih

theorem dropLeaseOption_keeps (tidy : user.Tidy) (lease : Option ModuleLease) :
    CellM.Keeps .unused (dropLeaseOption user lease) := by
  cases lease with
  | none => exact .pure _
  | some lease => exact dropLease_keeps tidy lease

end Drops

/-! ## Opening -/

section Opening

variable {Ctx : Type} [ElfLoader Ctx]

theorem openExisting_keeps (request : String) (flags : OpenFlags) (root : LinkRoot Ctx) :
    CellM.Keeps .unused (openExisting request flags root) := by
  rw [openExisting]
  split
  · exact .pure _
  · exact withManager_keeps _

theorem openMain_keeps : CellM.Keeps .unused (openMain : Program Ctx OpenedLibrary) :=
  withManager_keeps _

theorem rollbackPublished_keeps (load : LoadResult) (error : Error) :
    CellM.Keeps .unused (rollbackPublished load error : Program Ctx Error) := by
  refine .borrowMut rfl fun manager => ?_
  split
  · exact .pure _
  · exact (dropImages_keeps _).bind fun _ => .pure _

theorem initialise_keeps {user : User Ctx} {beforeInit : ModuleId → Program Ctx (Except Error Unit)}
    (tidy : user.Tidy) (hook : ∀ root, CellM.Keeps .unused (beforeInit root)) (flags : OpenFlags)
    (load : LoadResult) : CellM.Keeps .unused (initialise user beforeInit flags load) := by
  refine (hook _).bind fun accepted => ?_
  cases accepted with
  | error error => exact (rollbackPublished_keeps load error).bind fun _ => .pure _
  | ok _ =>
      refine (tidy _).bind fun initialised => ?_
      cases initialised with
      | error error => exact (rollbackPublished_keeps load error).bind fun _ => .pure _
      | ok _ => exact (withManager_keeps _).bind fun _ => .pure _

variable [ImageLoader Ctx]

theorem mapRoot_keeps (root : LinkRoot Ctx) : CellM.Keeps .unused (mapRoot root) := by
  cases root with
  | file path => exact .pure _
  | mapped key raw => exact .pure _
  | binary key bytes =>
      rw [mapRoot]
      refine (addImages_keeps _).bind fun _ => ?_
      split
      · exact (dropImages_keeps _).bind fun _ => .pure _
      · exact (dropImages_keeps _).bind fun _ => .pure _

theorem prepareRoot_keeps (request : String) (flags : OpenFlags) (root : LinkRoot Ctx)
    (maps : List LinkMapAddress) (caller : Option Nat) :
    CellM.Keeps .unused (prepareRoot request flags root maps caller) := by
  refine .borrowMut rfl fun manager => ?_
  refine (addImages_keeps _).bind fun _ => (panicking_keeps _).bind fun result => ?_
  obtain ⟨outcome, next⟩ := result
  cases outcome with
  | finished result => exact (dropImages_keeps _).bind fun _ => .pure _
  | prepared flags pending => exact (dropImages_keeps _).bind fun _ => .pure _

theorem publishPrepared_keeps (pending : Pending Ctx) :
    CellM.Keeps .unused (publishPrepared pending) := by
  rw [publishPrepared]
  split
  · exact (dropImages_keeps _).bind fun _ => .pure _
  · refine .borrowMut rfl fun manager => ?_
    split
    · exact (dropImages_keeps _).bind fun _ => .pure _
    · exact .pure _

theorem publishRoot_keeps (request : String) (flags : OpenFlags) (root : LinkRoot Ctx)
    (caller : Option Nat) : CellM.Keeps .unused (publishRoot request flags root caller) := by
  refine (mapRoot_keeps root).bind fun mapped => ?_
  cases mapped with
  | error error => exact .pure _
  | ok mapped =>
      obtain ⟨root, maps⟩ := mapped
      refine (prepareRoot_keeps request flags root maps caller).bind fun outcome => ?_
      cases outcome with
      | finished result => exact .pure _
      | prepared flags pending =>
          refine (publishPrepared_keeps pending).bind fun published => ?_
          cases published with
          | error error => exact .pure _
          | ok load => exact .pure _

theorem beginOpen_keeps (bindNow : Bool) (request : String) (requested : OpenFlags)
    (root : LinkRoot Ctx) (caller : Option Nat) :
    CellM.Keeps .unused (beginOpen bindNow request requested root caller) := by
  refine (openExisting_keeps request _ root).bind fun found => ?_
  cases found with
  | some opened => exact .pure _
  | none =>
      simp only
      split
      · exact .pure _
      · exact publishRoot_keeps request _ root caller

variable {user : User Ctx} {beforeInit : ModuleId → Program Ctx (Except Error Unit)}

theorem openWith_keeps (tidy : user.Tidy) (hook : ∀ root, CellM.Keeps .unused (beforeInit root))
    (bindNow : Bool) (request : String) (flags : OpenFlags) (root : LinkRoot Ctx)
    (caller : Option Nat) :
    CellM.Keeps .unused (openWith user beforeInit bindNow request flags root caller) := by
  refine (beginOpen_keeps bindNow request flags root caller).bind fun stage => ?_
  cases stage with
  | finished result => exact .pure _
  | published flags load => exact initialise_keeps tidy hook flags load

theorem open_keeps (tidy : user.Tidy) (bindNow : Bool) (request : String) (flags : OpenFlags)
    (root : LinkRoot Ctx) (caller : Option Nat) :
    CellM.Keeps .unused (open_ user bindNow request flags root caller) :=
  openWith_keeps tidy (fun _ => .pure _) bindNow request flags root caller

end Opening

/-! ## The interface -/

section Interface

variable {Ctx : Type} [ElfLoader Ctx] {user : User Ctx}

omit [ElfLoader Ctx] in
theorem registerHandle_keeps (opened : OpenedLibrary) :
    CellM.Keeps .unused (registerHandle opened : Program Ctx Nat) :=
  withManager_keeps _

/-- An entry goes only when no further lease is in it. -/
theorem HandleState.extraLeases_of_pop {state : HandleState} (gone : state.pop.2 = none) :
    state.extraLeases = [] := by
  rw [HandleState.pop] at gone
  split at gone
  · cases gone
  · next last => exact List.getLast?_eq_none_iff.mp last

theorem dropRemoved_keeps {state : BorrowState} (entry : HandleState) :
    CellM.Keeps state (dropRemoved user entry) := by
  rw [dropRemoved]
  split
  · next gone =>
      rw [HandleState.extraLeases_of_pop gone]
      exact .pure _
  · exact .pure _

theorem intoInner_keeps {state : BorrowState} (lease : ModuleLease) :
    CellM.Keeps state (intoInner user lease) := by
  rw [intoInner, ModuleLease.intoInner]
  cases lease.inner with
  | none => exact .fail (Failure.panic ⟨"live module lease must retain its acquisition"⟩)
  | some inner =>
      have dropped : CellM.Keeps state (dropLease user ⟨none⟩) := dropLease_emptied rfl
      exact dropped.bind fun _ => .pure _

/-- What is dropped under the borrow of `release_handle` borrows nothing. -/
theorem takeHandle_keeps {state : BorrowState} (handle : Nat) (manager : Manager Ctx) :
    CellM.Keeps state (takeHandle user handle manager) := by
  rw [takeHandle]
  split
  · exact .pure _
  · exact (dropRemoved_keeps _).bind fun _ => (intoInner_keeps _).bind fun _ =>
      (panicking_keeps _).bind fun _ => .pure _

theorem dlclose_keeps (tidy : user.Tidy) (handle : Nat) :
    CellM.Keeps .unused (dlclose user handle) := by
  rw [dlclose]
  split
  · exact .pure _
  · refine CellM.Keeps.bind (.borrowMut rfl (takeHandle_keeps handle)) fun unloaded => ?_
    cases unloaded with
    | none => exact .pure _
    | some unloaded => exact (dropGroup_keeps tidy unloaded).bind fun _ => .pure _

theorem dlsym_keeps (query : SymbolQuery) :
    CellM.Keeps .unused (dlsym query : Program Ctx (Option Nat)) := by
  cases query with
  | default name => exact readManager_keeps _
  | next caller name => exact withManager_keeps _
  | handle handle name => exact readManager_keeps _

theorem dladdr_keeps (tidy : user.Tidy) (addr : Nat) :
    CellM.Keeps .unused (dladdr user addr) := by
  refine CellM.Keeps.bind (withManager_keeps _) fun found => ?_
  cases found with
  | none => exact .pure _
  | some opened => exact (dropLease_keeps tidy opened.lease).bind fun _ => .pure _

omit [ElfLoader Ctx] in
theorem visitSnapshots_keeps (tidy : user.Tidy) (tlsDataPtr : Nat → Nat) (adds subs : Nat)
    (snapshots : List LibrarySnapshot) :
    CellM.Keeps .unused (visitSnapshots user tlsDataPtr adds subs snapshots) := by
  induction snapshots with
  | nil => exact .pure _
  | cons snapshot rest ih =>
      refine CellM.Keeps.bind (panicking_keeps _) fun info => ?_
      cases info with
      | none => exact ih
      | some info =>
          refine (tidy _).bind fun continued => ?_
          cases continued with
          | error error => exact .pure _
          | ok _ => exact ih

theorem forEachPhdr_keeps (tidy : user.Tidy) (tlsDataPtr : Nat → Nat) :
    CellM.Keeps .unused (forEachPhdr user tlsDataPtr) :=
  (withManager_keeps _).bind fun _ => (visitSnapshots_keeps tidy _ _ _ _).bind fun _ =>
    (dropLeases_keeps tidy _).bind fun _ => .pure _

theorem thisLibrary_keeps : CellM.Keeps .unused (thisLibrary : Program Ctx Unit) :=
  openMain_keeps.bind fun _ => modifySurroundings_keeps _

theorem dladdrLibrary_keeps (addr : Nat) :
    CellM.Keeps .unused (dladdrLibrary addr : Program Ctx Unit) := by
  refine CellM.Keeps.bind (withManager_keeps _) fun found => ?_
  cases found with
  | none => exact .pure _
  | some opened => exact modifySurroundings_keeps _

theorem libraryFlags_keeps (index : Nat) :
    CellM.Keeps .unused (libraryFlags index : Program Ctx OpenFlags) := by
  refine surroundings_keeps.bind fun around => ?_
  split
  · exact .pure _
  · exact (panicking_keeps _).bind fun _ => (readManager_keeps _).bind fun _ => .pure _

omit [ElfLoader Ctx] in
theorem cloneLibrary_keeps (index : Nat) :
    CellM.Keeps .unused (cloneLibrary index : Program Ctx Unit) :=
  modifySurroundings_keeps _

theorem dropLibrary_keeps (tidy : user.Tidy) (index : Nat) :
    CellM.Keeps .unused (dropLibrary user index) := by
  refine surroundings_keeps.bind fun around => ?_
  split
  · exact .pure _
  · split
    · exact modifySurroundings_keeps _
    · exact (modifySurroundings_keeps _).bind fun _ => dropLease_keeps tidy _

theorem registerThreadDestructor_keeps (tidy : user.Tidy) (dsoHandle : Nat) (accepted : Bool) :
    CellM.Keeps .unused (registerThreadDestructor user dsoHandle accepted) := by
  refine CellM.Keeps.bind (withManager_keeps _) fun lease => ?_
  split
  · exact modifySurroundings_keeps _
  · exact dropLeaseOption_keeps tidy lease

theorem runThreadDestructor_keeps (tidy : user.Tidy) (index : Nat) :
    CellM.Keeps .unused (runThreadDestructor user index) := by
  refine surroundings_keeps.bind fun around => ?_
  split
  · exact .pure _
  · exact (modifySurroundings_keeps _).bind fun _ => (tidy _).bind fun _ =>
      dropLeaseOption_keeps tidy _

omit [ElfLoader Ctx] in
theorem finalizeModules_keeps (tidy : user.Tidy) (handles : List ModuleHandle) :
    CellM.Keeps .unused (finalizeModules user handles) := by
  induction handles with
  | nil => exact .pure _
  | cons handle rest ih => exact (tidy _).bind fun _ => ih

theorem finalizeStartup_keeps (tidy : user.Tidy) : CellM.Keeps .unused (finalizeStartup user) := by
  refine surroundings_keeps.bind fun around => (modifySurroundings_keeps _).bind fun _ => ?_
  split
  · exact .pure _
  · refine (withManager_keeps _).bind fun scope => ?_
    cases scope with
    | none => exact .pure _
    | some scope => exact finalizeModules_keeps tidy scope

theorem registerLoaded_keeps (lib : LoadedDylib) (flags : OpenFlags) :
    CellM.Keeps .unused (registerLoaded lib flags : Program Ctx Unit) :=
  withManager_keeps _

theorem registerInitialAliases_keeps :
    CellM.Keeps .unused (registerInitialAliases : Program Ctx Unit) :=
  withManager_keeps _

variable [ImageLoader Ctx]

theorem dlopen_keeps (tidy : user.Tidy) (bindNow : Bool) (filename : Option String)
    (flags : OpenFlags) (caller : Nat) :
    CellM.Keeps .unused (dlopen user bindNow filename flags caller) := by
  cases filename with
  | none => exact openMain_keeps.bind registerHandle_keeps
  | some path =>
      refine (open_keeps tidy _ _ _ _ _).bind fun opened => ?_
      cases opened with
      | error error => exact .pure _
      | ok opened => exact registerHandle_keeps opened

theorem openLibrary_keeps (tidy : user.Tidy) (bindNow : Bool) (request : String)
    (flags : OpenFlags) (root : LinkRoot Ctx) (caller : Option Nat) :
    CellM.Keeps .unused (openLibrary user bindNow request flags root caller) := by
  refine (open_keeps tidy _ _ _ _ _).bind fun opened => ?_
  cases opened with
  | error error => exact .pure _
  | ok opened => exact modifySurroundings_keeps _

/-- The startup hook gives its borrow back before it runs user code. -/
theorem linkMappedRoot_keeps (tidy : user.Tidy) (bindNow : Bool) (request key : String)
    (raw : Raw Ctx) (flags : OpenFlags) (rtld : Option (LinkMapAddress × Nat)) :
    CellM.Keeps .unused (linkMappedRoot user bindNow request key raw flags rtld) := by
  refine CellM.Keeps.bind (openWith_keeps tidy ?_ _ _ _ _ _) fun opened => ?_
  · intro root
    refine (withManager_keeps _).bind fun state => ?_
    cases state with
    | error error => exact .pure _
    | ok state => exact tidy _
  · cases opened with
    | error error => exact .pure _
    | ok opened => exact (modifySurroundings_keeps _).bind fun _ => dropLease_keeps tidy _

end Interface

/-! ## User code -/

inductive Api (Ctx : Type) [ElfLoader Ctx] where
  | dlopen (bindNow : Bool) (filename : Option String) (flags : OpenFlags) (caller : Nat)
  | dlclose (handle : Nat)
  | dlsym (query : SymbolQuery)
  | dladdr (addr : Nat)
  | dlFindObject (addr : Nat)
  | dlIteratePhdr (tlsDataPtr : Nat → Nat)
  | openLibrary (bindNow : Bool) (request : String) (flags : OpenFlags) (root : LinkRoot Ctx)
      (caller : Option Nat)
  | thisLibrary
  | dladdrLibrary (addr : Nat)
  | libraryFlags (index : Nat)
  | cloneLibrary (index : Nat)
  | dropLibrary (index : Nat)
  | registerThreadDestructor (dsoHandle : Nat) (accepted : Bool)
  | runThreadDestructor (index : Nat)
  | linkMappedRoot (bindNow : Bool) (request key : String) (raw : Raw Ctx) (flags : OpenFlags)
      (rtld : Option (LinkMapAddress × Nat))
  | finalizeStartup
  | registerLoaded (lib : LoadedDylib) (flags : OpenFlags)
  | registerInitialAliases

section UserCode

variable {Ctx : Type} [ElfLoader Ctx] [ImageLoader Ctx]

def Api.run (user : User Ctx) : Api Ctx → Program Ctx Unit
  | .dlopen bindNow filename flags caller =>
      discard (Registry.dlopen user bindNow filename flags caller)
  | .dlclose handle => discard (Registry.dlclose user handle)
  | .dlsym query => discard (Registry.dlsym query)
  | .dladdr addr => discard (Registry.dladdr user addr)
  | .dlFindObject addr => discard (loadedByAddr addr)
  | .dlIteratePhdr tlsDataPtr => discard (forEachPhdr user tlsDataPtr)
  | .openLibrary bindNow request flags root caller =>
      Registry.openLibrary user bindNow request flags root caller
  | .thisLibrary => Registry.thisLibrary
  | .dladdrLibrary addr => Registry.dladdrLibrary addr
  | .libraryFlags index => discard (Registry.libraryFlags index)
  | .cloneLibrary index => Registry.cloneLibrary index
  | .dropLibrary index => Registry.dropLibrary user index
  | .registerThreadDestructor dsoHandle accepted =>
      Registry.registerThreadDestructor user dsoHandle accepted
  | .runThreadDestructor index => Registry.runThreadDestructor user index
  | .linkMappedRoot bindNow request key raw flags rtld =>
      Registry.linkMappedRoot user bindNow request key raw flags rtld
  | .finalizeStartup => Registry.finalizeStartup user
  | .registerLoaded lib flags => Registry.registerLoaded lib flags
  | .registerInitialAliases => Registry.registerInitialAliases

/-- User code ends with a result, decides by anything it can see, remembers something, or
calls the linker and goes on; `inner` is the user code that runs inside the call. -/
inductive UserCode : Program Ctx (Except Error Unit) → Prop where
  | finish (result : Except Error Unit) : UserCode (pure result)
  | choose (choice : Process Ctx → Program Ctx (Except Error Unit)) :
      (∀ process, UserCode (choice process)) → UserCode (fun process => choice process process)
  | remember (memory : Nat) (rest : Program Ctx (Except Error Unit)) :
      UserCode rest → UserCode (do
        modifySurroundings fun around => { around with memory := memory }
        rest)
  | call (api : Api Ctx) (inner : User Ctx) (rest : Program Ctx (Except Error Unit)) :
      (∀ point, UserCode (inner point)) → UserCode rest → UserCode (do
        api.run inner
        rest)

theorem Api.run_keeps {user : User Ctx} (tidy : user.Tidy) (api : Api Ctx) :
    CellM.Keeps .unused (api.run user) := by
  cases api with
  | dlopen bindNow filename flags caller => exact discard_keeps (dlopen_keeps tidy _ _ _ _)
  | dlclose handle => exact discard_keeps (dlclose_keeps tidy _)
  | dlsym query => exact discard_keeps (dlsym_keeps _)
  | dladdr addr => exact discard_keeps (dladdr_keeps tidy _)
  | dlFindObject addr => exact discard_keeps (withManager_keeps _)
  | dlIteratePhdr tlsDataPtr => exact discard_keeps (forEachPhdr_keeps tidy _)
  | openLibrary bindNow request flags root caller => exact openLibrary_keeps tidy _ _ _ _ _
  | thisLibrary => exact thisLibrary_keeps
  | dladdrLibrary addr => exact dladdrLibrary_keeps _
  | libraryFlags index => exact discard_keeps (libraryFlags_keeps _)
  | cloneLibrary index => exact cloneLibrary_keeps _
  | dropLibrary index => exact dropLibrary_keeps tidy _
  | registerThreadDestructor dsoHandle accepted =>
      exact registerThreadDestructor_keeps tidy _ _
  | runThreadDestructor index => exact runThreadDestructor_keeps tidy _
  | linkMappedRoot bindNow request key raw flags rtld =>
      exact linkMappedRoot_keeps tidy _ _ _ _ _ _
  | finalizeStartup => exact finalizeStartup_keeps tidy
  | registerLoaded lib flags => exact registerLoaded_keeps _ _
  | registerInitialAliases => exact registerInitialAliases_keeps

/-- The induction is on how the user code is built, so it covers every depth. -/
theorem UserCode.keeps {program : Program Ctx (Except Error Unit)} (code : UserCode program) :
    CellM.Keeps .unused program := by
  induction code with
  | finish result => exact .pure _
  | choose choice _ ih => exact .choose ih
  | remember memory rest _ ih => exact (modifySurroundings_keeps _).bind fun _ => ih
  | call api inner rest _ _ innerIH restIH => exact (api.run_keeps innerIH).bind fun _ => restIH

/-- User code that starts while the registry is not borrowed never meets a conflicting
borrow, at any depth, and leaves the registry unborrowed. -/
theorem reentry_never_conflicts (program : Program Ctx (Except Error Unit))
    (code : UserCode program) (process : Process Ctx) (free : process.1.state = .unused) :
    program process ≠ .error .conflict ∧
    ∀ result after, program process = .ok (result, after) → after.1.state = .unused :=
  ⟨code.keeps.never process free, fun result after => code.keeps.kept process result after free⟩

end UserCode

def Process.start : Process PluginContext :=
  (⟨.new, .unused⟩, ⟨⟨.initial fun _ => .zero, [], [], []⟩, [], [], none, 0⟩)

def quietUser : User PluginContext := fun _ => pure (.ok ())

/-- Constructors walk the modules, and the callback looks an address up. -/
def walkingUser : User PluginContext
  | .constructors _ => do
      (Api.dlIteratePhdr fun _ => 0).run quietUser
      pure (.ok ())
  | .phdrCallback _ => do
      (Api.dladdr 0x20100).run quietUser
      pure (.ok ())
  | _ => pure (.ok ())

/-- Constructors open another library and keep it until the finalizers run. -/
def nestingUser : User PluginContext
  | .constructors _ => do
      (Api.openLibrary false "/lib/libplugin.so" .rtldNow (.file "/lib/libplugin.so") none).run
        walkingUser
      (Api.dlIteratePhdr fun _ => 0).run walkingUser
      pure (.ok ())
  | .finalizers _ => do
      (Api.dropLibrary 0).run walkingUser
      pure (.ok ())
  | _ => pure (.ok ())

def nestedCalls : Program PluginContext (Except Error Unit) := do
  (Api.dlopen false (some "/lib/libbroken.so") .rtldNow 0).run nestingUser
  (Api.dlclose 0x900).run nestingUser
  pure (.ok ())

theorem walkingUser_code (point : UserPoint) : UserCode (walkingUser point) := by
  have quiet : ∀ point, UserCode (quietUser point) := fun _ => .finish _
  cases point with
  | constructors modules => exact .call _ quietUser _ quiet (.finish _)
  | phdrCallback info => exact .call _ quietUser _ quiet (.finish _)
  | beforeInit state => exact .finish _
  | finalizers unloaded => exact .finish _
  | finalizeModule handle => exact .finish _
  | threadDestructor => exact .finish _

theorem nestingUser_code (point : UserPoint) : UserCode (nestingUser point) := by
  cases point with
  | constructors modules =>
      exact .call _ walkingUser _ walkingUser_code
        (.call _ walkingUser _ walkingUser_code (.finish _))
  | finalizers unloaded => exact .call _ walkingUser _ walkingUser_code (.finish _)
  | phdrCallback info => exact .finish _
  | beforeInit state => exact .finish _
  | finalizeModule handle => exact .finish _
  | threadDestructor => exact .finish _

theorem reentry_never_conflicts_nested :
    UserCode nestedCalls ∧ nestedCalls Process.start ≠ .error .conflict ∧
    ∃ result after, nestedCalls Process.start = .ok (result, after) ∧
      after.1.value.adds = 2 ∧ after.1.value.subs = 2 ∧ after.1.state = .unused := by
  have code : UserCode nestedCalls :=
    .call _ nestingUser _ nestingUser_code (.call _ nestingUser _ nestingUser_code (.finish _))
  obtain ⟨never, kept⟩ := reentry_never_conflicts nestedCalls code Process.start rfl
  have evaluated : (nestedCalls Process.start).toOption.map (fun (_, after) =>
      (after.1.value.adds, after.1.value.subs)) = some (2, 2) := by
    decide +kernel
  obtain ⟨⟨result, after⟩, ran, counted⟩ := Option.map_eq_some_iff.mp evaluated
  rw [toOption_eq_some_iff] at ran
  obtain ⟨adds, subs⟩ := Prod.mk.inj counted
  exact ⟨code, never, result, after, ran, adds, subs, kept result after ran⟩

end DynLinker.Registry
