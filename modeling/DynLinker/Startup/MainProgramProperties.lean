import DynLinker.Registry.LeaseConservation
import DynLinker.Startup.MainProgram

/-! Which object `dlopen(NULL)` and `dl_iterate_phdr` take for the main program. Both
go by the load order, whose first object is pinned from its registration on; under the
replacement loader that object is the loader itself. -/

set_option autoImplicit false

namespace DynLinker.Startup

open Lib Loader ElfLoader Registry

/-- The module that leads the load order and never leaves it. -/
structure FirstModule (view : ContextView) (id : ModuleId) (handle : ModuleHandle) : Prop where
  first : view.order.head? = some (id, handle)
  pinned : view.Pinned id

/-- `main_library` opens this module. -/
def OpensMain {Ctx : Type} [ElfLoader Ctx] (world : World Ctx) (main : ModuleHandle) : Prop :=
  ∃ opened next, world.manager.mainLibrary = some (opened, next) ∧
    opened.scope.head? = some main

/-- A walk over the program headers reports this module before all others. -/
def ReportsFirst {Ctx : Type} [ElfLoader Ctx] (world : World Ctx) (tlsDataPtr : Nat → Nat)
    (main : ModuleHandle) : Prop :=
  ∃ info, world.manager.firstReported tlsDataPtr = .ok (.error info) ∧ info.library.inner = main

variable {Ctx : Type} [ElfLoader Ctx] [LawfulElfLoader Ctx]

/-! ## The first module stays -/

omit [LawfulElfLoader Ctx] in
theorem FirstModule.extends_ {before after : ContextView} {id : ModuleId} {handle : ModuleHandle}
    (first : FirstModule before id handle) (grown : before.Extends after) :
    FirstModule after id handle :=
  ⟨grown.head first.first, grown.isPinned first.pinned⟩

omit [LawfulElfLoader Ctx] in
theorem FirstModule.effect {before after : World Ctx} {id : ModuleId} {handle : ModuleHandle}
    (first : FirstModule before.view id handle) (effect : StepEffect before after) :
    FirstModule after.view id handle := by
  cases effect.leases with
  | gains leases grown outstanding held => exact first.extends_ grown
  | gives lease middle unloaded grown outstanding gone held =>
      obtain ⟨leading, pinned⟩ := first.extends_ grown
      refine ⟨gone.head leading pinned, ?_⟩
      rw [ContextView.Pinned, gone.pinned]
      exact pinned

/-- The module leads the load order, and the leases are accounted for. -/
def Led (id : ModuleId) (handle : ModuleHandle) (world : World Ctx) : Prop :=
  Conserved world ∧ FirstModule world.view id handle

theorem Led.step {id : ModuleId} {handle : ModuleHandle} {before after : World Ctx}
    (led : Led id handle before) (action : Action Ctx)
    (step : World.system.step before action after) : Led id handle after := by
  have effect := act_effect led.1 step
  exact ⟨conserved_effect led.1 effect, led.2.effect effect⟩

theorem Led.run {id : ModuleId} {handle : ModuleHandle} {start finish : World Ctx}
    {actions : List (Action Ctx)} (led : Led id handle start)
    (run : World.system.Run start actions finish) : Led id handle finish :=
  run.preserves (fun _ action _ earlier step => Led.step earlier action step) led

theorem registered_first {next : Manager Ctx} {lib : LoadedDylib} {flags : OpenFlags}
    (accepted : (Manager.new : Manager Ctx).registerLoaded lib flags = .ok next) :
    ∃ id, FirstModule next.view id lib.handle := by
  obtain ⟨elf, lease, aliased, _, _, shaped, modules, _, _, pinned⟩ :=
    Manager.registerLoaded_spec accepted
  have start : (Manager.new : Manager Ctx).view = ContextView.empty := LawfulElfLoader.view_new
  refine ⟨lease.id, ?_, pinned⟩
  obtain ⟨aliases, rfl, _⟩ := shaped.shape
  rw [ContextView.order, modules, start]
  rfl

omit [LawfulElfLoader Ctx] in
theorem registered_step {before : World Ctx} {next : Manager Ctx} {lib : LoadedDylib}
    {flags : OpenFlags} (accepted : before.manager.registerLoaded lib flags = .ok next) :
    World.system.step before (.registerLoaded lib flags) { before with manager := next } := by
  change some (before.manager.registerLoaded lib flags >>= _) = _
  rw [accepted]
  rfl

theorem registered_led {next : Manager Ctx} {lib : LoadedDylib} {flags : OpenFlags}
    (accepted : (Manager.new : Manager Ctx).registerLoaded lib flags = .ok next) :
    ∃ id, Led id lib.handle { (World.new : World Ctx) with manager := next } := by
  obtain ⟨id, first⟩ := registered_first accepted
  have registering : (World.new : World Ctx).manager.registerLoaded lib flags = .ok next := accepted
  have effect := act_effect conserved_new (registered_step registering)
  exact ⟨id, conserved_effect conserved_new effect, first⟩

theorem importObjects_led {objects : List HostObject} {id : ModuleId} {handle : ModuleHandle}
    {before : World Ctx} {next : Manager Ctx} (led : Led id handle before)
    (accepted : objects.foldlM Manager.importObject before.manager = .ok next) :
    Led id handle { before with manager := next } := by
  induction objects generalizing before with
  | nil =>
      cases accepted
      exact led
  | cons object rest ih =>
      rw [List.foldlM_cons] at accepted
      obtain ⟨middle, importing, later⟩ := bind_eq_ok.mp accepted
      have registering : before.manager.registerLoaded object.loaded Manager.hostFlags =
          .ok middle := importing
      have registered : Led id handle { before with manager := middle } :=
        led.step _ (registered_step registering)
      have final := ih registered later
      exact final

theorem importHost_led {main : HostObject} {rest : List HostObject} {manager : Manager Ctx}
    (imported : (Manager.new : Manager Ctx).importHost (main :: rest) = .ok manager) :
    ∃ id, Led id main.handle { (World.new : World Ctx) with manager := manager } := by
  obtain ⟨all, importing, aliasing⟩ := bind_eq_ok.mp imported
  rw [List.foldlM_cons] at importing
  obtain ⟨first, registering, others⟩ := bind_eq_ok.mp importing
  obtain ⟨id, led⟩ := registered_led registering
  have objects := importObjects_led led others
  have step : World.system.step { (World.new : World Ctx) with manager := all }
      .registerInitialAliases { World.new with manager := manager } := by
    change some (all.registerInitialAliases >>= _) = _
    rw [aliasing]
    rfl
  exact ⟨id, objects.step _ step⟩

/-! ## What the first module decides -/

omit [LawfulElfLoader Ctx] in
theorem FirstModule.head {view : ContextView} {id : ModuleId} {handle : ModuleHandle}
    (first : FirstModule view id handle) :
    ∃ record rest, view.modules = record :: rest ∧ record.id = id ∧ record.handle = handle := by
  have leading := first.first
  rw [ContextView.order] at leading
  cases whole : view.modules with
  | nil =>
      rw [whole] at leading
      cases leading
  | cons record rest =>
      rw [whole] at leading
      cases leading
      exact ⟨record, rest, rfl, rfl, rfl⟩

omit [LawfulElfLoader Ctx] in
theorem FirstModule.find {view : ContextView} {id : ModuleId} {handle : ModuleHandle}
    (first : FirstModule view id handle) :
    ∃ record, view.find id = some record ∧ record.handle = handle := by
  obtain ⟨record, rest, whole, rfl, same⟩ := first.head
  refine ⟨record, ?_, same⟩
  rw [ContextView.find, whole]
  simp

/-- Everything that opens the first module gets the load group of its handle. -/
theorem FirstModule.group {ctx : Ctx} {id : ModuleId} {handle : ModuleHandle}
    (first : FirstModule (view ctx) id handle) :
    ∃ scope, loadGroup ctx id = .ok scope ∧ scope.head? = some handle := by
  obtain ⟨record, found, same⟩ := first.find
  obtain ⟨scope, grouped⟩ := LawfulElfLoader.loadGroup_total ctx id
    (ContextView.committed_iff_find.mpr ⟨record, found⟩)
  obtain ⟨root, rooted, leading, _, _⟩ := LawfulElfLoader.loadGroup_spec _ _ _ grouped
  rw [found] at rooted
  cases rooted
  exact ⟨scope, grouped, by rw [leading, same]⟩

theorem FirstModule.acquire {manager : Manager Ctx} {id : ModuleId} {handle : ModuleHandle}
    (first : FirstModule manager.view id handle) :
    ∃ lease next, manager.acquireModule id = some (lease, next) := by
  obtain ⟨record, found, _⟩ := first.find
  exact Manager.acquireModule_total (ContextView.committed_iff_find.mpr ⟨record, found⟩)

theorem opensMain_iff {world : World Ctx} {id : ModuleId} {handle main : ModuleHandle}
    (first : FirstModule world.view id handle) : OpensMain world main ↔ main = handle := by
  obtain ⟨scope, grouped, leading⟩ := first.group
  obtain ⟨lease, next, acquired⟩ := first.acquire
  obtain ⟨record, rest, whole, rfl, same⟩ := first.head
  have opening : world.manager.mainLibrary = some (⟨scope, lease⟩, next) := by
    have ordered : (loadOrder world.manager.linkCtx).head? = some record.id := by
      rw [loadOrder, show (view world.manager.linkCtx).modules = record :: rest from whole]
      rfl
    rw [Manager.mainLibrary, ordered]
    change world.manager.openModule record.id = _
    rw [Manager.openModule, grouped, acquired]
    rfl
  constructor
  · intro opens
    obtain ⟨opened, after, opened_eq, head⟩ := opens
    rw [opening] at opened_eq
    cases opened_eq
    exact Option.some.inj (head.symm.trans leading)
  · rintro rfl
    exact ⟨_, _, opening, leading⟩

/-- The snapshot begins with the first module. -/
theorem FirstModule.snapshot {manager : Manager Ctx} {id : ModuleId} {handle : ModuleHandle}
    {elf : ElfModule} (first : FirstModule manager.view id handle)
    (downcast : handle.elf = some elf) :
    ∃ lease rest, manager.librarySnapshot.1 = ⟨handle, lease⟩ :: rest := by
  obtain ⟨scope, grouped, leading⟩ := first.group
  obtain ⟨lease, next, acquired⟩ := first.acquire
  obtain ⟨record, rest, whole, rfl, same⟩ := first.head
  have taken : manager.snapshotModule record.id = some (⟨handle, lease⟩, next) := by
    rw [Manager.snapshotModule, grouped]
    change (scope.head? >>= _) = _
    rw [leading]
    change (handle.elf >>= _) = _
    rw [downcast]
    change (manager.acquireModule record.id >>= _) = _
    rw [acquired]
    rfl
  refine ⟨lease, (next.snapshotModules (rest.map (·.id))).1, ?_⟩
  rw [Manager.librarySnapshot, loadOrder,
    show (view manager.linkCtx).modules = record :: rest from whole, List.map_cons,
    Manager.snapshotModules, taken]

omit [ElfLoader Ctx] [LawfulElfLoader Ctx] in
theorem phdrInfo_some {snapshot : LibrarySnapshot} {elf : ElfModule} {phdrs : List Phdr}
    {data : ExtraData} (tlsDataPtr : Nat → Nat) (adds subs : Nat)
    (downcast : snapshot.inner.elf = some elf) (headers : elf.phdrs = some phdrs)
    (nonempty : phdrs ≠ []) (extra : elf.userData = some data) :
    ∃ info, phdrInfo tlsDataPtr adds subs snapshot = .ok (some info) ∧
      info.library = snapshot := by
  refine ⟨⟨snapshot, elf.base, data.cName, phdrs, adds, subs, elf.tlsModId.getD tlsModIdReserved,
    (elf.tlsModId.map tlsDataPtr).getD 0⟩, bind_eq_ok.mpr ⟨elf, expectSome_eq_ok.mpr downcast,
    bind_eq_ok.mpr ⟨data, expectSome_eq_ok.mpr extra, ?_⟩⟩, rfl⟩
  rw [headers, Option.getD_some, if_neg nonempty]
  rfl

theorem reportsFirst_iff {world : World Ctx} {id : ModuleId} {handle main : ModuleHandle}
    {elf : ElfModule} {phdrs : List Phdr} {data : ExtraData} (tlsDataPtr : Nat → Nat)
    (first : FirstModule world.view id handle) (downcast : handle.elf = some elf)
    (headers : elf.phdrs = some phdrs) (nonempty : phdrs ≠ []) (extra : elf.userData = some data) :
    ReportsFirst world tlsDataPtr main ↔ main = handle := by
  obtain ⟨lease, rest, snapshot⟩ := FirstModule.snapshot first downcast
  have reported : ∃ info, world.manager.firstReported tlsDataPtr = .ok (.error info) ∧
      info.library.inner = handle := by
    have downcasted : (LibrarySnapshot.mk handle lease).inner.elf = some elf := downcast
    obtain ⟨info, reporting, same⟩ := phdrInfo_some tlsDataPtr world.manager.adds
      world.manager.subs downcasted headers nonempty extra
    refine ⟨info, ?_, by rw [same]⟩
    rw [Manager.firstReported, Manager.forEachPhdr, snapshot, visitPhdrs, reporting]
    rfl
  obtain ⟨info, reporting, same⟩ := reported
  constructor
  · intro reports
    obtain ⟨other, otherReporting, otherSame⟩ := reports
    rw [reporting] at otherReporting
    cases otherReporting
    exact otherSame.symm.trans same
  · rintro rfl
    exact ⟨info, reporting, same⟩

/-! ## The start under the replacement loader -/

theorem registerInterpreter_led {interpreter : BootstrapObject} {address : LinkMapAddress}
    {manager : Manager Ctx}
    (registered : registerInterpreter interpreter = .ok (.ok (address, manager))) :
    interpreter.phdrs ≠ [] ∧ interpreter.handle.linkMap = some address ∧
      ∃ id, Led id interpreter.handle { (World.new : World Ctx) with manager := manager } := by
  rw [registerInterpreter, loadBootstrapObject] at registered
  by_cases empty : interpreter.phdrs = []
  · rw [if_pos empty] at registered
    cases registered
  · rw [if_neg empty] at registered
    simp only [registerObject] at registered
    cases mapped : interpreter.handle.linkMap with
    | none =>
        rw [mapped] at registered
        cases registered
    | some found =>
        rw [mapped] at registered
        obtain ⟨next, registering, returned⟩ := bind_eq_ok.mp registered
        cases returned
        exact ⟨empty, rfl, registered_led registering⟩

/-- Two committed modules with different ids have different handles. -/
theorem handle_ne_of_id_ne {ctx : Ctx} {left right : ModuleId} {handle main : ModuleHandle}
    {address : LinkMapAddress} (different : left ≠ right) (mapped : handle.linkMap = some address)
    (first : module ctx left = some handle) (second : module ctx right = some main) :
    main ≠ handle := by
  rintro rfl
  obtain ⟨one, oneFound, oneHandle⟩ := Option.map_eq_some_iff.mp first
  obtain ⟨two, twoFound, twoHandle⟩ := Option.map_eq_some_iff.mp second
  obtain ⟨oneMember, oneId⟩ := ContextView.find_some oneFound
  obtain ⟨twoMember, twoId⟩ := ContextView.find_some twoFound
  rw [← oneHandle] at mapped
  have same := LawfulElfLoader.linkMap_unique ctx one two address oneMember twoMember mapped
    (by rw [twoHandle, ← oneHandle]; exact mapped)
  exact different (by rw [← oneId, ← twoId, same])

/-- A load that commits modules commits its root. -/
theorem publishPending_root_new {manager next : Manager Ctx} {pending : Pending Ctx}
    {load : LoadResult} (accepted : manager.publishPending pending = .ok (load, next))
    (committed : load.modules ≠ []) : ¬ manager.view.Committed load.lease.id := by
  rw [Manager.publishPending] at accepted
  split at accepted
  · cases accepted
  · next relocated _ =>
      split at accepted
      · cases accepted
      · next found ctx publishing =>
          cases accepted
          obtain ⟨added, _, ids, _, fresh, _, rooted⟩ :=
            LawfulElfLoader.publish_spec _ _ _ _ publishing
          rcases rooted with own | ⟨nothing, _⟩
          · rw [← ids] at own
            obtain ⟨record, member, same⟩ := List.mem_map.mp own
            rw [← same]
            exact (fresh record member).1
          · exact absurd nothing committed

/-- The executable is no module from before the load. -/
theorem IsExecutable.new {manager next : Manager Ctx} {pending : Pending Ctx} {load : LoadResult}
    {id : ModuleId} {handle main : ModuleHandle} {address : LinkMapAddress}
    (executable : IsExecutable next.linkCtx load main)
    (published : manager.publishPending pending = .ok (load, next))
    (first : FirstModule manager.view id handle) (mapped : handle.linkMap = some address) :
    main ≠ handle := by
  obtain ⟨added, _, _, _, grown, _⟩ := Manager.publishPending_spec published
  obtain ⟨kept, found, same⟩ := (first.extends_ grown).find
  rw [IsExecutable] at executable
  split at executable
  · rintro rfl
    exact executable kept (ContextView.find_some found).1 same
  · next committed =>
      obtain ⟨record, present, _⟩ := first.find
      have different : id ≠ load.lease.id := by
        rintro rfl
        exact publishPending_root_new published committed
          (ContextView.committed_iff_find.mpr ⟨record, present⟩)
      refine handle_ne_of_id_ne different mapped ?_ executable
      exact Option.map_eq_some_iff.mpr ⟨kept, found, same⟩

theorem LinkMappedRoot.led {before after : World Ctx} {request name : String} {raw : Raw Ctx}
    {rtld : Option (LinkMapAddress × Nat)} {main handle : ModuleHandle} {id : ModuleId}
    {address : LinkMapAddress} (linked : LinkMappedRoot before request name raw rtld main after)
    (mapped : handle.linkMap = some address) (led : Led id handle before) :
    Led id handle after ∧ main ≠ handle := by
  have prepared : Led id handle
      (before.afterOpenWith (.prepared linked.flags linked.pending, linked.manager)) := by
    refine led.step (.openWith linked.bindNow request startupFlags
      (.mapped (rootKey name) raw) none) ?_
    change some (before.manager.openWith _ _ _ _ _ >>= _) = _
    rw [linked.preparing]
    rfl
  have relocated := prepared.run linked.relocating
  have published : Led id handle
      (linked.relocated.publishAt linked.prepared linked.flags linked.pending) := by
    refine relocated.step (.publish linked.prepared) ?_
    change (linked.relocated.preparing[linked.prepared]? >>= _) = _
    rw [linked.waiting]
    rfl
  have opened := ((published.step _ linked.hook).run linked.constructing).step _ linked.opening
  exact ⟨opened.step _ linked.dropping,
    linked.executable.new linked.publishing relocated.2 mapped⟩

/-- Whatever is opened and closed after the start, `dlopen(NULL)` opens the main
program, and a walk reports it first, exactly if a running process was imported. -/
theorem main_program_iff (kind : StartKind) (main : ModuleHandle) (started world : World Ctx)
    (actions : List (Action Ctx)) (tlsDataPtr : Nat → Nat) (start : Started kind main started)
    (run : World.system.Run started actions world) :
    (OpensMain world main ↔ kind = .hostImport) ∧
      (ReportsFirst world tlsDataPtr main ↔ kind = .hostImport) := by
  cases start with
  | hostImport object rest manager imported =>
      obtain ⟨id, led⟩ := importHost_led imported
      have first := (led.run run).2
      obtain ⟨phdr, member, _⟩ := object.dynamic
      have nonempty : object.phdrs ≠ [] := List.ne_nil_of_mem member
      rw [opensMain_iff first, reportsFirst_iff tlsDataPtr first rfl rfl nonempty rfl]
      simp
  | rtld interpreter address manager registered request name raw main started linked =>
      obtain ⟨nonempty, mapped, id, led⟩ := registerInterpreter_led registered
      obtain ⟨startedLed, different⟩ := linked.led mapped led
      have first := (startedLed.run run).2
      obtain ⟨data, extra, _⟩ := Option.bind_eq_some_iff.mp mapped
      rw [opensMain_iff first, reportsFirst_iff tlsDataPtr first rfl rfl nonempty extra]
      simp [different]

omit [LawfulElfLoader Ctx] in
theorem started_of_rtldStart {interpreter : BootstrapObject} {request name : String} {raw : Raw Ctx}
    {main : ModuleHandle} {started : World Ctx}
    (evaluated : rtldStart interpreter request name raw main = some started) :
    Started .rtld main started := by
  obtain ⟨result, registering, evaluated⟩ := Option.bind_eq_some_iff.mp evaluated
  obtain ⟨⟨address, manager⟩, registered, evaluated⟩ := Option.bind_eq_some_iff.mp evaluated
  obtain ⟨⟨outcome, next⟩, preparing, evaluated⟩ := Option.bind_eq_some_iff.mp evaluated
  rw [toOption_eq_some_iff] at registering registered preparing
  subst registered
  cases outcome with
  | finished result => cases evaluated
  | prepared flags pending =>
      simp only [linkPrepared] at evaluated
      obtain ⟨⟨load, published⟩, publishing, evaluated⟩ := Option.bind_eq_some_iff.mp evaluated
      obtain ⟨_, executable, evaluated⟩ := Option.bind_eq_some_iff.mp evaluated
      obtain ⟨hooked, hook, evaluated⟩ := Option.bind_eq_some_iff.mp evaluated
      obtain ⟨_, kept, evaluated⟩ := Option.bind_eq_some_iff.mp evaluated
      obtain ⟨opened, opening, dropping⟩ := Option.bind_eq_some_iff.mp evaluated
      exact .rtld interpreter address manager registering request name raw main started {
        bindNow := false
        flags := flags
        pending := pending
        manager := next
        preparing := preparing
        resolvers := []
        relocated := _
        relocating := .refl
        prepared := 0
        waiting := rfl
        load := load
        next := published
        publishing := toOption_eq_some_iff.mp publishing
        executable := by simpa using executable
        hooked := hooked
        hook := World.act_of_runActions hook
        constructors := []
        constructed := hooked
        constructing := .refl
        initialising := 0
        published := by simpa using kept
        opened := opened
        opening := World.act_of_runActions opening
        dropping := World.act_of_runActions dropping }

theorem main_program_iff_imported :
    ∃ (started world : World (ReferenceContext [])) (actions : List (Action (ReferenceContext []))),
      Started .hostImport hostMain.handle started ∧
      World.system.Run started actions world ∧ actions ≠ [] ∧
      (OpensMain world hostMain.handle ↔ StartKind.hostImport = .hostImport) ∧
      (ReportsFirst world id hostMain.handle ↔ StartKind.hostImport = .hostImport) := by
  have evaluated : (((Manager.new : Manager (ReferenceContext [])).importHost
      [hostMain, hostLibc]).toOption.bind fun manager =>
        (World.act { World.new with manager := manager } .openMain).bind Except.toOption).isSome =
      true := by
    decide +kernel
  obtain ⟨world, evaluated⟩ := Option.isSome_iff_exists.mp evaluated
  obtain ⟨manager, imported, evaluated⟩ := Option.bind_eq_some_iff.mp evaluated
  obtain ⟨result, accepted, stepped⟩ := Option.bind_eq_some_iff.mp evaluated
  rw [toOption_eq_some_iff] at imported stepped
  subst stepped
  have start : Started .hostImport hostMain.handle
      ({ World.new with manager := manager } : World (ReferenceContext [])) :=
    .hostImport hostMain [hostLibc] manager imported
  have run : World.system.Run { World.new with manager := manager } [Action.openMain] world :=
    TransitionSystem.Run.refl.snoc accepted
  exact ⟨_, world, _, start, run, List.cons_ne_nil _ _,
    main_program_iff .hostImport hostMain.handle _ world _ id start run⟩

/-- The loader itself, as the kernel maps it. -/
def rtldObject : BootstrapObject where
  instanceId := ⟨1⟩
  name := "ld-linux-x86-64.so.2"
  soname := some "ld-linux-x86-64.so.2"
  fileName := "ld-linux-x86-64.so.2"
  neededLibs := []
  base := 0x7000000
  phdrs := [⟨ptDynamic, 0x3000, 0x1f0⟩]
  tlsModId := none
  ranges := [(0x7000000, 0x7040000)]
  symbols := [("__tls_get_addr", 0x7000100)]
  userData := some ⟨"ld-linux-x86-64.so.2", ⟨0x800, Nat.succ_ne_zero _⟩⟩

/-- A mapped program without dependencies. -/
def mappedProgram : GraphModule where
  key := "main"
  handle := ⟨⟨2⟩, "", [(0x10000, 0x14000)], [("main", 0x10100)],
    some ⟨none, "", [], 0x10000, some [⟨ptDynamic, 0x3000, 0x1f0⟩], none,
      some ⟨"", ⟨0x900, Nat.succ_ne_zero _⟩⟩⟩⟩
  flags := OpenFlags.empty
  dependencies := []

def firstReportedHandle (world : World (ReferenceContext [])) : Option ModuleHandle :=
  match world.manager.firstReported id with
  | .error _ => none
  | .ok (.ok _) => none
  | .ok (.error info) => some info.library.inner

/-- After a start under the replacement loader, `dlopen(NULL)` opens the loader. -/
theorem rtld_start_opens_interpreter :
    ∃ (main : ModuleHandle) (started : World (ReferenceContext [])),
      Started .rtld main started ∧ OpensMain started rtldObject.handle ∧
      main ≠ rtldObject.handle ∧ ¬ OpensMain started main ∧ ¬ ReportsFirst started id main := by
  have evaluated : (rtldStart rtldObject "" "" mappedProgram mappedProgram.handle :
      Option (World (ReferenceContext []))).map (fun started =>
        (started.manager.mainLibrary.map (fun opened => opened.1.scope.head?),
          firstReportedHandle started)) =
      some (some (some rtldObject.handle), some rtldObject.handle) := by
    decide +kernel
  obtain ⟨started, ran, evaluated⟩ := Option.map_eq_some_iff.mp evaluated
  obtain ⟨opening, reporting⟩ := by simpa only [Prod.mk.injEq] using evaluated
  obtain ⟨⟨opened, next⟩, library, head⟩ := Option.map_eq_some_iff.mp opening
  have different : mappedProgram.handle ≠ rtldObject.handle := by decide
  refine ⟨mappedProgram.handle, started, started_of_rtldStart ran, ⟨opened, next, library, head⟩,
    different, ?_, ?_⟩
  · intro opens
    obtain ⟨other, after, otherLibrary, otherHead⟩ := opens
    rw [library] at otherLibrary
    cases otherLibrary
    exact different (Option.some.inj (otherHead.symm.trans head))
  · intro reports
    obtain ⟨info, first, same⟩ := reports
    rw [firstReportedHandle, first] at reporting
    exact different (same.symm.trans (Option.some.inj reporting))

/-- A program that is called like the interpreter is resolved to it, and is no module. -/
example : (rtldStart rtldObject "" "/opt/ld-linux-x86-64.so.2" mappedProgram
    mappedProgram.handle : Option (World (ReferenceContext []))).map (fun started =>
      started.view.modules.map (·.handle)) = some [rtldObject.handle] := by
  decide +kernel

end DynLinker.Startup
