import DynLinker.Error
import DynLinker.Loader.ReferenceContext
import DynLinker.Registry.Process

/-! The interposition chain (`dlsym_default` and `dlsym_next` in `api/dlsym.rs`): the
definitions of a name that are found one after the other, each lookup called from inside
the module that supplied the previous one. -/

set_option autoImplicit false

namespace DynLinker.Api

open Loader Registry

/-- A lookup's answer: the symbol, or the error that names it. -/
def symbolResult (name : String) : Option Nat → Except Error Nat
  | some symbol => .ok symbol
  | none => .error (.findSymbolError ("can not find symbol:" ++ name))

section Calls

variable {Ctx : Type} [ElfLoader Ctx]

def dlsymDefault (manager : Manager Ctx) (name : String) : Except Error Nat :=
  symbolResult name (findSymbol manager.view.globalScope name)

def dlsymNext (manager : Manager Ctx) (caller : Nat) (name : String) : Except Error Nat :=
  symbolResult name (manager.nextFind caller name)

end Calls

/-! ## The modules behind the answers -/

abbrev Supplier : Type := ModuleHandle × Nat

def supply (name : String) (module : ModuleHandle) : Option Supplier :=
  (module.get name).map fun symbol => (module, symbol)

/-- The module in which `find_symbol` finds the name, with the symbol. -/
def findSupplier (modules : List ModuleHandle) (name : String) : Option Supplier :=
  modules.findSome? (supply name)

def suppliers (modules : List ModuleHandle) (name : String) : List Supplier :=
  modules.filterMap (supply name)

/-- The part of a scope that `next_find` searches. -/
def afterInstance (scope : List ModuleHandle) (caller : InstanceId) : List ModuleHandle :=
  (scope.dropWhile fun module => module.instanceId ≠ caller).drop 1

section Scopes

variable {scope : List ModuleHandle} {name : String}

theorem findSymbol_eq_supplier (scope : List ModuleHandle) (name : String) :
    findSymbol scope name = (findSupplier scope name).map Prod.snd := by
  induction scope with
  | nil => rfl
  | cons first rest ih =>
      rw [findSymbol, findSupplier, List.findSome?_cons, List.findSome?_cons, supply]
      cases first.get name with
      | none => exact ih
      | some symbol => rfl

theorem findSupplier_eq_head? (scope : List ModuleHandle) (name : String) :
    findSupplier scope name = (suppliers scope name)[0]? := by
  rw [findSupplier, suppliers, ← List.head?_eq_getElem?, List.head?_filterMap]

theorem supply_eq_some {module : ModuleHandle} {supplier : Supplier}
    (supplied : supply name module = some supplier) : supplier.1 = module := by
  obtain ⟨symbol, _, rfl⟩ := Option.map_eq_some_iff.mp supplied
  rfl

theorem mem_of_suppliers {supplier : Supplier} (member : supplier ∈ suppliers scope name) :
    supplier.1 ∈ scope := by
  obtain ⟨module, listed, supplied⟩ := List.mem_filterMap.mp member
  rw [supply_eq_some supplied]
  exact listed

theorem afterInstance_root (root : ModuleHandle) (rest : List ModuleHandle) :
    afterInstance (root :: rest) root.instanceId = rest := by
  simp [afterInstance]

theorem afterInstance_skip {first : ModuleHandle} {caller : InstanceId}
    (other : first.instanceId ≠ caller) (rest : List ModuleHandle) :
    afterInstance (first :: rest) caller = afterInstance rest caller := by
  simp [afterInstance, other]

/-- Past the module that supplied one definition lies exactly the next one. -/
theorem findSupplier_after (distinct : (scope.map (·.instanceId)).Nodup) {n : Nat}
    {supplier : Supplier} (nth : (suppliers scope name)[n]? = some supplier) :
    findSupplier (afterInstance scope supplier.1.instanceId) name =
      (suppliers scope name)[n + 1]? := by
  induction scope generalizing n with
  | nil => cases nth
  | cons first rest ih =>
      obtain ⟨apart, restDistinct⟩ := List.nodup_cons.mp distinct
      have skip : supplier ∈ suppliers rest name →
          afterInstance (first :: rest) supplier.1.instanceId =
            afterInstance rest supplier.1.instanceId := by
        intro later
        refine afterInstance_skip (fun same => apart ?_) rest
        exact List.mem_map.mpr ⟨supplier.1, mem_of_suppliers later, same.symm⟩
      cases supplied : supply name first with
      | none =>
          have same : suppliers (first :: rest) name = suppliers rest name :=
            List.filterMap_cons_none supplied
          rw [same] at nth ⊢
          rw [skip (List.mem_of_getElem? nth)]
          exact ih restDistinct nth
      | some found =>
          have same : suppliers (first :: rest) name = found :: suppliers rest name :=
            List.filterMap_cons_some supplied
          rw [same] at nth ⊢
          cases n with
          | zero =>
              cases nth
              rw [supply_eq_some supplied, afterInstance_root]
              exact findSupplier_eq_head? rest name
          | succ n =>
              rw [List.getElem?_cons_succ] at nth ⊢
              rw [skip (List.mem_of_getElem? nth)]
              exact ih restDistinct nth

theorem suppliers_nodup (distinct : (scope.map (·.instanceId)).Nodup) :
    ((suppliers scope name).map Prod.fst).Nodup := by
  have sublist : ((suppliers scope name).map Prod.fst).Sublist scope := by
    induction scope with
    | nil => exact List.Sublist.refl _
    | cons first rest ih =>
        have restSublist := ih (List.nodup_cons.mp distinct).2
        cases supplied : supply name first with
        | none =>
            rw [suppliers, List.filterMap_cons_none supplied]
            exact restSublist.cons first
        | some found =>
            rw [suppliers, List.filterMap_cons_some supplied, List.map_cons,
              supply_eq_some supplied]
            exact restSublist.cons_cons first
  exact sublist.nodup (distinct.of_map _)

end Scopes

/-! ## The chain -/

section Chain

variable {Ctx : Type} [ElfLoader Ctx]

def nextSupplier (manager : Manager Ctx) (addr : Nat) (name : String) : Option Supplier := do
  let caller ← ElfLoader.moduleIdAt manager.linkCtx addr
  let handle ← ElfLoader.module manager.linkCtx caller
  let scope ← manager.nextScope caller handle
  findSupplier (afterInstance scope handle.instanceId) name

/-- What the `n`-th call of the sequence finds, and in which module. The calls after the
first come from the addresses `inside`. -/
def chainSupplier (manager : Manager Ctx) (name : String) (inside : Nat → Nat) :
    Nat → Option Supplier
  | 0 => findSupplier manager.view.globalScope name
  | n + 1 => do
      let _ ← chainSupplier manager name inside n
      nextSupplier manager (inside n) name

/-- The `n`-th call of the sequence. -/
def chainCall (manager : Manager Ctx) (name : String) (inside : Nat → Nat) : Nat → Except Error Nat
  | 0 => dlsymDefault manager name
  | n + 1 => dlsymNext manager (inside n) name

/-- The crate finds the module of an address inside a module of the global scope. -/
def LocatesModules (manager : Manager Ctx) : Prop :=
  ∀ module ∈ manager.view.globalScope, ∀ addr, module.Contains addr →
    ∃ id, ElfLoader.moduleIdAt manager.linkCtx addr = some id ∧
      ElfLoader.module manager.linkCtx id = some module

/-- A load group starts with its root and has no duplicates. -/
def RootedGroups (manager : Manager Ctx) : Prop :=
  ∀ id scope, ElfLoader.loadGroup manager.linkCtx id = .ok scope →
    scope.head? = ElfLoader.module manager.linkCtx id ∧ scope.Nodup

theorem rootedGroups_of_lawful [LawfulElfLoader Ctx] (manager : Manager Ctx) :
    RootedGroups manager := by
  intro id scope group
  obtain ⟨root, found, head, nodup, _⟩ :=
    LawfulElfLoader.loadGroup_spec manager.linkCtx id scope group
  refine ⟨?_, nodup⟩
  rw [head, ElfLoader.module, found]
  rfl

variable {manager : Manager Ctx} {name : String}

theorem nextFind_eq_supplier (manager : Manager Ctx) (addr : Nat) (name : String) :
    manager.nextFind addr name = (nextSupplier manager addr name).map Prod.snd := by
  rw [Manager.nextFind, nextSupplier]
  cases ElfLoader.moduleIdAt manager.linkCtx addr with
  | none => rfl
  | some caller =>
      simp only [Option.bind_eq_bind, Option.bind_some]
      cases ElfLoader.module manager.linkCtx caller with
      | none => rfl
      | some handle =>
          simp only [Option.bind_some]
          cases manager.nextScope caller handle with
          | none => rfl
          | some scope => exact findSymbol_eq_supplier _ name

/-- From inside a module of the global scope the search goes on after that module. -/
theorem nextSupplier_global (locates : LocatesModules manager) {module : ModuleHandle}
    (listed : module ∈ manager.view.globalScope) {addr : Nat} (within : module.Contains addr) :
    nextSupplier manager addr name =
      findSupplier (afterInstance manager.view.globalScope module.instanceId) name := by
  obtain ⟨id, located, found⟩ := locates module listed addr within
  have scope : manager.nextScope id module = some manager.view.globalScope := by
    rw [Manager.nextScope]
    exact if_pos (List.any_eq_true.mpr ⟨module, listed, decide_eq_true rfl⟩)
  simp only [nextSupplier, located, found, scope, Option.bind_eq_bind, Option.bind_some]

/-- By induction on the calls: the `n`-th call finds the `n`-th definition in scope order. -/
theorem chainSupplier_eq (distinct : (manager.view.globalScope.map (·.instanceId)).Nodup)
    (locates : LocatesModules manager) {inside : Nat → Nat} {n : Nat}
    (within : ∀ k < n, ∀ supplier, chainSupplier manager name inside k = some supplier →
      supplier.1.Contains (inside k)) :
    chainSupplier manager name inside n = (suppliers manager.view.globalScope name)[n]? := by
  induction n with
  | zero => exact findSupplier_eq_head? _ name
  | succ n ih =>
      have previous := ih fun k below => within k (Nat.lt_succ_of_lt below)
      rw [chainSupplier, previous]
      cases nth : (suppliers manager.view.globalScope name)[n]? with
      | none =>
          have short := List.getElem?_eq_none_iff.mp nth
          exact (List.getElem?_eq_none (Nat.le_succ_of_le short)).symm
      | some supplier =>
          have listed := mem_of_suppliers (List.mem_of_getElem? nth)
          have contained := within n (Nat.lt_succ_self n) supplier (previous.trans nth)
          rw [← findSupplier_after distinct nth]
          exact nextSupplier_global locates listed contained

/-- As long as the previous call has found something, a call's result is what it finds. -/
theorem chainCall_eq_supplier {inside : Nat → Nat} {n : Nat}
    (continues : ∀ k, n = k + 1 → (chainSupplier manager name inside k).isSome) :
    chainCall manager name inside n =
      symbolResult name ((chainSupplier manager name inside n).map Prod.snd) := by
  cases n with
  | zero => rw [chainCall, dlsymDefault, findSymbol_eq_supplier, chainSupplier]
  | succ n =>
      obtain ⟨previous, found⟩ := Option.isSome_iff_exists.mp (continues n rfl)
      rw [chainCall, dlsymNext, nextFind_eq_supplier, chainSupplier, found]
      rfl

/-- A caller outside the global scope searches its own load group, after itself. -/
theorem nextSupplier_outside (rooted : RootedGroups manager) {addr : Nat} {caller : ModuleId}
    {handle : ModuleHandle} (located : ElfLoader.moduleIdAt manager.linkCtx addr = some caller)
    (found : ElfLoader.module manager.linkCtx caller = some handle)
    (outside : ∀ module ∈ manager.view.globalScope, module.instanceId ≠ handle.instanceId) :
    nextSupplier manager addr name =
      (ElfLoader.loadGroup manager.linkCtx caller).toOption.bind fun scope =>
        findSupplier scope.tail name := by
  have elsewhere : (manager.view.globalScope.any fun module =>
      module.instanceId = handle.instanceId) = false := by
    rw [List.any_eq_false]
    intro module listed
    simpa using outside module listed
  have scope : manager.nextScope caller handle =
      (ElfLoader.loadGroup manager.linkCtx caller).toOption := by
    simp only [Manager.nextScope, elsewhere, Bool.false_eq_true, if_false]
  simp only [nextSupplier, located, found, scope, Option.bind_eq_bind, Option.bind_some]
  cases group : ElfLoader.loadGroup manager.linkCtx caller with
  | error failure => rfl
  | ok scope =>
      obtain ⟨head, _⟩ := rooted caller scope group
      rw [found] at head
      obtain ⟨rest, rfl⟩ := List.head?_eq_some_iff.mp head
      show findSupplier (afterInstance (handle :: rest) handle.instanceId) name = _
      rw [afterInstance_root]
      rfl

/-- `RTLD_NEXT` walks the interposition chain: the calls find the modules of the global
scope that define the name, in scope order and each once, and then fail. A caller outside
the global scope searches its load group after itself and never finds its own definition. -/
theorem next_walks_chain (manager : Manager Ctx) (name : String)
    (distinct : (manager.view.globalScope.map (·.instanceId)).Nodup)
    (locates : LocatesModules manager) (rooted : RootedGroups manager) :
    ((suppliers manager.view.globalScope name).map Prod.fst).Nodup ∧
    (∀ (inside : Nat → Nat) (n : Nat), n ≤ (suppliers manager.view.globalScope name).length →
      (∀ k < n, ∀ supplier, chainSupplier manager name inside k = some supplier →
        supplier.1.Contains (inside k)) →
      chainSupplier manager name inside n = (suppliers manager.view.globalScope name)[n]? ∧
      chainCall manager name inside n =
        symbolResult name ((suppliers manager.view.globalScope name)[n]?.map Prod.snd)) ∧
    ∀ (addr : Nat) (caller : ModuleId) (handle : ModuleHandle),
      ElfLoader.moduleIdAt manager.linkCtx addr = some caller →
      ElfLoader.module manager.linkCtx caller = some handle →
      (∀ module ∈ manager.view.globalScope, module.instanceId ≠ handle.instanceId) →
      dlsymNext manager addr name =
        symbolResult name ((ElfLoader.loadGroup manager.linkCtx caller).toOption.bind
          fun scope => findSymbol scope.tail name) ∧
      ∀ supplier, nextSupplier manager addr name = some supplier → supplier.1 ≠ handle := by
  refine ⟨suppliers_nodup distinct, ?_, ?_⟩
  · intro inside n bounded within
    have walked := chainSupplier_eq distinct locates within
    refine ⟨walked, ?_⟩
    rw [← walked]
    refine chainCall_eq_supplier ?_
    rintro k rfl
    rw [chainSupplier_eq distinct locates fun j below => within j (Nat.lt_succ_of_lt below)]
    exact Option.isSome_iff_exists.mpr ⟨_, List.getElem?_eq_getElem bounded⟩
  · intro addr caller handle located found outside
    have searched : nextSupplier manager addr name =
        (ElfLoader.loadGroup manager.linkCtx caller).toOption.bind fun scope =>
          findSupplier scope.tail name :=
      nextSupplier_outside rooted located found outside
    constructor
    · rw [dlsymNext, nextFind_eq_supplier, searched]
      cases ElfLoader.loadGroup manager.linkCtx caller with
      | error failure => rfl
      | ok scope =>
          exact congrArg (symbolResult name) (findSymbol_eq_supplier scope.tail name).symm
    · intro supplier supplied
      rw [searched] at supplied
      obtain ⟨scope, group, supplied⟩ := Option.bind_eq_some_iff.mp supplied
      obtain ⟨head, nodup⟩ := rooted caller scope (Lib.toOption_eq_some_iff.mp group)
      rw [found] at head
      obtain ⟨rest, rfl⟩ := List.head?_eq_some_iff.mp head
      have later : supplier.1 ∈ rest := by
        rw [List.tail_cons, findSupplier_eq_head?] at supplied
        exact mem_of_suppliers (List.mem_of_getElem? supplied)
      rintro rfl
      exact (List.nodup_cons.mp nodup).1 later

end Chain

/-- A wrapper library in front of the C library, and a library loaded with local scope. -/
def interposedContext : ReferenceContext [] where
  view := { ContextView.empty with
    modules := [
      ⟨⟨0⟩, "libwrapper.so", [], .empty,
        ⟨⟨0⟩, "libwrapper.so", [(0x1000, 0x2000)], [("malloc", 0x1100)], none⟩, []⟩,
      ⟨⟨1⟩, "libc.so.6", [], .empty,
        ⟨⟨1⟩, "libc.so.6", [(0x2000, 0x3000)], [("malloc", 0x2200)], none⟩, []⟩,
      ⟨⟨2⟩, "libplugin.so", [], .empty,
        ⟨⟨2⟩, "libplugin.so", [(0x3000, 0x4000)], [("malloc", 0x3300)], none⟩, [⟨1⟩]⟩]
    globalScope := [
      ⟨⟨0⟩, "libwrapper.so", [(0x1000, 0x2000)], [("malloc", 0x1100)], none⟩,
      ⟨⟨1⟩, "libc.so.6", [(0x2000, 0x3000)], [("malloc", 0x2200)], none⟩] }
  nextId := 3
  nextSerial := 0
  idsBelow := by decide
  serialsBelow _ member := absurd member List.not_mem_nil
  linkMapUnique := by simp [ModuleHandle.linkMap]

def interposedManager : Manager (ReferenceContext []) where
  linkCtx := interposedContext
  handles := ∅
  adds := 0
  subs := 0

theorem interposedManager_locates : LocatesModules interposedManager := by
  intro module listed addr within
  rcases List.mem_pair.mp listed with rfl | rfl
  · obtain ⟨range, member, low, high⟩ := within
    cases List.mem_singleton.mp member
    refine ⟨⟨0⟩, ?_, by decide⟩
    simp [ElfLoader.moduleIdAt, interposedManager, interposedContext, low, high]
  · obtain ⟨range, member, low, high⟩ := within
    cases List.mem_singleton.mp member
    have above : ¬addr < 0x2000 := Nat.not_lt.mpr low
    refine ⟨⟨1⟩, ?_, by decide⟩
    simp [ElfLoader.moduleIdAt, interposedManager, interposedContext, low, high, above]

/-- Two lookups from inside the wrapper and the C library, and one from the plugin. -/
theorem next_walks_chain_wrapper :
    dlsymDefault interposedManager "malloc" = .ok 0x1100 ∧
      dlsymNext interposedManager 0x1234 "malloc" = .ok 0x2200 ∧
      dlsymNext interposedManager 0x3456 "malloc" = .ok 0x2200 := by
  obtain ⟨_, chain, outside⟩ := next_walks_chain interposedManager "malloc" (by decide)
    interposedManager_locates (rootedGroups_of_lawful interposedManager)
  have found : suppliers interposedManager.view.globalScope "malloc" =
      [(⟨⟨0⟩, "libwrapper.so", [(0x1000, 0x2000)], [("malloc", 0x1100)], none⟩, 0x1100),
        (⟨⟨1⟩, "libc.so.6", [(0x2000, 0x3000)], [("malloc", 0x2200)], none⟩, 0x2200)] := by
    decide +kernel
  have first := chain (fun _ => 0x1234) 0 (Nat.zero_le _) (fun _ below => absurd below (by omega))
  rw [found] at first
  have second := chain (fun _ => 0x1234) 1 (by rw [found]; decide) (by
    intro k below supplier supplied
    cases Nat.lt_one_iff.mp below
    cases first.1.symm.trans supplied
    exact ⟨(0x1000, 0x2000), by decide, by decide, by decide⟩)
  rw [found] at second
  refine ⟨first.2, second.2, ?_⟩
  rw [(outside 0x3456 ⟨2⟩ _ (by decide) rfl (by decide)).1]
  decide +kernel

end DynLinker.Api
