import DynLinker.Lib.Bytes
import DynLinker.Loader.ReferenceContext
import DynLinker.Registry.HandleProperties

/-! The directory of a library as `dlinfo` reports it (`symbols/dlfcn.rs` of the
replacement loader): `RTLD_DI_ORIGIN` computes it, `RTLD_DI_ORIGIN_PATH` keeps it in a
cache under the addresses of the link map and of its name. -/

set_option autoImplicit false

namespace DynLinker.Api

open Lib Loader Registry

/-! ## The directory part of a name -/

/-- `rposition`: the index of the last element of a kind. -/
def rposition {Item : Type} (found : Item → Bool) : List Item → Option Nat
  | [] => none
  | item :: rest =>
      match rposition found rest with
      | some index => some (index + 1)
      | none => if found item then some 0 else none

def slash : UInt8 := 0x2f

def originFromName (name : Bytes) : Bytes :=
  match rposition (· = slash) name with
  | some 0 => name.take 1
  | some index => name.take index
  | none => if name = [] then [] else ascii "."

/-- `DirectoryPart name directory`: what stands in front of the last slash. -/
inductive DirectoryPart : Bytes → Bytes → Prop where
  | empty : DirectoryPart [] []
  | plain {name : Bytes} : name ≠ [] → slash ∉ name → DirectoryPart name (ascii ".")
  | root {base : Bytes} : slash ∉ base → DirectoryPart (slash :: base) [slash]
  | nested {directory base : Bytes} : directory ≠ [] → slash ∉ base →
      DirectoryPart (directory ++ slash :: base) directory

theorem rposition_eq_none {Item : Type} {found : Item → Bool} {items : List Item}
    (absent : rposition found items = none) : ∀ item ∈ items, found item = false := by
  induction items with
  | nil => exact fun item member => absurd member List.not_mem_nil
  | cons first rest ih =>
      rw [rposition] at absent
      cases later : rposition found rest with
      | some index =>
          rw [later] at absent
          cases absent
      | none =>
          simp only [later, ite_eq_right_iff, reduceCtorEq, imp_false] at absent
          intro item member
          rcases List.mem_cons.mp member with rfl | inRest
          · exact Bool.eq_false_iff.mpr absent
          · exact ih later item inRest

theorem rposition_eq_some {Item : Type} {found : Item → Bool} {items : List Item} {index : Nat}
    (last : rposition found items = some index) :
    ∃ before item after, items = before ++ item :: after ∧ before.length = index ∧
      found item = true ∧ ∀ other ∈ after, found other = false := by
  induction items generalizing index with
  | nil => cases last
  | cons first rest ih =>
      rw [rposition] at last
      cases later : rposition found rest with
      | some position =>
          rw [later] at last
          cases last
          obtain ⟨before, item, after, rfl, rfl, here, none⟩ := ih later
          exact ⟨first :: before, item, after, rfl, rfl, here, none⟩
      | none =>
          simp only [later] at last
          split at last
          · next here =>
              cases last
              exact ⟨[], first, rest, rfl, rfl, here, rposition_eq_none later⟩
          · cases last

theorem originFromName_directory (name : Bytes) : DirectoryPart name (originFromName name) := by
  rw [originFromName]
  split
  · next last =>
      obtain ⟨before, item, after, rfl, length, here, none⟩ := rposition_eq_some last
      cases List.eq_nil_of_length_eq_zero length
      cases of_decide_eq_true here
      exact .root fun member => by simpa using none slash member
  · next index positive last =>
      obtain ⟨before, item, after, rfl, rfl, here, none⟩ := rposition_eq_some last
      cases of_decide_eq_true here
      rw [List.take_left]
      refine .nested ?_ fun member => by simpa using none slash member
      rintro rfl
      exact positive rfl
  · next last =>
      have absent := rposition_eq_none last
      split
      · next empty =>
          subst empty
          exact .empty
      · next nonempty => exact .plain nonempty fun member => by simpa using absent slash member

/-! ## The requests -/

structure OriginCacheEntry where
  linkMap : Nat
  name : Nat
  origin : Bytes
deriving DecidableEq

/-- The `l_name` of a link map: a pointer, and the C string there. -/
structure LinkMapName where
  ptr : Nat
  bytes : Bytes

/-- What is written to the caller's buffer, without the NUL. -/
def writeOrigin (name : LinkMapName) : Bytes :=
  if name.ptr = 0 then [] else originFromName name.bytes

/-- The entry that the cache holds under two addresses. -/
def cached (cache : List OriginCacheEntry) (linkMap name : Nat) : Option OriginCacheEntry :=
  cache.find? fun entry => entry.linkMap = linkMap ∧ entry.name = name

/-- The string that the result points to, or null. -/
def originPathPtr (cache : List OriginCacheEntry) (linkMap : Nat) (name : LinkMapName) :
    Option Bytes × List OriginCacheEntry :=
  if name.ptr = 0 then (none, cache)
  else match cached cache linkMap name.ptr with
    | some entry => (some entry.origin, cache)
    | none =>
        let origin := originFromName name.bytes
        (some origin, cache ++ [⟨linkMap, name.ptr, origin⟩])

inductive OriginRequest where
  | origin
  | originPath

inductive OriginAnswer where
  | written (text : Bytes)
  | pointed (target : Option Bytes)
deriving DecidableEq

def dlinfoLinkMap (cache : List OriginCacheEntry) (linkMap : Nat) (name : LinkMapName) :
    OriginRequest → OriginAnswer × List OriginCacheEntry
  | .origin => (.written (writeOrigin name), cache)
  | .originPath =>
      let (target, cache) := originPathPtr cache linkMap name
      (.pointed target, cache)

/-- Where the allocator has put a C string. -/
structure NameAddress where
  value : Nat
  nonnull : value ≠ 0

section Names

variable (lName : ModuleHandle → NameAddress)

/-- The name that the observer gave to the link map of a module: `l_name` is `c_name`. -/
def nameOf (module : ModuleHandle) : LinkMapName where
  ptr := (lName module).value
  bytes := ((module.elf.bind (·.userData)).map fun data =>
    untilNul data.cName.toUTF8.data.toList).getD []

variable {Ctx : Type} [ElfLoader Ctx]

/-- The module whose link map lies at an address. -/
def linkMapAt (world : World Ctx) (address : Nat) : Option ModuleHandle :=
  (world.view.modules.find? fun record =>
    record.handle.linkMap.map (·.value) = some address).map (·.handle)

/-- `dlinfo` with one of the two requests; without an answer it returns `-1`. -/
def dlinfo (world : World Ctx) (cache : List OriginCacheEntry) (handle : Nat)
    (request : OriginRequest) (argNull : Bool) : Option OriginAnswer × List OriginCacheEntry :=
  if argNull then (none, cache)
  else match world.manager.handleLinkMap handle with
    | none => (none, cache)
    | some linkMap =>
        match linkMapAt world linkMap with
        | none => (none, cache)
        | some module =>
            let (answer, cache) := dlinfoLinkMap cache linkMap (nameOf lName module) request
            (some answer, cache)

end Names

/-! ## Runs -/

/-- The registry's world and `ORIGIN_CACHE`. -/
structure OriginWorld (Ctx : Type) [ElfLoader Ctx] where
  world : World Ctx
  cache : List OriginCacheEntry

inductive OriginAction (Ctx : Type) [ElfLoader Ctx] where
  | registry (action : Registry.Action Ctx)
  | dlinfo (handle : Nat) (request : OriginRequest) (argNull : Bool)

namespace OriginWorld

variable {Ctx : Type} [ElfLoader Ctx] (lName : ModuleHandle → NameAddress)

/-- The state after an action. -/
def act (state : OriginWorld Ctx) : OriginAction Ctx → Option (OriginWorld Ctx)
  | .registry action =>
      ((state.world.act action).bind Except.toOption).map fun world => ⟨world, state.cache⟩
  | .dlinfo handle request argNull =>
      some ⟨state.world, (Api.dlinfo lName state.world state.cache handle request argNull).2⟩

def system : TransitionSystem (OriginWorld Ctx) (OriginAction Ctx) where
  initial state := state = ⟨.new, []⟩
  step state action next := state.act lName action = some next

/-- Both requests on a live handle give the directory part of the current name. -/
def Consistent (state : OriginWorld Ctx) : Prop :=
  ∀ handle, (state.world.manager.handleLinkMap handle).isSome → ∃ module origin,
    linkMapAt state.world handle = some module ∧
    DirectoryPart (nameOf lName module).bytes origin ∧
    (Api.dlinfo lName state.world state.cache handle .origin false).1 = some (.written origin) ∧
    (Api.dlinfo lName state.world state.cache handle .originPath false).1 =
      some (.pointed (some origin))

/-- The library whose handle a call of `dlopen` is about to return. -/
def handedOut (state : OriginWorld Ctx) : OriginAction Ctx → Option OpenedLibrary
  | .registry (.registerHandle index) => state.world.opened[index]?
  | _ => none

/-- That library has not got the addresses, link map and name, of a cached entry for another
directory. -/
def NoStaleEntry (state : OriginWorld Ctx) (action : OriginAction Ctx) : Prop :=
  ∀ opened ∈ state.handedOut action, ∀ root ∈ opened.scope.head?, ∀ address ∈ root.linkMap,
    ∀ entry ∈ cached state.cache address.value (lName root).value,
      entry.origin = originFromName (nameOf lName root).bytes

instance (state : OriginWorld Ctx) (action : OriginAction Ctx) :
    Decidable (state.NoStaleEntry lName action) :=
  inferInstanceAs (Decidable (∀ opened ∈ state.handedOut action, ∀ root ∈ opened.scope.head?,
    ∀ address ∈ root.linkMap, ∀ entry ∈ cached state.cache address.value (lName root).value,
      entry.origin = originFromName (nameOf lName root).bytes))

/-- The entry that is found for a live handle has the directory of its name. -/
def CacheAgrees (state : OriginWorld Ctx) : Prop :=
  ∀ handle entry root, state.world.manager.handles.lookup handle = some entry →
    entry.opened.scope.head? = some root →
    ∀ found ∈ cached state.cache handle (lName root).value,
      found.origin = originFromName (nameOf lName root).bytes

variable {lName}

/-! ## Live handles -/

section Handles

variable [LawfulElfLoader Ctx] {world : World Ctx}

theorem linkMapAt_eq {root : ModuleHandle} {id : ModuleId} {address : LinkMapAddress}
    (found : world.view.handleOf id = some root) (mapped : root.linkMap = some address) :
    linkMapAt world address.value = some root := by
  obtain ⟨record, member, rfl, rfl⟩ := ContextView.handleOf_mem_order found
  have here : record.handle.linkMap.map (·.value) = some address.value := by rw [mapped]; rfl
  have some_ : (world.view.modules.find? fun other =>
      other.handle.linkMap.map (·.value) = some address.value).isSome := by
    rw [List.find?_isSome]
    exact ⟨record, member, decide_eq_true here⟩
  obtain ⟨other, present⟩ := Option.isSome_iff_exists.mp some_
  have matching := List.find?_some present
  obtain ⟨same, otherMapped, sameValue⟩ := Option.map_eq_some_iff.mp (of_decide_eq_true matching)
  cases LinkMapAddress.eq_of_value sameValue
  have equal := LawfulElfLoader.linkMap_unique world.manager.linkCtx other record address
    (List.mem_of_find?_eq_some present) member otherMapped mapped
  rw [linkMapAt, present, equal]
  rfl

theorem root_of_opened (tabled : Tabled world) {opened : OpenedLibrary}
    (held : opened ∈ world.openedValues) {address : LinkMapAddress}
    (mapped : opened.linkMap = .ok address) :
    ∃ root, opened.scope.head? = some root ∧ root.linkMap = some address ∧
      linkMapAt world address.value = some root := by
  have rooted := tabled.rooted opened held
  obtain ⟨lease, root, leased, found, rootMap⟩ := linkMap_of_rooted rooted mapped
  obtain ⟨other, same, otherLease, otherFound, head⟩ := rooted
  rw [leased] at otherLease
  cases otherLease
  cases found.symm.trans otherFound
  exact ⟨root, head, rootMap, linkMapAt_eq found rootMap⟩

/-- The module of a live handle is the root of its scope, and its link map is the handle. -/
theorem root_of_live (tabled : Tabled world) {handle : Nat} {entry : HandleState}
    (live : world.manager.handles.lookup handle = some entry) :
    ∃ root, entry.opened.scope.head? = some root ∧ linkMapAt world handle = some root := by
  obtain ⟨⟨address, mapped, rfl⟩, _⟩ := tabled.keyed handle entry live
  have kept : entry.opened ∈ world.openedValues :=
    List.mem_append_right _ (List.mem_map.mpr
      ⟨⟨address.value, entry⟩, AList.mem_lookup_iff.mp live, rfl⟩)
  obtain ⟨root, head, _, lies⟩ := root_of_opened tabled kept mapped
  exact ⟨root, head, lies⟩

omit [LawfulElfLoader Ctx] in
theorem handleLinkMap_of_live {handle : Nat} {entry : HandleState}
    (live : world.manager.handles.lookup handle = some entry) :
    world.manager.handleLinkMap handle = some handle := by
  rw [Manager.handleLinkMap, live]
  rfl

omit [LawfulElfLoader Ctx] in
theorem live_of_handleLinkMap {handle : Nat}
    (known : (world.manager.handleLinkMap handle).isSome) :
    ∃ entry, world.manager.handles.lookup handle = some entry := by
  rw [Manager.handleLinkMap] at known
  split at known
  · next live => exact Option.isSome_iff_exists.mp live
  · cases known

omit [LawfulElfLoader Ctx] in
theorem dlinfo_live {handle : Nat} {root : ModuleHandle} (cache : List OriginCacheEntry)
    (request : OriginRequest) (known : world.manager.handleLinkMap handle = some handle)
    (lies : linkMapAt world handle = some root) :
    Api.dlinfo lName world cache handle request false =
      (some (dlinfoLinkMap cache handle (nameOf lName root) request).1,
        (dlinfoLinkMap cache handle (nameOf lName root) request).2) := by
  simp only [Api.dlinfo, Bool.false_eq_true, if_false, known, lies]

end Handles

theorem writeOrigin_nameOf (module : ModuleHandle) :
    writeOrigin (nameOf lName module) = originFromName (nameOf lName module).bytes :=
  if_neg (lName module).nonnull

theorem originPathPtr_nameOf (cache : List OriginCacheEntry) (linkMap : Nat)
    (module : ModuleHandle) :
    originPathPtr cache linkMap (nameOf lName module) =
      match cached cache linkMap (lName module).value with
      | some entry => (some entry.origin, cache)
      | none => (some (originFromName (nameOf lName module).bytes), cache ++
          [⟨linkMap, (lName module).value, originFromName (nameOf lName module).bytes⟩]) :=
  if_neg (lName module).nonnull

variable [LawfulElfLoader Ctx] {state next : OriginWorld Ctx}

/-- The two requests agree exactly if what is cached under a live handle's addresses has
the directory of its name. -/
theorem consistent_iff (tabled : Tabled state.world) :
    state.Consistent lName ↔ state.CacheAgrees lName := by
  constructor
  · intro consistent handle entry root live head found present
    have known := handleLinkMap_of_live live
    obtain ⟨module, origin, lies, _, written, pointed⟩ :=
      consistent handle (by rw [known]; rfl)
    obtain ⟨other, otherHead, otherLies⟩ := root_of_live tabled live
    cases head.symm.trans otherHead
    cases otherLies.symm.trans lies
    rw [dlinfo_live _ _ known lies] at written pointed
    have text : writeOrigin (nameOf lName root) = origin := by
      simpa [dlinfoLinkMap] using written
    have target : (originPathPtr state.cache handle (nameOf lName root)).1 = some origin := by
      simpa [dlinfoLinkMap] using pointed
    rw [originPathPtr_nameOf, Option.mem_def.mp present] at target
    rw [writeOrigin_nameOf] at text
    rw [text]
    exact Option.some.inj target
  · intro agrees handle known
    obtain ⟨entry, live⟩ := live_of_handleLinkMap known
    obtain ⟨root, head, lies⟩ := root_of_live tabled live
    refine ⟨root, _, lies, originFromName_directory _, ?_, ?_⟩
    · rw [dlinfo_live _ _ (handleLinkMap_of_live live) lies, dlinfoLinkMap, writeOrigin_nameOf]
    · rw [dlinfo_live _ _ (handleLinkMap_of_live live) lies]
      simp only [dlinfoLinkMap, originPathPtr_nameOf]
      cases present : cached state.cache handle (lName root).value with
      | none => rfl
      | some found =>
          simp only
          rw [agrees handle entry root live head found present]

/-! ## One step -/

theorem cached_append_self {cache : List OriginCacheEntry} {entry : OriginCacheEntry}
    (absent : cached cache entry.linkMap entry.name = none) :
    cached (cache ++ [entry]) entry.linkMap entry.name = some entry := by
  rw [cached] at absent ⊢
  rw [List.find?_append, absent, List.find?_singleton]
  simp

theorem cached_append_other {cache : List OriginCacheEntry} {entry : OriginCacheEntry}
    {linkMap name : Nat} (other : entry.linkMap ≠ linkMap) :
    cached (cache ++ [entry]) linkMap name = cached cache linkMap name := by
  rw [cached, List.find?_append, List.find?_singleton]
  simp [other, cached]

omit [LawfulElfLoader Ctx] in
/-- A request keeps the cache or adds what it computes for a live handle. -/
theorem dlinfo_cache (world : World Ctx) (cache : List OriginCacheEntry) (handle : Nat)
    (request : OriginRequest) (argNull : Bool) :
    (Api.dlinfo lName world cache handle request argNull).2 = cache ∨
      ∃ root, linkMapAt world handle = some root ∧
        cached cache handle (lName root).value = none ∧
        (Api.dlinfo lName world cache handle request argNull).2 = cache ++
          [⟨handle, (lName root).value, originFromName (nameOf lName root).bytes⟩] := by
  cases argNull with
  | true => exact .inl rfl
  | false =>
      cases known : world.manager.handleLinkMap handle with
      | none =>
          refine .inl ?_
          simp only [Api.dlinfo, known]
          rfl
      | some linkMap =>
          have same : linkMap = handle := by
            rw [Manager.handleLinkMap] at known
            split at known
            · exact (Option.some.inj known).symm
            · cases known
          subst same
          cases lies : linkMapAt world linkMap with
          | none =>
              refine .inl ?_
              simp only [Api.dlinfo, known, lies]
              rfl
          | some root =>
              rw [dlinfo_live cache request known lies]
              cases request with
              | origin => exact .inl rfl
              | originPath =>
                  simp only [dlinfoLinkMap, originPathPtr_nameOf]
                  cases absent : cached cache linkMap (lName root).value with
                  | some entry => exact .inl rfl
                  | none => exact .inr ⟨root, rfl, absent, rfl⟩

theorem CacheAgrees.dlinfo (agrees : state.CacheAgrees lName) (tabled : Tabled state.world)
    (handle : Nat) (request : OriginRequest) (argNull : Bool) :
    CacheAgrees lName
      ⟨state.world, (Api.dlinfo lName state.world state.cache handle request argNull).2⟩ := by
  rcases dlinfo_cache state.world state.cache handle request argNull with
    same | ⟨root, lies, absent, added⟩
  · rw [same]
    exact agrees
  · rw [added]
    intro other entry otherRoot live head found present
    by_cases here : handle = other
    · subst here
      obtain ⟨_, knownHead, knownLies⟩ := root_of_live tabled live
      cases head.symm.trans knownHead
      cases knownLies.symm.trans lies
      let fresh : OriginCacheEntry :=
        ⟨handle, (lName root).value, originFromName (nameOf lName root).bytes⟩
      have last : cached (state.cache ++ [fresh]) handle (lName root).value = some fresh :=
        cached_append_self absent
      have same := Option.some.inj (present.symm.trans last)
      rw [same]
    · rw [cached_append_other here] at present
      exact agrees other entry otherRoot live head found present

omit [LawfulElfLoader Ctx] in
theorem opens_of_transition {before after : World Ctx} {action : Registry.Action Ctx}
    (step : World.Transition before action after)
    (other : ∀ index, action ≠ .registerHandle index) : after.opens = before.opens := by
  cases step with
  | registerHandle _ _ => exact absurd rfl (other _)
  | @openWith _ _ _ _ _ outcome _ _ =>
      cases outcome with
      | finished result =>
          cases result with
          | ok opened => rfl
          | error failure => rfl
      | prepared flags pending => rfl
  | _ => rfl

/-- Steps that register no handle leave every live handle its module. -/
theorem CacheAgrees.registry {after : World Ctx} (agrees : state.CacheAgrees lName)
    (effect : StepEffect state.world after) (opens : after.opens = state.world.opens) :
    CacheAgrees lName ⟨after, state.cache⟩ := by
  cases effect.table with
  | same handles _ _ =>
      intro handle entry root live
      rw [handles] at live
      exact agrees handle entry root live
  | registered opened handle _ _ counted _ =>
      have more := congrFun (counted.symm.trans opens) handle
      rw [Function.update_self] at more
      omega
  | closed handle unloaded releasing _ _ =>
      obtain ⟨old, inner, found, _, _, handles⟩ := Manager.releaseHandle_spec releasing
      intro other entry root live head
      rw [handles] at live
      by_cases here : other = handle
      · subst here
        rw [Manager.replaceHandle_lookup] at live
        have same : entry.opened = old.opened := by
          rw [HandleState.pop] at live
          split at live
          · cases live
            rfl
          · cases live
        exact agrees other old root found (same ▸ head)
      · rw [Manager.replaceHandle_lookup_ne _ here] at live
        exact agrees other entry root live head

/-- A library is handed out: its own name is all that the cache has to agree with anew. -/
theorem CacheAgrees.registerHandle_iff {after : World Ctx} {opened : OpenedLibrary} {handle : Nat}
    (agrees : state.CacheAgrees lName) (tabled : Tabled state.world)
    (held : opened ∈ state.world.openedValues)
    (registering : state.world.manager.registerHandle opened = .ok (handle, after.manager)) :
    CacheAgrees lName ⟨after, state.cache⟩ ↔
      ∀ root ∈ opened.scope.head?, ∀ address ∈ root.linkMap,
        ∀ entry ∈ cached state.cache address.value (lName root).value,
          entry.origin = originFromName (nameOf lName root).bytes := by
  obtain ⟨address, mapped, rfl, manager⟩ := Manager.registerHandle_spec registering
  obtain ⟨root, head, rootMap, lies⟩ := root_of_opened tabled held mapped
  -- an older entry of the handle has the same root
  have newHead : (HandleState.push (state.world.manager.handles.lookup address.value)
      opened).opened.scope.head? = some root := by
    cases live : state.world.manager.handles.lookup address.value with
    | none => exact head
    | some old =>
        obtain ⟨oldRoot, oldHead, oldLies⟩ := root_of_live tabled live
        cases lies.symm.trans oldLies
        exact oldHead
  constructor
  · intro agreed otherRoot otherHead otherAddress otherMap
    cases head.symm.trans otherHead
    cases rootMap.symm.trans otherMap
    refine agreed address.value _ root ?_ newHead
    rw [manager]
    exact AList.lookup_insert _
  · intro fresh other entry otherRoot live otherHead
    rw [manager] at live
    by_cases here : other = address.value
    · subst here
      cases (AList.lookup_insert _).symm.trans live
      cases newHead.symm.trans otherHead
      exact fresh root head address rootMap
    · rw [AList.lookup_insert_ne here] at live
      exact agrees other entry otherRoot live otherHead

structure Valid (lName : ModuleHandle → NameAddress) (state : OriginWorld Ctx) : Prop where
  tabled : Tabled state.world
  agrees : state.CacheAgrees lName

/-- The step lemma: after a step from a valid state the cache agrees exactly if the step
handed out no library with a stale entry. -/
theorem Valid.step (valid : state.Valid lName) {action : OriginAction Ctx}
    (accepted : state.act lName action = some next) :
    Tabled next.world ∧ (next.CacheAgrees lName ↔ state.NoStaleEntry lName action) := by
  cases action with
  | dlinfo handle request argNull =>
      cases accepted
      exact ⟨valid.tabled, iff_of_true (valid.agrees.dlinfo valid.tabled _ _ _)
        fun _ handed => nomatch handed⟩
  | registry action =>
      obtain ⟨after, acted, rfl⟩ := Option.map_eq_some_iff.mp accepted
      have possible := bind_toOption_eq_some_iff.mp acted
      have effect := act_effect valid.tabled.conserved possible
      refine ⟨tabled_effect valid.tabled effect, ?_⟩
      have transition := World.transition_of_act possible
      by_cases registers : ∃ index, action = .registerHandle index
      · obtain ⟨index, rfl⟩ := registers
        cases transition with
        | @registerHandle _ _ opened _ present registering =>
            have held : opened ∈ state.world.openedValues :=
              List.mem_append_left _ (List.mem_append_left _ (List.mem_of_getElem? present))
            refine (valid.agrees.registerHandle_iff valid.tabled held registering).trans ?_
            constructor
            · intro fresh other same
              cases present.symm.trans same
              exact fresh
            · intro fresh
              exact fresh opened present
      · have others : ∀ index, action ≠ .registerHandle index :=
          fun index same => registers ⟨index, same⟩
        refine iff_of_true (valid.agrees.registry effect (opens_of_transition transition others)) ?_
        intro opened handed
        cases action with
        | registerHandle index => exact absurd rfl (others index)
        | _ => cases handed

theorem valid_inductive :
    ((system lName).restrict (NoStaleEntry lName) :
      TransitionSystem (OriginWorld Ctx) (OriginAction Ctx)).Inductive (Valid lName) where
  initially state initial := by
    cases initial
    exact ⟨tabled_new, fun handle entry root live => by cases live⟩
  preserved state action next valid step := by
    obtain ⟨tabled, agrees⟩ := valid.step step.2
    exact ⟨tabled, agrees.mpr step.1⟩

/-- In every run that hands out no library whose two addresses have a cached entry of another
directory, both requests agree on every live handle; the next step keeps that exactly if it
hands out none either. -/
theorem origin_paths_consistent_iff (lName : ModuleHandle → NameAddress)
    (state : OriginWorld Ctx)
    (reached : ((system lName).restrict (NoStaleEntry lName)).Reachable state) :
    state.Consistent lName ∧
      ∀ (action : OriginAction Ctx) (next : OriginWorld Ctx),
        (system lName).step state action next →
        (next.Consistent lName ↔ state.NoStaleEntry lName action) := by
  have valid : Valid lName state := valid_inductive.reachable reached
  refine ⟨(consistent_iff valid.tabled).mpr valid.agrees, ?_⟩
  intro action next step
  obtain ⟨tabled, agrees⟩ := valid.step step
  exact (consistent_iff tabled).trans agrees

omit [LawfulElfLoader Ctx] in
theorem run_of_runLabels {condition : OriginWorld Ctx → OriginAction Ctx → Prop}
    [∀ state action, Decidable (condition state action)] {start finish : OriginWorld Ctx}
    {actions : List (OriginAction Ctx)}
    (ran : TransitionSystem.runLabels (fun state action =>
      if condition state action then act lName state action else none) start actions =
        some finish) :
    ((system lName).restrict condition).Run start actions finish :=
  TransitionSystem.Run.runGuarded (fun _ _ _ accepted => accepted) ran

end OriginWorld

/-! ## Two libraries, one pair of addresses -/

/-- A library that gets its link map at `0x840`. -/
def pluginIn (path : String) (instanceId : InstanceId) : GraphModule where
  key := path
  handle := ⟨instanceId, path, [(0x20000, 0x24000)], [],
    some ⟨none, path, [], 0x20000, none, none, some ⟨path, ⟨0x840, by decide⟩⟩⟩⟩
  flags := OpenFlags.empty
  dependencies := []

abbrev ReuseContext : Type :=
  ReferenceContext [("/one/libplugin.so", pluginIn "/one/libplugin.so" ⟨1⟩),
    ("/two/libplugin.so", pluginIn "/two/libplugin.so" ⟨2⟩)]

def sameName (_ : ModuleHandle) : NameAddress := ⟨0x940, by decide⟩

/-- `dlopen` of a path. -/
def dlopenActions (path : String) : List (OriginAction ReuseContext) :=
  [.registry (.openWith false path .rtldNow (.file path) none), .registry (.publish 0),
    .registry (.initialised 0), .registry (.registerHandle 0)]

/-- A library is asked for its directory and closed, and another gets its addresses. -/
def reuseActions : List (OriginAction ReuseContext) :=
  dlopenActions "/one/libplugin.so" ++
    [.dlinfo 0x840 .originPath false, .registry (.dlclose 0x840)] ++
    dlopenActions "/two/libplugin.so"

namespace OriginWorld

def new : OriginWorld ReuseContext := ⟨.new, []⟩

/-- As long as the first library lives, the requests agree. -/
theorem origin_paths_consistent_first :
    ∃ state, ((system sameName).restrict (NoStaleEntry sameName)).Run new
        (dlopenActions "/one/libplugin.so" ++ [.dlinfo 0x840 .originPath false]) state ∧
      state.cache = [⟨0x840, 0x940, ascii "/one"⟩] ∧ state.Consistent sameName := by
  have evaluated : (TransitionSystem.runLabels (fun state action =>
      if NoStaleEntry sameName state action then act sameName state action else none) new
      (dlopenActions "/one/libplugin.so" ++ [.dlinfo 0x840 .originPath false])).map
        (fun state => state.cache) = some [⟨0x840, 0x940, ascii "/one"⟩] := by
    decide +kernel
  obtain ⟨state, ran, cache⟩ := Option.map_eq_some_iff.mp evaluated
  have run := run_of_runLabels ran
  have reached : ((system sameName).restrict (NoStaleEntry sameName)).Reachable state :=
    ⟨_, _, rfl, run⟩
  exact ⟨state, run, cache, (origin_paths_consistent_iff sameName state reached).1⟩

/-- The second library is told the directory of the first. -/
theorem origin_path_stale :
    ∃ state, (system sameName).Run new reuseActions state ∧
      (Api.dlinfo sameName state.world state.cache 0x840 .origin false).1 =
        some (.written (ascii "/two")) ∧
      (Api.dlinfo sameName state.world state.cache 0x840 .originPath false).1 =
        some (.pointed (some (ascii "/one"))) ∧
      ¬state.Consistent sameName := by
  have evaluated : (TransitionSystem.runLabels (fun state action =>
      if True then act sameName state action else none) new reuseActions).map (fun state =>
        decide ((state.world.manager.handleLinkMap 0x840).isSome = true ∧
          (Api.dlinfo sameName state.world state.cache 0x840 .origin false).1 =
            some (.written (ascii "/two")) ∧
          (Api.dlinfo sameName state.world state.cache 0x840 .originPath false).1 =
            some (.pointed (some (ascii "/one"))))) = some true := by
    decide +kernel
  obtain ⟨state, ran, facts⟩ := Option.map_eq_some_iff.mp evaluated
  obtain ⟨live, written, pointed⟩ := of_decide_eq_true facts
  refine ⟨state, (run_of_runLabels ran).unrestrict, written, pointed, ?_⟩
  intro consistent
  obtain ⟨_, origin, _, _, direct, cachedPath⟩ := consistent 0x840 live
  cases direct.symm.trans written
  exact absurd (cachedPath.symm.trans pointed) (by decide)

end OriginWorld

end DynLinker.Api
