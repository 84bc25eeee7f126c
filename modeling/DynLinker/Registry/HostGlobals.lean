import DynLinker.Lib.Folds
import DynLinker.Lib.LinkedList
import DynLinker.Lib.Words
import DynLinker.Registry.HostObjects
import DynLinker.Startup.SearchPaths

/-! What the host's libc is asked for before its objects are taken over (`find_iterate_phdr`
and `update_libc_globals` in `runtime/host.rs`): its `dl_iterate_phdr`, and the variables that
hold the arguments and the environment. `get_env` in `dlopen/run.rs` reads the latter. -/

set_option autoImplicit false

namespace DynLinker.Registry

open Lib Loader Startup

/-- A link map of the host; zero is the null pointer, and a null name is the empty one. -/
structure HostMap extends RawLinkMap where
  lNext : Nat

/-- `ARGC`, `ARGV`, `ENVP`, `LIBC_THREAD_ATEXIT` and `IS_MUSL`. -/
@[ext] structure HostGlobals where
  argc : Nat
  argv : Nat
  envp : Nat
  threadAtexit : Option Nat
  isMusl : Bool

/-- The addresses of the symbols that an object defines. -/
abbrev Exports := String → Option Nat

/-- What the walk reads. `newUnchecked` is the ELF loader crate: it may refuse an object, and
finds the symbols of the others. -/
structure HostProcess where
  checks : Bool
  image : HostImage
  table : Nat
  memory : ByteMemory
  mapAt : Nat → HostMap
  newUnchecked : RawObject → Except LinkError Exports

/-- `str::contains`. -/
def named (text part : String) : Bool := decide (part.toList <:+: text.toList)

def isLibcName (name : String) : Bool :=
  (named name "libc" || named name "ld-musl") && named name ".so"

/-- A `c_int` as `usize`. -/
def cIntAsUsize (word : Nat) : Nat := if word < 2 ^ 31 then word else word + (2 ^ 64 - 2 ^ 32)

/-- A global that is only set while it is null. -/
def setOnce (current : Nat) (found : Option Nat) : Nat :=
  if current = 0 then found.getD current else current

def initLibcThreadAtexit (get : Exports) (globals : HostGlobals) : HostGlobals :=
  if globals.threadAtexit.isSome then globals
  else { globals with threadAtexit := get "__cxa_thread_atexit_impl" }

theorem initLibcThreadAtexit_eq (get : Exports) (globals : HostGlobals) :
    initLibcThreadAtexit get globals = { globals with
      threadAtexit := globals.threadAtexit <|> get "__cxa_thread_atexit_impl" } := by
  obtain ⟨_, _, _, threadAtexit, _⟩ := globals
  cases threadAtexit <;> rfl

structure HostSearch where
  globals : HostGlobals
  iterPhdr : Option Nat

namespace HostProcess

variable (host : HostProcess)

def argcOf (get : Exports) : Option Nat :=
  (get "__libc_argc" <|> get "__argc").map fun place => cIntAsUsize (host.memory.word 4 place)

/-- The place of the variable, not what it holds. -/
def argvOf (get : Exports) : Option Nat := get "__libc_argv" <|> get "__argv"

def envpOf (get : Exports) : Option Nat :=
  (get "environ" <|> get "__environ").map (host.memory.word 8)

def updateLibcGlobals (get : Exports) (globals : HostGlobals) : HostGlobals :=
  { globals with
    argc := setOnce globals.argc (host.argcOf get)
    argv := setOnce globals.argv (argvOf get)
    envp := setOnce globals.envp (host.envpOf get) }

/-- A refusal of the crate is dropped. -/
def rebuild (isMusl : Bool) (map : HostMap) : Except HostStop (Option Exports) := do
  let found ← fromRaw host.checks isMusl host.image host.newUnchecked host.table map.lName
    map.lAddr map.lLd none (some map.toRawLinkMap)
  return found.toOption.join

/-- The part of the loop body for an object that could be rebuilt. -/
def visitLibrary (search : HostSearch) (isLibc : Bool) (get : Exports) : HostSearch where
  globals := host.updateLibcGlobals get
    (if isLibc then initLibcThreadAtexit get search.globals else search.globals)
  iterPhdr :=
    if isLibc ∧ search.iterPhdr = none then get "dl_iterate_phdr" else search.iterPhdr

def visitMap (search : HostSearch) (map : HostMap) : Except HostStop HostSearch :=
  let isMusl := search.globals.isMusl || named map.lName "ld-musl"
  let search := { search with globals := { search.globals with isMusl := isMusl } }
  if map.lName = "" ∨ isLibcName map.lName then do
    match ← host.rebuild isMusl map with
    | none => return search
    | some get => return host.visitLibrary search (isLibcName map.lName) get
  else .ok search

/-- The loop over `LinkMapIter`; `none` if it has not ended after so many maps. -/
def iterateMaps : Nat → Nat → HostSearch → Except HostStop (Option HostSearch)
  | 0, _, _ => .ok none
  | rounds + 1, current, search =>
      if current = 0 then .ok (some search)
      else do
        let next ← host.visitMap search (host.mapAt current)
        iterateMaps rounds (host.mapAt current).lNext next

def findIteratePhdr (rounds start : Nat) (globals : HostGlobals) :
    Except HostStop (Option (Option Nat × HostGlobals)) :=
  if start = 0 then .ok (some (none, globals))
  else do
    match ← host.iterateMaps rounds start ⟨globals, none⟩ with
    | none => return none
    | some search =>
        let iter ← orPanic (expectSome
          "iterate_phdr: could not find libc with dl_iterate_phdr" search.iterPhdr)
        return some (some iter, search.globals)

/-- The loop of `get_env` from an entry of the environment on. -/
def getEnvFrom (cstr : Nat → Bytes) (name : Bytes) : Nat → Nat → Option (Option Bytes)
  | 0, _ => none
  | rounds + 1, cur =>
      let env := host.memory.word 8 cur
      if env = 0 then some none
      else
        match envValue name (cstr env) with
        | some value => some (some value)
        | none => getEnvFrom cstr name rounds (cur + 8)

/-- `get_env`. -/
def getEnvAt (cstr : Nat → Bytes) (rounds envp : Nat) (name : Bytes) : Option (Option Bytes) :=
  if envp = 0 then some none else host.getEnvFrom cstr name rounds envp

/-! ## One object after the other -/

/-- The objects that are asked, each with whether it is taken for the libc. -/
def libraries : Bool → List HostMap → List (Bool × Exports)
  | _, [] => []
  | isMusl, map :: rest =>
      let isMusl := isMusl || named map.lName "ld-musl"
      let later := libraries isMusl rest
      if map.lName = "" ∨ isLibcName map.lName then
        match host.rebuild isMusl map with
        | .ok (some get) => (isLibcName map.lName, get) :: later
        | .ok none | .error _ => later
      else later

def libcExport (libraries : List (Bool × Exports)) (name : String) : Option Nat :=
  (libraries.filter Prod.fst).findSome? fun library => library.2 name

/-- What was found in these objects: the first answer counts, for a variable the first that
is not null. -/
structure Found (libraries : List (Bool × Exports)) (isMusl : Bool) (before after : HostSearch) :
    Prop where
  argc : after.globals.argc =
    firstNonzero (before.globals.argc :: libraries.filterMap fun library => host.argcOf library.2)
  argv : after.globals.argv =
    firstNonzero (before.globals.argv :: libraries.filterMap fun library => argvOf library.2)
  envp : after.globals.envp =
    firstNonzero (before.globals.envp :: libraries.filterMap fun library => host.envpOf library.2)
  threadAtexit : after.globals.threadAtexit =
    (before.globals.threadAtexit <|> libcExport libraries "__cxa_thread_atexit_impl")
  iterPhdr : after.iterPhdr = (before.iterPhdr <|> libcExport libraries "dl_iterate_phdr")
  isMusl : after.globals.isMusl = isMusl

theorem setOnce_eq (current : Nat) (found : Option Nat) :
    setOnce current found = firstNonzero (current :: [found].filterMap id) := by
  cases found with
  | none =>
      rw [setOnce, firstNonzero_cons]
      split
      · next zero => simp [zero]
      · rfl
  | some value =>
      by_cases zero : current = 0
      · by_cases null : value = 0
        · simp [setOnce, firstNonzero_cons, zero, null]
        · simp [setOnce, firstNonzero_cons, zero, null]
      · simp [setOnce, firstNonzero_cons, zero]

theorem libcExport_append (early late : List (Bool × Exports)) (name : String) :
    libcExport (early ++ late) name = (libcExport early name <|> libcExport late name) := by
  simp [libcExport, List.findSome?_append]

variable {host}

theorem Found.refl {search : HostSearch} : host.Found [] search.globals.isMusl search search where
  argc := by simp
  argv := by simp
  envp := by simp
  threadAtexit := by simp [libcExport]
  iterPhdr := by simp [libcExport]
  isMusl := rfl

/-- What the later objects are asked for starts from what the earlier ones gave. -/
theorem Found.trans {early late : List (Bool × Exports)} {first second : Bool}
    {before middle after : HostSearch} (one : host.Found early first before middle)
    (two : host.Found late second middle after) :
    host.Found (early ++ late) second before after where
  argc := by
    rw [two.argc, one.argc, firstNonzero_append, List.filterMap_append, List.cons_append]
  argv := by
    rw [two.argv, one.argv, firstNonzero_append, List.filterMap_append, List.cons_append]
  envp := by
    rw [two.envp, one.envp, firstNonzero_append, List.filterMap_append, List.cons_append]
  threadAtexit := by
    rw [two.threadAtexit, one.threadAtexit, libcExport_append, Option.orElse_eq_orElse]
    cases before.globals.threadAtexit <;> rfl
  iterPhdr := by
    rw [two.iterPhdr, one.iterPhdr, libcExport_append]
    cases before.iterPhdr <;> rfl
  isMusl := two.isMusl

theorem visitLibrary_found (search : HostSearch) (isLibc : Bool) (get : Exports) :
    host.Found [(isLibc, get)] search.globals.isMusl search
      (host.visitLibrary search isLibc get) := by
  cases isLibc with
  | false =>
      refine ⟨setOnce_eq _ (host.argcOf get), setOnce_eq _ (argvOf get),
        setOnce_eq _ (host.envpOf get), ?_, ?_, rfl⟩
      · simp [visitLibrary, updateLibcGlobals, libcExport]
      · simp [visitLibrary, libcExport]
  | true =>
      rw [visitLibrary, if_pos rfl, initLibcThreadAtexit_eq]
      refine ⟨setOnce_eq _ (host.argcOf get), setOnce_eq _ (argvOf get),
        setOnce_eq _ (host.envpOf get), ?_, ?_, rfl⟩
      · simp [updateLibcGlobals, libcExport]
      · cases search.iterPhdr <;> simp [libcExport]

/-- What an object is rebuilt from is mapped, its file header at its base, and the extent of
its segments does not overflow. -/
structure Rebuilds (host : HostProcess) (map : HostMap) : Prop where
  table : host.image.tableAt map.lLd ≠ []
  header : ∃ entry, host.image.entryAt map.lAddr = some entry
  phdrs : ∃ phdrs, host.image.phdrsAt map.lAddr = some phdrs ∧
    ∀ phdr ∈ phdrs, phdr.IsLoad → phdr.stop + 0xfff < 2 ^ 64

/-- An object that is asked can be rebuilt, or has no dynamic table. -/
def Fits (map : HostMap) : Prop :=
  map.lName = "" ∨ isLibcName map.lName → map.lLd ≠ 0 → host.Rebuilds map

theorem rebuild_total {map : HostMap} (isMusl : Bool)
    (fits : map.lLd ≠ 0 → host.Rebuilds map) : ∃ found, host.rebuild isMusl map = .ok found := by
  rw [rebuild, fromRaw]
  by_cases null : map.lLd = 0
  · rw [if_pos null]
    exact ⟨none, rfl⟩
  · obtain ⟨mapped, ⟨entry, header⟩, phdrs, found, inside⟩ := fits null
    obtain ⟨len, measured, _, least⟩ := loadLen_spec host.checks fun phdr listed load =>
      Nat.lt_of_le_of_lt (Nat.le_add_right _ _) (inside phdr listed load)
    have small : len + 0xfff < 2 ^ 64 := by
      have bounded : len ≤ 2 ^ 64 - 0x1000 := by
        apply least
        intro phdr listed load
        have below := inside phdr listed load
        omega
      omega
    simp only [if_neg null, keptTable_eq mapped, phdrsOf, readable, found, header, orPanic,
      Except.mapError, Option.bind_none, Option.mapM_none, measured,
      plainAdd_of_lt host.checks small, bind, Except.bind, pure, Except.pure]
    exact ⟨_, rfl⟩

/-- An object without a file header at its base, such as a program that was linked to a fixed
address, ends the process. -/
theorem rebuild_faults {map : HostMap} (isMusl : Bool) (table : map.lLd ≠ 0)
    (mapped : host.image.tableAt map.lLd ≠ []) (absent : host.image.phdrsAt map.lAddr = none) :
    host.rebuild isMusl map = .error (.faulted map.lAddr) := by
  simp only [rebuild, fromRaw, if_neg table, keptTable_eq mapped, phdrsOf, absent, readable, bind,
    Except.bind]

theorem Found.unmark {libraries : List (Bool × Exports)} {isMusl marked : Bool}
    {search after : HostSearch} (found : host.Found libraries isMusl
      { search with globals := { search.globals with isMusl := marked } } after) :
    host.Found libraries isMusl search after :=
  ⟨found.argc, found.argv, found.envp, found.threadAtexit, found.iterPhdr, found.isMusl⟩

/-- One turn of the loop adds what the object, if it is asked, gives. -/
theorem visitMap_found {map : HostMap} (search : HostSearch) (fits : host.Fits map)
    (rest : List HostMap) :
    ∃ after one, host.visitMap search map = .ok after ∧
      host.Found one (search.globals.isMusl || named map.lName "ld-musl") search after ∧
      host.libraries search.globals.isMusl (map :: rest) =
        one ++ host.libraries (search.globals.isMusl || named map.lName "ld-musl") rest := by
  by_cases asked : map.lName = "" ∨ isLibcName map.lName
  · obtain ⟨found, rebuilt⟩ :=
      rebuild_total (search.globals.isMusl || named map.lName "ld-musl") (fits asked)
    cases found with
    | none =>
        refine ⟨_, [], ?_, Found.refl.unmark, ?_⟩
        · simp only [visitMap, if_pos asked, rebuilt]
          rfl
        · simp only [libraries, if_pos asked, rebuilt, List.nil_append]
    | some get =>
        refine ⟨_, [(isLibcName map.lName, get)], ?_, (visitLibrary_found _ _ _).unmark, ?_⟩
        · simp only [visitMap, if_pos asked, rebuilt]
          rfl
        · simp only [libraries, if_pos asked, rebuilt, List.singleton_append]
  · refine ⟨_, [], if_neg asked, Found.refl.unmark, ?_⟩
    simp only [libraries, if_neg asked, List.nil_append]

def nonnull (pointer : Nat) : Option Nat := if pointer = 0 then none else some pointer

/-- The maps from here on, as `LinkMapIter` yields them. -/
def Lists (host : HostProcess) (start : Nat) (pointers : List Nat) : Prop :=
  Segment (fun pointer => nonnull (host.mapAt pointer).lNext) (nonnull start) pointers none

theorem nonnull_eq_some_iff {pointer place : Nat} :
    nonnull pointer = some place ↔ pointer ≠ 0 ∧ pointer = place := by
  by_cases null : pointer = 0
  · simp [nonnull, null]
  · simp [nonnull, null]

theorem Lists.nil_iff {start : Nat} : host.Lists start [] ↔ start = 0 := by
  simp [Lists, Segment, nonnull]

theorem iterateMaps_found {pointers : List Nat} {start rounds : Nat} (search : HostSearch)
    (lists : host.Lists start pointers) (enough : pointers.length < rounds)
    (fits : ∀ pointer ∈ pointers, host.Fits (host.mapAt pointer)) :
    ∃ after, host.iterateMaps rounds start search = .ok (some after) ∧
      host.Found (host.libraries search.globals.isMusl (pointers.map host.mapAt))
        (search.globals.isMusl ||
          (pointers.map host.mapAt).any fun map => named map.lName "ld-musl") search after := by
  induction pointers generalizing start rounds search with
  | nil =>
      cases rounds with
      | zero => cases enough
      | succ rounds =>
          refine ⟨search, if_pos (Lists.nil_iff.mp lists), ?_⟩
          rw [List.map_nil, List.any_nil, Bool.or_false]
          exact .refl
  | cons pointer rest ih =>
      cases rounds with
      | zero => cases enough
      | succ rounds =>
          obtain ⟨first, later⟩ := lists
          obtain ⟨set, rfl⟩ := nonnull_eq_some_iff.mp first
          obtain ⟨middle, one, visited, found, asked⟩ := visitMap_found search
            (fits _ List.mem_cons_self) (rest.map host.mapAt)
          obtain ⟨after, walked, others⟩ := ih middle later (Nat.lt_of_succ_lt_succ enough)
            fun place listed => fits place (List.mem_cons_of_mem _ listed)
          refine ⟨after, ?_, ?_⟩
          · rw [iterateMaps, if_neg set, visited]
            exact walked
          · rw [List.map_cons, asked, List.any_cons, ← Bool.or_assoc]
            rw [found.isMusl] at others
            exact found.trans others

/-! ## The environment -/

/-- A null-terminated array of pointers. -/
def PointerArray (memory : ByteMemory) : Nat → List Nat → Prop
  | place, [] => memory.word 8 place = 0
  | place, pointer :: rest =>
      memory.word 8 place = pointer ∧ pointer ≠ 0 ∧ PointerArray memory (place + 8) rest

/-- What `ENVP` leads to; nothing while it is null. -/
def HoldsEnvironment (memory : ByteMemory) (envp : Nat) (pointers : List Nat) : Prop :=
  if envp = 0 then pointers = [] else PointerArray memory envp pointers

theorem getEnvFrom_eq {pointers : List Nat} {place rounds : Nat} {cstr : Nat → Bytes}
    {name : Bytes} (array : PointerArray host.memory place pointers)
    (enough : pointers.length < rounds) :
    host.getEnvFrom cstr name rounds place = some (getEnv (pointers.map cstr) name) := by
  induction pointers generalizing place rounds with
  | nil =>
      cases rounds with
      | zero => cases enough
      | succ rounds =>
          have ended : host.memory.word 8 place = 0 := array
          rw [getEnvFrom, if_pos ended]
          rfl
  | cons pointer rest ih =>
      cases rounds with
      | zero => cases enough
      | succ rounds =>
          obtain ⟨held, set, later⟩ := array
          have walked := ih later (Nat.lt_of_succ_lt_succ enough)
          rw [getEnvFrom, held, if_neg set]
          cases found : envValue name (cstr pointer) with
          | none => simpa [getEnv, found] using walked
          | some value => simp [getEnv, found]

theorem getEnvAt_eq {pointers : List Nat} {envp rounds : Nat} {cstr : Nat → Bytes} {name : Bytes}
    (environment : HoldsEnvironment host.memory envp pointers)
    (enough : pointers.length < rounds) :
    host.getEnvAt cstr rounds envp name = some (getEnv (pointers.map cstr) name) := by
  rw [HoldsEnvironment] at environment
  by_cases null : envp = 0
  · rw [if_pos null] at environment
    subst environment
    simp [getEnvAt, null, getEnv]
  · rw [if_neg null] at environment
    rw [getEnvAt, if_neg null]
    exact getEnvFrom_eq environment enough

/-- The globals after a walk over these objects. -/
def globalsAfter (host : HostProcess) (globals : HostGlobals) (maps : List HostMap) :
    HostGlobals :=
  let asked := host.libraries globals.isMusl maps
  {
    argc := firstNonzero (globals.argc :: asked.filterMap fun library => host.argcOf library.2)
    argv := firstNonzero (globals.argv :: asked.filterMap fun library => argvOf library.2)
    envp := firstNonzero (globals.envp :: asked.filterMap fun library => host.envpOf library.2)
    threadAtexit := globals.threadAtexit <|> libcExport asked "__cxa_thread_atexit_impl"
    isMusl := globals.isMusl || maps.any fun map => named map.lName "ld-musl"
  }

end HostProcess

/-- A main program that defines none of the symbols, and a libc. -/
def hostWithLibc : HostProcess where
  checks := true
  image := ⟨fun _ => [⟨ElfDynamicTag.null, 0⟩], fun base => if base = 0 then none else some 0x100,
    fun base => if base = 0 then none else some []⟩
  table := 0
  memory address :=
    if address = 0x7001 then 0x80 else if address = 0x7020 then 3
    else if address = 0x8001 then 0x90 else 0
  mapAt pointer :=
    if pointer = 0x100 then ⟨⟨0x10000, "", 0x10800, none, 0, 0⟩, 0x200⟩
    else ⟨⟨0x20000, "libc.so.6", 0x20800, none, 0, 0⟩, 0⟩
  newUnchecked raw :=
    if raw.name = "" then .ok fun _ => none
    else .ok fun name =>
      if name = "dl_iterate_phdr" then some 0x5000 else if name = "environ" then some 0x7000
      else if name = "__libc_argv" then some 0x7010
      else if name = "__libc_argc" then some 0x7020 else none

theorem hostWithLibc_fits (pointer : Nat) : hostWithLibc.Fits (hostWithLibc.mapAt pointer) := by
  intro _ _
  have based : (hostWithLibc.mapAt pointer).lAddr ≠ 0 := by
    simp only [hostWithLibc]
    split <;> decide
  exact ⟨List.cons_ne_nil _ _, ⟨0x100, if_neg based⟩, [], if_neg based, by simp⟩

end DynLinker.Registry
