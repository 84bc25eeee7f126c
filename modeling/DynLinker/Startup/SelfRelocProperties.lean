import DynLinker.Lib.Folds
import DynLinker.Lib.Outcome
import DynLinker.Startup.SelfReloc

/-! Which dynamic tables the loader's own relocation accepts, what it makes of them, and
which calls it passes the relocation entries to. -/

set_option autoImplicit false

namespace DynLinker.Startup

open Lib

namespace RelocationTables

/-- The entries that end the scan without a result. -/
def Refuses (entry : ElfDyn) : Prop :=
  entry.tag = ElfDynamicTag.needed ∨
    (entry.tag = ElfDynamicTag.jmprel ∨ entry.tag = ElfDynamicTag.pltrelsz) ∧ entry.value ≠ 0

instance (entry : ElfDyn) : Decidable (Refuses entry) := inferInstanceAs (Decidable (_ ∨ _))

/-- A word that a tag replaces. -/
def replaced (tag word : Nat) (entry : ElfDyn) : Nat :=
  if entry.tag = tag then entry.value else word

/-- A word that a tag replaces unless its value is zero. -/
def replacedNonzero (tag word : Nat) (entry : ElfDyn) : Nat :=
  if entry.tag = tag then (if entry.value = 0 then word else entry.value) else word

/-- An initialiser or a finaliser. -/
def isLifecycle (entry : ElfDyn) : Bool := entry.tag ∈ lifecycleTags ∧ entry.value ≠ 0

/-- What an entry that is not refused records, field by field. -/
def record (tables : RelocationTables) (entry : ElfDyn) : RelocationTables where
  rela := {
    offset := replaced nativeRelocationTag tables.rela.offset entry
    size := replaced nativeRelocationSizeTag tables.rela.size entry
    entrySize := replacedNonzero nativeRelocationEntrySizeTag tables.rela.entrySize entry
  }
  relr := {
    offset := replaced ElfDynamicTag.relr tables.relr.offset entry
    size := replaced ElfDynamicTag.relrsz tables.relr.size entry
    entrySize := replacedNonzero ElfDynamicTag.relrent tables.relr.entrySize entry
  }
  hasLifecycle := tables.hasLifecycle || isLifecycle entry

/-- The tags of the scan differ, so the order of its tests does not matter. -/
theorem scan_eq (tables : RelocationTables) (entry : ElfDyn) :
    tables.scan entry = if Refuses entry then none else some (tables.record entry) := by
  obtain ⟨tag, value⟩ := entry
  simp only [scan, Refuses, record, replaced, replacedNonzero, isLifecycle,
    nativeRelocationTag, nativeRelocationSizeTag, nativeRelocationEntrySizeTag,
    lifecycleTags, ElfDynamicTag.needed, ElfDynamicTag.rela, ElfDynamicTag.relasz,
    ElfDynamicTag.relaent, ElfDynamicTag.relr, ElfDynamicTag.relrsz, ElfDynamicTag.relrent,
    ElfDynamicTag.jmprel, ElfDynamicTag.pltrelsz,
    ElfDynamicTag.init, ElfDynamicTag.fini, ElfDynamicTag.initArray, ElfDynamicTag.initArraysz,
    ElfDynamicTag.finiArray, ElfDynamicTag.finiArraysz, ElfDynamicTag.preinitArray,
    ElfDynamicTag.preinitArraysz, List.mem_cons, List.not_mem_nil, or_false]
  -- one case for each tag that is tested, with its value zero or not
  by_cases scanned : tag ∈ [1, 2, 7, 8, 9, 12, 13, 23, 25, 26, 27, 28, 32, 33, 35, 36, 37]
  · simp only [List.mem_cons, List.not_mem_nil, or_false] at scanned
    by_cases zero : value = 0
    · rcases scanned with rfl | rfl | rfl | rfl | rfl | rfl | rfl | rfl | rfl | rfl | rfl | rfl |
        rfl | rfl | rfl | rfl | rfl <;> simp [zero]
    · rcases scanned with rfl | rfl | rfl | rfl | rfl | rfl | rfl | rfl | rfl | rfl | rfl | rfl |
        rfl | rfl | rfl | rfl | rfl <;> simp [zero]
  · simp only [List.mem_cons, List.not_mem_nil, or_false, not_or] at scanned
    simp [scanned]

theorem foldlM_scan (entries : List ElfDyn) (tables : RelocationTables) :
    entries.foldlM scan tables =
      if ∃ entry ∈ entries, Refuses entry then none else some (entries.foldl record tables) := by
  induction entries generalizing tables with
  | nil => simp
  | cons entry rest ih =>
      rw [List.foldlM_cons, scan_eq]
      by_cases refused : Refuses entry
      · simp [refused]
      · simp [refused, ih]

theorem parseLoop_at {memory : ByteMemory} {dynamic : Nat} {last : ElfDyn}
    (ended : last.tag = ElfDynamicTag.null) {entries : List ElfDyn}
    (others : ∀ entry ∈ entries, entry.tag ≠ ElfDynamicTag.null) {index fuel : Nat}
    (held : ∀ i entry, (entries ++ [last])[i]? = some entry →
      ElfDyn.read memory (dynamic + (index + i) * ElfDyn.size) = entry)
    (enough : entries.length < fuel) (tables : RelocationTables) :
    parseLoop memory dynamic fuel index tables = (entries.foldlM scan tables).bind finish := by
  induction entries generalizing index fuel tables with
  | nil =>
      obtain ⟨fuel, rfl⟩ := Nat.exists_eq_succ_of_ne_zero (Nat.ne_of_gt enough)
      have first := held 0 last rfl
      rw [Nat.add_zero] at first
      simp [parseLoop, first, ended]
  | cons entry rest ih =>
      obtain ⟨fuel, rfl⟩ := Nat.exists_eq_succ_of_ne_zero (Nat.ne_zero_of_lt enough)
      have first := held 0 entry rfl
      rw [Nat.add_zero] at first
      have other := others entry List.mem_cons_self
      simp only [parseLoop, first, other, ↓reduceIte, List.foldlM_cons]
      cases scanned : tables.scan entry with
      | none => rfl
      | some next =>
          apply ih (fun later member => others later (List.mem_cons_of_mem _ member))
          · intro i later found
            rw [Nat.add_assoc, Nat.add_comm 1 i]
            exact held (i + 1) later found
          · exact Nat.lt_of_succ_lt_succ enough

end RelocationTables

section Table

variable {table : DynamicTable} {memory : ByteMemory} {dynamic : Nat}

open RelocationTables

theorem parse_at (held : table.At memory dynamic) (nonnull : dynamic ≠ 0)
    (within : table.entries.length < 4096) :
    parse memory dynamic = (table.entries.foldlM scan initial).bind finish := by
  rw [parse, if_neg nonnull]
  apply parseLoop_at table.ended table.others _ within
  intro i entry found
  rw [Nat.zero_add]
  exact held i entry found

/-- A relocation table that the size of its entries divides, with the native entry size
where it names one. -/
def TableAccepted (offset size entrySize native : Nat) : Prop :=
  size ≠ 0 → offset ≠ 0 ∧ (entrySize = 0 ∨ entrySize = native) ∧ native ∣ size

instance (offset size entrySize native : Nat) :
    Decidable (TableAccepted offset size entrySize native) :=
  inferInstanceAs (Decidable (_ → _))

/-- The tables that the loader relocates itself by. -/
structure SelfContained (table : DynamicTable) : Prop where
  noNeeded : ∀ entry ∈ table.entries, entry.tag ≠ ElfDynamicTag.needed
  noJmprel : table.Vacant ElfDynamicTag.jmprel
  noPltrelsz : table.Vacant ElfDynamicTag.pltrelsz
  rela : TableAccepted (table.value ElfDynamicTag.rela) (table.value ElfDynamicTag.relasz)
    (table.value ElfDynamicTag.relaent) ElfRela.size
  relr : TableAccepted (table.value ElfDynamicTag.relr) (table.value ElfDynamicTag.relrsz)
    (table.value ElfDynamicTag.relrent) relrSize

theorem foldl_replaced (noRepeats : table.NoRepeats) {tag : Nat}
    (other : tag ≠ ElfDynamicTag.needed) :
    table.entries.foldl (replaced tag) 0 = table.value tag := by
  have folded := DynamicTable.foldl_tagged noRepeats other (fun _ found => found) 0
  rw [DynamicTable.value]
  refine Eq.trans folded ?_
  cases table.value? tag with
  | none => rfl
  | some found => rfl

theorem foldl_replacedNonzero (noRepeats : table.NoRepeats) {tag : Nat}
    (other : tag ≠ ElfDynamicTag.needed) (native : Nat) :
    table.entries.foldl (replacedNonzero tag) native =
      if table.value tag = 0 then native else table.value tag := by
  have folded := DynamicTable.foldl_tagged noRepeats other
    (fun word found => if found = 0 then word else found) native
  rw [DynamicTable.value]
  refine Eq.trans folded ?_
  cases table.value? tag with
  | none => rfl
  | some found => rfl

theorem foldl_lifecycle (entries : List ElfDyn) (start : Bool) :
    entries.foldl (fun found entry => found || isLifecycle entry) start =
      (start || entries.any isLifecycle) := by
  induction entries generalizing start with
  | nil => simp
  | cons entry rest ih => rw [List.foldl_cons, ih, List.any_cons, Bool.or_assoc]

/-- What the scan records of a table without repeated tags. -/
def scanned (table : DynamicTable) : RelocationTables where
  rela := {
    offset := table.value ElfDynamicTag.rela
    size := table.value ElfDynamicTag.relasz
    entrySize := if table.value ElfDynamicTag.relaent = 0 then ElfRela.size
      else table.value ElfDynamicTag.relaent
  }
  relr := {
    offset := table.value ElfDynamicTag.relr
    size := table.value ElfDynamicTag.relrsz
    entrySize := if table.value ElfDynamicTag.relrent = 0 then relrSize
      else table.value ElfDynamicTag.relrent
  }
  hasLifecycle := table.entries.any isLifecycle

theorem foldl_record (noRepeats : table.NoRepeats) :
    table.entries.foldl record initial = scanned table := by
  have field {Field : Type} (field : RelocationTables → Field) (step : Field → ElfDyn → Field)
      (steps : ∀ tables entry, field (record tables entry) = step (field tables) entry) :
      field (table.entries.foldl record initial) = table.entries.foldl step (field initial) :=
    foldl_field field step steps table.entries initial
  apply RelocationTables.ext
  · apply RelocationTable.ext
    · rw [field (·.rela.offset) (replaced nativeRelocationTag) fun _ _ => rfl]
      exact foldl_replaced noRepeats (by decide)
    · rw [field (·.rela.size) (replaced nativeRelocationSizeTag) fun _ _ => rfl]
      exact foldl_replaced noRepeats (by decide)
    · rw [field (·.rela.entrySize) (replacedNonzero nativeRelocationEntrySizeTag) fun _ _ => rfl]
      exact foldl_replacedNonzero noRepeats (by decide) ElfRela.size
  · apply RelocationTable.ext
    · rw [field (·.relr.offset) (replaced ElfDynamicTag.relr) fun _ _ => rfl]
      exact foldl_replaced noRepeats (by decide)
    · rw [field (·.relr.size) (replaced ElfDynamicTag.relrsz) fun _ _ => rfl]
      exact foldl_replaced noRepeats (by decide)
    · rw [field (·.relr.entrySize) (replacedNonzero ElfDynamicTag.relrent) fun _ _ => rfl]
      exact foldl_replacedNonzero noRepeats (by decide) relrSize
  · rw [field (·.hasLifecycle) (fun found entry => found || isLifecycle entry) fun _ _ => rfl]
    exact foldl_lifecycle table.entries false

/-- An accepted relocation table; its entry size is the native one. -/
theorem validate_eq_some_iff {offset size entrySize native : Nat} (sized : native ≠ 0)
    {validated : RelocationTable} :
    (RelocationTable.mk offset size (if entrySize = 0 then native else entrySize)).validate native =
        some validated ↔
      TableAccepted offset size entrySize native ∧ validated = ⟨offset, size, native⟩ := by
  unfold RelocationTable.validate TableAccepted RelocationTable.isEmpty
  by_cases vacant : size = 0
  · simp [vacant, eq_comm]
  · by_cases unnamed : entrySize = 0
    · simp [vacant, unnamed, Nat.dvd_iff_mod_eq_zero, and_assoc, eq_comm]
    · by_cases named : entrySize = native
      · simp [vacant, named, sized, Nat.dvd_iff_mod_eq_zero, and_assoc, eq_comm]
      · simp [vacant, unnamed, named]

/-- What `parse` makes of a table that it accepts. -/
def parsed (table : DynamicTable) : RelocationTables where
  rela := ⟨table.value ElfDynamicTag.rela, table.value ElfDynamicTag.relasz, ElfRela.size⟩
  relr := ⟨table.value ElfDynamicTag.relr, table.value ElfDynamicTag.relrsz, relrSize⟩
  hasLifecycle := table.entries.any isLifecycle

theorem exists_refuses_iff :
    (∃ entry ∈ table.entries, Refuses entry) ↔
      ¬((∀ entry ∈ table.entries, entry.tag ≠ ElfDynamicTag.needed) ∧
        table.Vacant ElfDynamicTag.jmprel ∧ table.Vacant ElfDynamicTag.pltrelsz) := by
  unfold DynamicTable.Vacant Refuses
  constructor
  · rintro ⟨entry, member, needed | ⟨jmprel | pltrelsz, nonzero⟩⟩ ⟨noNeeded, noJmprel, noPltrelsz⟩
    · exact noNeeded entry member needed
    · exact nonzero (noJmprel entry member jmprel)
    · exact nonzero (noPltrelsz entry member pltrelsz)
  · intro accepted
    by_contra! unrefused
    exact accepted ⟨fun entry member => (unrefused entry member).1,
      fun entry member tagged => (unrefused entry member).2 (.inl tagged),
      fun entry member tagged => (unrefused entry member).2 (.inr tagged)⟩

theorem parse_eq_some_iff (held : table.At memory dynamic) (nonnull : dynamic ≠ 0)
    (within : table.entries.length < 4096) (noRepeats : table.NoRepeats)
    {tables : RelocationTables} :
    parse memory dynamic = some tables ↔ SelfContained table ∧ tables = parsed table := by
  rw [parse_at held nonnull within, foldlM_scan, foldl_record noRepeats]
  by_cases refused : ∃ entry ∈ table.entries, Refuses entry
  · rw [if_pos refused, Option.bind_none]
    constructor
    · intro impossible
      cases impossible
    · rintro ⟨accepted, -⟩
      exact absurd ⟨accepted.noNeeded, accepted.noJmprel, accepted.noPltrelsz⟩
        (exists_refuses_iff.mp refused)
  · rw [if_neg refused, Option.bind_some, finish]
    obtain ⟨noNeeded, noJmprel, noPltrelsz⟩ :=
      not_not.mp (mt exists_refuses_iff.mpr refused)
    simp only [Option.bind_eq_bind, Option.bind_eq_some_iff, Option.pure_def, Option.some.injEq]
    constructor
    · rintro ⟨rela, relaValid, relr, relrValid, rfl⟩
      obtain ⟨relaAccepted, rfl⟩ := (validate_eq_some_iff (by decide)).mp relaValid
      obtain ⟨relrAccepted, rfl⟩ := (validate_eq_some_iff (by decide)).mp relrValid
      exact ⟨⟨noNeeded, noJmprel, noPltrelsz, relaAccepted, relrAccepted⟩, rfl⟩
    · rintro ⟨accepted, rfl⟩
      exact ⟨_, (validate_eq_some_iff (by decide)).mpr ⟨accepted.rela, rfl⟩, _,
        (validate_eq_some_iff (by decide)).mpr ⟨accepted.relr, rfl⟩, rfl⟩

end Table

/-- Splitting leaves out the separators and nothing else. -/
theorem flatten_splitOnP {Item : Type} (separator : Item → Bool) (items : List Item) :
    (items.splitOnP separator).flatten = items.filter fun item => !separator item := by
  induction items with
  | nil => rfl
  | cons item rest ih =>
      rw [List.splitOnP_cons_eq_if_modifyHead]
      by_cases separates : separator item = true
      · simp [separates, ih]
      · obtain ⟨first, later, groups⟩ := List.exists_cons_of_ne_nil
          (List.splitOnP_ne_nil separator rest)
        rw [groups, List.flatten_cons] at ih
        simp [separates, groups, ih]

section Calls

variable {relocator : ElfRelocator} {loadBias : Nat}

open RelocationTables

def isNone (entry : ElfRela) : Bool := entry.relocationType = NativeArch.none

def isRelative (entry : ElfRela) : Bool := entry.relocationType = NativeArch.relative

/-- The entries that were passed to `relocate_relative`, in the order of the calls. -/
def passedRelative (calls : List (RelocationCall × Bool)) : List ElfRela :=
  calls.flatMap fun call => match call.1 with
    | .relative entries => entries
    | .relr _ _ => []

/-- The slices that were passed to `relocate_relr`. -/
def passedRelr (calls : List (RelocationCall × Bool)) : List (Nat × Nat) :=
  calls.filterMap fun call => match call.1 with
    | .relative _ => none
    | .relr address count => some (address, count)

/-- What a run of `relocateGroup` over groups adds, if it gets to their end. -/
structure GroupsPassed (before after : Relocating) (entries : List ElfRela) : Prop where
  relative : ∀ entry ∈ entries, isRelative entry = true
  passed : passedRelative after.calls = passedRelative before.calls ++ entries
  noRelr : passedRelr after.calls = passedRelr before.calls
  succeeded : (∀ call ∈ before.calls, call.2 = true) → ∀ call ∈ after.calls, call.2 = true

/-- Why a run ended before its end. -/
def Stopped (run : Relocating) (entries : List ElfRela) : Prop :=
  (∃ entry ∈ entries, isRelative entry = false) ∨ ∃ call ∈ run.calls, call.2 = false

theorem call_ok {run next : Relocating} {call : RelocationCall} {result : Bool × ByteMemory}
    (accepted : run.call call result = .ok next) : next.calls = run.calls ++ [(call, true)] := by
  unfold Relocating.call at accepted
  split at accepted
  · next succeeded =>
      cases accepted
      simp [succeeded]
  · cases accepted

theorem call_error {run last : Relocating} {call : RelocationCall} {result : Bool × ByteMemory}
    (failed : run.call call result = .error last) : ∃ call ∈ last.calls, call.2 = false := by
  unfold Relocating.call at failed
  split at failed
  · cases failed
  · next unsuccessful =>
      cases failed
      exact ⟨(call, result.1), by simp, Bool.eq_false_iff.mpr unsuccessful⟩

theorem relocateGroup_ok {run next : Relocating} {group : List ElfRela}
    (accepted : relocateGroup relocator loadBias run group = .ok next) :
    GroupsPassed run next group := by
  unfold relocateGroup at accepted
  split at accepted
  · next vacant =>
      cases accepted
      rw [List.isEmpty_iff.mp vacant]
      exact ⟨by simp, by simp, rfl, fun succeeded => succeeded⟩
  · split at accepted
    · next all =>
        have calls := call_ok accepted
        refine ⟨List.all_eq_true.mp all, ?_, ?_, ?_⟩
        · simp [calls, passedRelative]
        · simp [calls, passedRelr]
        · intro succeeded call member
          rw [calls, List.mem_append, List.mem_singleton] at member
          rcases member with old | rfl
          · exact succeeded call old
          · rfl
    · cases accepted

theorem relocateGroup_error {run last : Relocating} {group : List ElfRela}
    (failed : relocateGroup relocator loadBias run group = .error last) : Stopped last group := by
  unfold relocateGroup at failed
  split at failed
  · cases failed
  · split at failed
    · exact .inr (call_error failed)
    · next mixed =>
        cases failed
        rw [Bool.not_eq_true, List.all_eq_false] at mixed
        obtain ⟨entry, member, other⟩ := mixed
        exact .inl ⟨entry, member, Bool.eq_false_iff.mpr other⟩

theorem foldlM_relocateGroup_ok {groups : List (List ElfRela)} {run last : Relocating}
    (accepted : groups.foldlM (relocateGroup relocator loadBias) run = .ok last) :
    GroupsPassed run last groups.flatten := by
  induction groups generalizing run with
  | nil =>
      cases accepted
      exact ⟨by simp, by simp, rfl, fun succeeded => succeeded⟩
  | cons group rest ih =>
      rw [List.foldlM_cons] at accepted
      obtain ⟨next, first, accepted⟩ := bind_eq_ok.mp accepted
      have passed := relocateGroup_ok first
      have later := ih accepted
      rw [List.flatten_cons]
      refine ⟨?_, ?_, later.noRelr.trans passed.noRelr, ?_⟩
      · intro entry member
        rcases List.mem_append.mp member with old | new
        · exact passed.relative entry old
        · exact later.relative entry new
      · rw [later.passed, passed.passed, List.append_assoc]
      · exact fun succeeded => later.succeeded (passed.succeeded succeeded)

theorem foldlM_relocateGroup_error {groups : List (List ElfRela)} {run last : Relocating}
    (failed : groups.foldlM (relocateGroup relocator loadBias) run = .error last) :
    Stopped last groups.flatten := by
  induction groups generalizing run with
  | nil => cases failed
  | cons group rest ih =>
      rw [List.foldlM_cons] at failed
      cases first : relocateGroup relocator loadBias run group with
      | error stopped =>
          rw [first] at failed
          cases failed
          rcases relocateGroup_error first with ⟨entry, member, other⟩ | unsuccessful
          · exact .inl ⟨entry, List.mem_append_left _ member, other⟩
          · exact .inr unsuccessful
      | ok next =>
          rw [first] at failed
          rcases ih failed with ⟨entry, member, other⟩ | unsuccessful
          · exact .inl ⟨entry, List.mem_append_right _ member, other⟩
          · exact .inr unsuccessful

/-- The entries of the `RELA` table that the dynamic table describes. -/
def relaTable (memory : ByteMemory) (loadBias : Nat) (table : DynamicTable) : List ElfRela :=
  ElfRela.readTable memory ((loadBias + table.value ElfDynamicTag.rela) % 2 ^ 64)
    (table.value ElfDynamicTag.relasz / ElfRela.size)

/-- The address and the length of the `RELR` table that the dynamic table describes. -/
def relrTable (loadBias : Nat) (table : DynamicTable) : List (Nat × Nat) :=
  if table.value ElfDynamicTag.relrsz = 0 then []
  else [((loadBias + table.value ElfDynamicTag.relr) % 2 ^ 64,
    table.value ElfDynamicTag.relrsz / relrSize)]

variable {memory : ByteMemory} {table : DynamicTable}

theorem relaEntries_parsed :
    (parsed table).relaEntries loadBias memory = relaTable memory loadBias table := by
  unfold relaEntries relaTable RelocationTable.isEmpty RelocationTable.len parsed
  by_cases vacant : table.value ElfDynamicTag.relasz = 0
  · simp [vacant, ElfRela.readTable]
  · simp [vacant]

/-- The entries between separators, all groups together. -/
def ungrouped (entries : List ElfRela) : List ElfRela := entries.filter fun entry => !isNone entry

theorem applyRela_ok {run : Relocating}
    (accepted : (parsed table).applyRela relocator loadBias ⟨memory, []⟩ = .ok run) :
    GroupsPassed ⟨memory, []⟩ run (ungrouped (relaTable memory loadBias table)) := by
  have passed := foldlM_relocateGroup_ok accepted
  rw [relaEntries_parsed] at passed
  change GroupsPassed _ run (List.splitOnP isNone _).flatten at passed
  rwa [flatten_splitOnP] at passed

theorem applyRela_error {last : Relocating}
    (failed : (parsed table).applyRela relocator loadBias ⟨memory, []⟩ = .error last) :
    Stopped last (ungrouped (relaTable memory loadBias table)) := by
  have stopped := foldlM_relocateGroup_error failed
  rw [relaEntries_parsed] at stopped
  change Stopped last (List.splitOnP isNone _).flatten at stopped
  rwa [flatten_splitOnP] at stopped

theorem apply_ok {last : Relocating}
    (accepted : (parsed table).apply relocator loadBias memory = .ok last) :
    (∀ entry ∈ ungrouped (relaTable memory loadBias table), isRelative entry = true) ∧
      passedRelative last.calls = ungrouped (relaTable memory loadBias table) ∧
      passedRelr last.calls = relrTable loadBias table ∧ ∀ call ∈ last.calls, call.2 = true := by
  obtain ⟨run, rela, accepted⟩ := bind_eq_ok.mp accepted
  have passed := applyRela_ok rela
  have succeeded := passed.succeeded fun call member => nomatch member
  unfold applyRelr at accepted
  split at accepted
  · next vacant =>
      cases accepted
      have noRelr : relrTable loadBias table = [] := if_pos (of_decide_eq_true vacant)
      exact ⟨passed.relative, passed.passed, passed.noRelr.trans noRelr.symm, succeeded⟩
  · next occupied =>
      have calls := call_ok accepted
      have relr : relrTable loadBias table = _ := if_neg fun zero => occupied (decide_eq_true zero)
      refine ⟨passed.relative, ?_, ?_, ?_⟩
      · rw [calls, passedRelative, List.flatMap_append]
        exact (List.append_nil _).trans passed.passed
      · rw [relr, calls, passedRelr, List.filterMap_append]
        exact congrArg (· ++ _) passed.noRelr
      · intro call member
        rw [calls, List.mem_append, List.mem_singleton] at member
        rcases member with old | rfl
        · exact succeeded call old
        · rfl

theorem apply_error {last : Relocating}
    (failed : (parsed table).apply relocator loadBias memory = .error last) :
    Stopped last (ungrouped (relaTable memory loadBias table)) := by
  unfold RelocationTables.apply at failed
  cases rela : (parsed table).applyRela relocator loadBias ⟨memory, []⟩ with
  | error stopped =>
      rw [rela] at failed
      cases failed
      exact applyRela_error rela
  | ok run =>
      rw [rela] at failed
      change (parsed table).applyRelr relocator loadBias run = .error last at failed
      unfold applyRelr at failed
      split at failed
      · cases failed
      · exact .inr (call_error failed)

theorem isNone_of_isRelative {entry : ElfRela} (relative : isRelative entry = true) :
    isNone entry = false := by
  have typed : entry.relocationType = NativeArch.relative := of_decide_eq_true relative
  rw [isNone, typed]
  rfl

theorem forall_ungrouped_iff {entries : List ElfRela} :
    (∀ entry ∈ ungrouped entries, isRelative entry = true) ↔
      ∀ entry ∈ entries, isNone entry = true ∨ isRelative entry = true := by
  unfold ungrouped
  simp only [List.mem_filter, Bool.not_eq_true', and_imp]
  refine forall₂_congr fun entry _ => ?_
  cases isNone entry with
  | false => simp
  | true => simp

/-- Without other entries, those between separators are the relative ones. -/
theorem ungrouped_eq_filter {entries : List ElfRela}
    (typed : ∀ entry ∈ entries, isNone entry = true ∨ isRelative entry = true) :
    ungrouped entries = entries.filter isRelative := by
  apply List.filter_congr
  intro entry member
  rcases typed entry member with none | relative
  · cases relative : isRelative entry with
    | false => rw [none, Bool.not_true]
    | true => exact absurd none (Bool.eq_false_iff.mp (isNone_of_isRelative relative))
  · rw [relative, isNone_of_isRelative relative, Bool.not_false]

/-- Relocation is all or refused: it succeeds exactly on a self-contained table whose
entries are of the two types, with calls that succeed, and then every relative entry
and the whole `RELR` table have been passed once. -/
theorem relocate_all_or_refused (relocator : ElfRelocator) (memory : ByteMemory)
    (dynamic loadBias : Nat) (table : DynamicTable) (held : table.At memory dynamic)
    (nonnull : dynamic ≠ 0) (within : table.entries.length < 4096)
    (noRepeats : table.NoRepeats) :
    ((relocate relocator memory dynamic loadBias).1 = true ↔
      SelfContained table ∧
        (∀ entry ∈ relaTable memory loadBias table, isNone entry = true ∨ isRelative entry = true) ∧
        ∀ call ∈ (relocate relocator memory dynamic loadBias).2.calls, call.2 = true) ∧
    ((relocate relocator memory dynamic loadBias).1 = true →
      passedRelative (relocate relocator memory dynamic loadBias).2.calls =
          (relaTable memory loadBias table).filter isRelative ∧
        (∀ entry ∈ passedRelative (relocate relocator memory dynamic loadBias).2.calls,
          isNone entry = false) ∧
        passedRelr (relocate relocator memory dynamic loadBias).2.calls =
          relrTable loadBias table) := by
  have parses (tables : RelocationTables) :
      parse memory dynamic = some tables ↔ SelfContained table ∧ tables = parsed table :=
    parse_eq_some_iff held nonnull within noRepeats
  unfold relocate
  cases found : parse memory dynamic with
  | none =>
      have refused : ¬SelfContained table := by
        intro accepted
        have some := (parses (parsed table)).mpr ⟨accepted, rfl⟩
        rw [found] at some
        cases some
      simp [refused]
  | some tables =>
      obtain ⟨accepted, rfl⟩ := (parses tables).mp found
      cases applied : (parsed table).apply relocator loadBias memory with
      | ok run =>
          obtain ⟨relative, passed, relr, succeeded⟩ := apply_ok applied
          have typed := forall_ungrouped_iff.mp relative
          simp only [applied]
          refine ⟨⟨fun _ => ⟨accepted, typed, succeeded⟩, fun _ => trivial⟩, fun _ => ?_⟩
          refine ⟨passed.trans (ungrouped_eq_filter typed), ?_, relr⟩
          rw [passed]
          exact fun entry member => isNone_of_isRelative (relative entry member)
      | error run =>
          simp only [applied, Bool.false_eq_true, false_iff, false_implies, and_true]
          rintro ⟨_, typed, succeeded⟩
          rcases apply_error applied with ⟨entry, member, other⟩ | ⟨call, member, failed⟩
          · exact absurd (forall_ungrouped_iff.mpr typed entry member) (Bool.eq_false_iff.mp other)
          · exact absurd (succeeded call member) (Bool.eq_false_iff.mp failed)

end Calls

/-- A table of three entries, with one of no type in the middle. -/
def selfTable : DynamicTable :=
  .ofEntries [⟨ElfDynamicTag.relasz, 72⟩, ⟨ElfDynamicTag.rela, 0x200⟩,
    ⟨ElfDynamicTag.relaent, 24⟩] (by decide)

def selfMemory : ByteMemory :=
  let relocations := [0x500, NativeArch.relative, 0x10, 0, NativeArch.none, 0,
    0x508, NativeArch.relative, 0x20]
  (ByteMemory.write (fun _ => 0) 0x4100 (selfTable.all.flatMap ElfDyn.encode)).write 0x4200
    (relocations.flatMap (littleEndian 8))

/-- Relative entries are relocated by writing the moved addend; there are no others here. -/
def writeRelative : ElfRelocator where
  relocateRelative loadBias entries memory :=
    (true, entries.foldl (fun memory entry => memory.write ((loadBias + entry.offset) % 2 ^ 64)
      (littleEndian 8 (loadBias + entry.addend))) memory)
  relocateRelr _ _ _ memory := (true, memory)

theorem relocate_all_or_refused_self :
    (relocate writeRelative selfMemory 0x4100 0x4000).1 = true ∧
      passedRelative (relocate writeRelative selfMemory 0x4100 0x4000).2.calls =
        [⟨0x500, NativeArch.relative, 0x10⟩, ⟨0x508, NativeArch.relative, 0x20⟩] := by
  have settled := relocate_all_or_refused writeRelative selfMemory 0x4100 0x4000 selfTable
    (by decide +kernel) (by decide) (by decide) (by decide)
  have relocated : (relocate writeRelative selfMemory 0x4100 0x4000).1 = true := by decide +kernel
  refine ⟨relocated, (settled.2 relocated).1.trans ?_⟩
  decide +kernel

end DynLinker.Startup
