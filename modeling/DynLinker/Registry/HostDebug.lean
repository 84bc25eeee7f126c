import DynLinker.Lib.Folds
import DynLinker.Lib.Words
import DynLinker.Registry.HostAuxv
import DynLinker.Startup.PassThrough

/-! How a hosted process finds the debugger's record of its loader (`get_debug_struct` in
`runtime/host.rs`): through the headers of the main program, at whatever address it was
loaded, then through those of the loader. -/

set_option autoImplicit false

namespace DynLinker.Registry

open Lib Startup PassThrough

def dtDebug : Nat := 21

/-- `from_raw_parts(address as *const ElfPhdr, count)`. -/
def phdrsAt (memory : ByteMemory) (address count : Nat) : List ElfPhdr :=
  (List.range count).map fun i => ElfPhdr.read memory (address + i * ElfPhdr.size)

/-- The `version` of a `GDBDebug`. -/
def debugVersion (memory : ByteMemory) (debug : Nat) : Nat := memory.word 4 debug

/-- The entry points to a record that has a version. -/
def LiveDebug (memory : ByteMemory) (entry : ElfDyn) : Prop :=
  entry.tag = dtDebug ∧ entry.value ≠ 0 ∧ debugVersion memory entry.value ≠ 0

instance (memory : ByteMemory) : DecidablePred (LiveDebug memory) :=
  fun _ => inferInstanceAs (Decidable (_ ∧ _ ∧ _))

/-- `find_debug_in_dynamic`, where the null pointer is zero; `none` if it has not ended after so
many entries. -/
def findDebugInDynamic (memory : ByteMemory) : Nat → Nat → Option Nat
  | 0, _ => none
  | rounds + 1, dynamic =>
      let entry := ElfDyn.read memory dynamic
      if dynamic = 0 ∨ entry.tag = ElfDynamicTag.null then some 0
      else if LiveDebug memory entry then some entry.value
      else findDebugInDynamic memory rounds (dynamic + ElfDyn.size)

structure DebugPhdrs where
  loadBias : Option Nat
  dynamicPhdr : Option ElfPhdr

/-- The first loop of `find_r_debug`. -/
def DebugPhdrs.record (phdrAddr : Nat) (found : DebugPhdrs) (phdr : ElfPhdr) : DebugPhdrs :=
  if phdr.programType = ElfProgramType.phdr then
    { found with loadBias := some (wrappingSub 64 phdrAddr phdr.vaddr) }
  else if phdr.programType = ElfProgramType.dynamic then { found with dynamicPhdr := some phdr }
  else found

/-- The second loop, without `PT_PHDR`: the headers are taken to follow the file's own. -/
def firstLoadBias (checks : Bool) (phdrAddr : Nat) (phdrs : List ElfPhdr) :
    Option Nat → Except Panic (Option Nat)
  | some bias => .ok (some bias)
  | none =>
      match phdrs.find? fun phdr => phdr.programType = ElfProgramType.load ∧ phdr.offset = 0 with
      | none => .ok none
      | some phdr => do
          let linkedPhdrAddr ← plainAdd checks 64 phdr.vaddr 64
          return some (wrappingSub 64 phdrAddr linkedPhdrAddr)

/-- The table of the main program, null where it cannot be told where it is. -/
def mainDynamic (checks : Bool) (phdrAddr : Nat) (phdrs : List ElfPhdr) : Except Panic Nat := do
  let found := phdrs.foldl (DebugPhdrs.record phdrAddr) ⟨none, none⟩
  let loadBias ← firstLoadBias checks phdrAddr phdrs found.loadBias
  match loadBias, found.dynamicPhdr with
  | some bias, some phdr => return (bias + phdr.vaddr) % 2 ^ 64
  | _, _ => return 0

/-- The table of the loader, whose headers its own file header locates. -/
def interpreterDynamic (checks : Bool) (memory : ByteMemory) (base : Nat) : Except Panic Nat := do
  let address ← plainAdd checks 64 base (memory.word 8 (base + 32))
  let phdrs := phdrsAt memory address (memory.word 2 (base + 56))
  match phdrs.find? fun phdr => phdr.programType = ElfProgramType.dynamic with
  | some phdr => return (base + phdr.vaddr) % 2 ^ 64
  | none => return 0

def findRDebug (checks : Bool) (memory : ByteMemory) (rounds phdrAddr phnum interpreterBase : Nat) :
    Except Panic (Option Nat) :=
  if phdrAddr = 0 ∨ phnum = 0 then .ok (some 0)
  else do
    let dynamic ← mainDynamic checks phdrAddr (phdrsAt memory phdrAddr phnum)
    match findDebugInDynamic memory rounds dynamic with
    | none => return none
    | some 0 =>
        if interpreterBase = 0 then return some 0
        else do
          let dynamic ← interpreterDynamic checks memory interpreterBase
          return findDebugInDynamic memory rounds dynamic
    | some debug => return some debug

/-- `get_debug_struct` for the auxiliary vector of the process. -/
def getDebugStruct (checks : Bool) (memory : ByteMemory) (rounds : Nat) (aux : AuxValues) :
    Except Panic (Option (Option Nat)) := do
  let found ← findRDebug checks memory rounds aux.phdr aux.phnum aux.base
  return found.map fun debug =>
    if debug ≠ 0 ∧ debugVersion memory debug ≠ 0 then some debug else none

/-- The record that a table leads to. -/
def liveDebug (memory : ByteMemory) (table : DynamicTable) : Option Nat :=
  (table.entries.find? (LiveDebug memory ·)).map ElfDyn.value

section Tables

variable {memory : ByteMemory}

theorem findDebugInDynamic_null (rounds : Nat) :
    findDebugInDynamic memory (rounds + 1) 0 = some 0 := by
  simp [findDebugInDynamic]

/-- The walk over a table ends at its `DT_NULL`. -/
theorem findDebugInDynamic_entries {entries : List ElfDyn} {last : ElfDyn} {rounds dynamic : Nat}
    (nonnull : dynamic ≠ 0) (enough : entries.length < rounds)
    (others : ∀ entry ∈ entries, entry.tag ≠ ElfDynamicTag.null)
    (ended : last.tag = ElfDynamicTag.null)
    (held : ∀ i entry, (entries ++ [last])[i]? = some entry →
      ElfDyn.read memory (dynamic + i * ElfDyn.size) = entry) :
    findDebugInDynamic memory rounds dynamic =
      some (((entries.find? (LiveDebug memory ·)).map ElfDyn.value).getD 0) := by
  induction entries generalizing rounds dynamic with
  | nil =>
      obtain ⟨fewer, rfl⟩ := Nat.exists_eq_succ_of_ne_zero (Nat.ne_of_gt enough)
      have read : ElfDyn.read memory dynamic = last := by simpa using held 0 last rfl
      simp [findDebugInDynamic, read, ended]
  | cons first rest ih =>
      obtain ⟨fewer, rfl⟩ := Nat.exists_eq_succ_of_ne_zero (Nat.ne_of_gt (Nat.zero_lt_of_lt enough))
      have read : ElfDyn.read memory dynamic = first := by simpa using held 0 first rfl
      have passed : ¬(dynamic = 0 ∨ first.tag = ElfDynamicTag.null) :=
        not_or.mpr ⟨nonnull, others first List.mem_cons_self⟩
      simp only [findDebugInDynamic, read, if_neg passed]
      by_cases live : LiveDebug memory first
      · simp [live]
      · rw [if_neg live, List.find?_cons_of_neg (by simpa using live)]
        apply ih
        · simp [ElfDyn.size]
        · simpa using enough
        · exact fun entry member => others entry (List.mem_cons_of_mem _ member)
        · intro i entry found
          have read := held (i + 1) entry found
          rwa [Nat.succ_mul, Nat.add_comm (i * _), ← Nat.add_assoc] at read

theorem findDebugInDynamic_table {table : DynamicTable} {rounds dynamic : Nat}
    (nonnull : dynamic ≠ 0) (held : table.At memory dynamic)
    (enough : table.entries.length < rounds) :
    findDebugInDynamic memory rounds dynamic = some ((liveDebug memory table).getD 0) :=
  findDebugInDynamic_entries nonnull enough table.others table.ended held

theorem liveDebug_version {table : DynamicTable} {debug : Nat}
    (found : liveDebug memory table = some debug) :
    debug ≠ 0 ∧ debugVersion memory debug ≠ 0 := by
  obtain ⟨entry, first, rfl⟩ := Option.map_eq_some_iff.mp found
  have live : LiveDebug memory entry := by simpa using List.find?_some first
  exact live.2

theorem phdrsAt_eq {headers : List ElfPhdr} {address : Nat}
    (mapped : ∀ i header, headers[i]? = some header →
      ElfPhdr.read memory (address + i * ElfPhdr.size) = header) :
    phdrsAt memory address headers.length = headers := by
  apply List.ext_getElem?
  intro i
  rw [phdrsAt, List.getElem?_map]
  by_cases inside : i < headers.length
  · have found := List.getElem?_eq_getElem inside
    rw [List.getElem?_range inside, found]
    exact congrArg some (mapped i _ found)
  · have past := Nat.le_of_not_lt inside
    simp [past]

end Tables

/-- The dynamic table of an object loaded at a bias lies where `PT_DYNAMIC` says. -/
def DynamicLies (memory : ByteMemory) (headers : List ElfPhdr) (bias : Nat)
    (table : Option DynamicTable) : Prop :=
  match headers.find? (·.programType = ElfProgramType.dynamic), table with
  | some phdr, some table => loadedAt bias phdr ≠ 0 ∧ table.At memory (loadedAt bias phdr)
  | none, none => True
  | _, _ => False

/-- The main program as it was loaded: at any bias, with its headers where the auxiliary
vector says. `PT_PHDR` shows where that is, or else they follow the file header, which the
segment at the start of the file maps. -/
structure LoadedProgram (memory : ByteMemory) (phdrAddr : Nat) (headers : List ElfPhdr)
    (bias : Nat) (table : Option DynamicTable) : Prop where
  located : phdrAddr ≠ 0
  nonempty : headers ≠ []
  mapped : ∀ i header, headers[i]? = some header →
    ElfPhdr.read memory (phdrAddr + i * ElfPhdr.size) = header
  once : ∀ kind ∈ [ElfProgramType.phdr, ElfProgramType.dynamic],
    (headers.filter fun header => header.programType = kind).length ≤ 1
  word : bias < 2 ^ 64
  biased : match headers.find? (·.programType = ElfProgramType.phdr) with
    | some phdr => loadedAt bias phdr = phdrAddr
    | none => ∃ phdr, (headers.find? fun phdr =>
        phdr.programType = ElfProgramType.load ∧ phdr.offset = 0) = some phdr ∧
        phdr.vaddr + 64 < 2 ^ 64 ∧ (bias + (phdr.vaddr + 64)) % 2 ^ 64 = phdrAddr
  dynamic : DynamicLies memory headers bias table

/-- The loader of the process, whose file header says where its headers are. -/
structure LoadedInterpreter (memory : ByteMemory) (base : Nat) (headers : List ElfPhdr)
    (table : Option DynamicTable) : Prop where
  located : base ≠ 0
  word : base < 2 ^ 64
  fits : base + memory.word 8 (base + 32) < 2 ^ 64
  counted : memory.word 2 (base + 56) = headers.length
  mapped : ∀ i header, headers[i]? = some header →
    ElfPhdr.read memory (base + memory.word 8 (base + 32) + i * ElfPhdr.size) = header
  dynamic : DynamicLies memory headers base table

theorem findDebugInDynamic_lies {memory : ByteMemory} {headers : List ElfPhdr} {bias : Nat}
    {table : Option DynamicTable} (lies : DynamicLies memory headers bias table) {rounds : Nat}
    (enough : ∀ found ∈ table, found.entries.length < rounds) (some_ : 0 < rounds) :
    findDebugInDynamic memory rounds
        (((headers.find? (·.programType = ElfProgramType.dynamic)).map (loadedAt bias)).getD 0) =
      some ((table.bind (liveDebug memory)).getD 0) := by
  unfold DynamicLies at lies
  cases located : headers.find? (·.programType = ElfProgramType.dynamic) with
  | none =>
      obtain ⟨fewer, rfl⟩ := Nat.exists_eq_succ_of_ne_zero (Nat.ne_of_gt some_)
      rw [located] at lies
      cases table with
      | none => exact findDebugInDynamic_null fewer
      | some table => cases lies
  | some phdr =>
      rw [located] at lies
      cases table with
      | none => cases lies
      | some table => exact findDebugInDynamic_table lies.1 lies.2 (enough table rfl)

section Program

variable {memory : ByteMemory} {phdrAddr bias : Nat} {headers : List ElfPhdr}
  {table : Option DynamicTable}

/-- A kind of header that occurs once at most is found by its last occurrence. -/
theorem filter_getLast? {kind : Nat}
    (once : (headers.filter fun header => header.programType = kind).length ≤ 1) :
    (headers.filter fun header => header.programType = kind).getLast? =
      headers.find? (·.programType = kind) := by
  rw [← head?_eq_getLast? once, List.head?_filter]

theorem record_loadBias (phdrs : List ElfPhdr) :
    (phdrs.foldl (DebugPhdrs.record phdrAddr) ⟨none, none⟩).loadBias =
      (phdrs.filter fun phdr => phdr.programType = ElfProgramType.phdr).getLast?.map
        fun phdr => wrappingSub 64 phdrAddr phdr.vaddr := by
  rw [foldl_field DebugPhdrs.loadBias (fun kept phdr =>
    if phdr.programType = ElfProgramType.phdr then some (wrappingSub 64 phdrAddr phdr.vaddr)
    else kept), foldl_replace]
  · cases (phdrs.filter fun phdr => phdr.programType = ElfProgramType.phdr).getLast? <;> rfl
  · intro found phdr
    rw [DebugPhdrs.record]
    split
    · rfl
    · split <;> rfl

theorem record_dynamicPhdr (phdrs : List ElfPhdr) :
    (phdrs.foldl (DebugPhdrs.record phdrAddr) ⟨none, none⟩).dynamicPhdr =
      (phdrs.filter fun phdr => phdr.programType = ElfProgramType.dynamic).getLast? := by
  rw [foldl_field DebugPhdrs.dynamicPhdr (fun kept phdr =>
    if phdr.programType = ElfProgramType.dynamic then some phdr else kept), foldl_replace]
  · cases (phdrs.filter fun phdr => phdr.programType = ElfProgramType.dynamic).getLast? <;> rfl
  · intro found phdr
    rw [DebugPhdrs.record]
    split
    · next same =>
        have other : ElfProgramType.phdr ≠ ElfProgramType.dynamic := by decide
        rw [same, if_neg other]
    · split <;> rfl

theorem LoadedProgram.mainDynamic_eq
    (program : LoadedProgram memory phdrAddr headers bias table) (checks : Bool) :
    mainDynamic checks phdrAddr headers =
      .ok (((headers.find? (·.programType = ElfProgramType.dynamic)).map
        (loadedAt bias)).getD 0) := by
  have shown := program.biased
  have biased : firstLoadBias checks phdrAddr headers
      ((headers.find? (·.programType = ElfProgramType.phdr)).map
        fun phdr => wrappingSub 64 phdrAddr phdr.vaddr) = .ok (some bias) := by
    cases found : headers.find? (·.programType = ElfProgramType.phdr) with
    | some phdr =>
        rw [found] at shown
        exact congrArg (fun bias => Except.ok (some bias)) (wrappingSub_of_add program.word shown)
    | none =>
        rw [found] at shown
        obtain ⟨phdr, first, fits, added⟩ := shown
        simp only [Option.map_none, firstLoadBias, first, plainAdd_of_lt checks fits]
        exact congrArg (fun bias => Except.ok (some bias)) (wrappingSub_of_add program.word added)
  rw [mainDynamic, record_loadBias, record_dynamicPhdr,
    filter_getLast? (program.once _ List.mem_cons_self),
    filter_getLast? (program.once _ (List.mem_cons_of_mem _ List.mem_cons_self))]
  simp only [biased, Except.bind, bind]
  cases headers.find? (·.programType = ElfProgramType.dynamic) <;> rfl

theorem LoadedInterpreter.interpreterDynamic_eq
    (interpreter : LoadedInterpreter memory bias headers table) (checks : Bool) :
    interpreterDynamic checks memory bias =
      .ok (((headers.find? (·.programType = ElfProgramType.dynamic)).map
        (loadedAt bias)).getD 0) := by
  rw [interpreterDynamic, plainAdd_of_lt checks interpreter.fits, interpreter.counted]
  simp only [Except.bind, bind, phdrsAt_eq interpreter.mapped]
  cases headers.find? (·.programType = ElfProgramType.dynamic) <;> rfl

end Program

/-- A program without `PT_PHDR`, in whose table the loader has not written. -/
def hostHeaders : List ElfPhdr :=
  [⟨ElfProgramType.load, 0, 0, 0x1000⟩, ⟨ElfProgramType.dynamic, 0x200, 0x200, 48⟩]

def hostTable : DynamicTable :=
  .ofEntries [⟨ElfDynamicTag.hash, 0x180⟩, ⟨dtDebug, 0⟩] (by decide)

def loaderHeaders : List ElfPhdr := [⟨ElfProgramType.dynamic, 0x300, 0x300, 32⟩]

def loaderTable : DynamicTable := .ofEntries [⟨dtDebug, 0x60000⟩] (by decide)

def hostMemory : ByteMemory :=
  ([(0x10040, hostHeaders.flatMap ElfPhdr.encode), (0x10200, hostTable.all.flatMap ElfDyn.encode),
    (0x50020, littleEndian 8 64), (0x50038, littleEndian 2 1),
    (0x50040, loaderHeaders.flatMap ElfPhdr.encode),
    (0x50300, loaderTable.all.flatMap ElfDyn.encode), (0x60000, littleEndian 4 1)]).foldl
    (fun memory written => memory.write written.1 written.2) fun _ => 0

def hostAux : AuxValues := { phdr := 0x10040, phnum := 2, base := 0x50000 }

end DynLinker.Registry
