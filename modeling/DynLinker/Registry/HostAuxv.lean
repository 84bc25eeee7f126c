import DynLinker.Lib.Elf
import DynLinker.Registry.HostFile
import DynLinker.Startup.InitialStackProperties

/-! The auxiliary vector in a hosted process (`get_auxv` in `runtime/host.rs`), which is read
from `/proc/self/auxv`, and how it agrees with the vector on the initial stack. -/

set_option autoImplicit false

namespace DynLinker.Registry

open Lib Startup

def procSelfAuxv : Bytes := ascii "/proc/self/auxv"

/-- `chunks_exact`: the last bytes are left out when they make no chunk. -/
def chunksExact (size : Nat) (data : Bytes) : List Bytes :=
  (List.range (data.length / size)).map fun i => (data.drop (i * size)).take size

/-- The loop over the chunks. -/
def findAuxv (target : Nat) : List Bytes → Nat
  | [] => 0
  | chunk :: rest =>
      let type_ := readWord 8 chunk 0
      let val := readWord 8 chunk 8
      if type_ = target then val
      else if type_ = 0 then 0
      else findAuxv target rest

/-- `get_auxv`, on a kernel that may answer as it likes. -/
def getAuxv (kernel : FileKernel) (rounds : Nat) (table : FileTable) (target : Nat) :
    Option (Nat × FileTable) :=
  (readFile kernel rounds table procSelfAuxv).map fun
    | (.error _, table) => (0, table)
    | (.ok data, table) => (findAuxv target (chunksExact 16 data), table)

/-- What `/proc/self/auxv` holds: the words of the vector. -/
def auxvBytes (auxv : List (Nat × Nat)) (nullValue : Nat) : Bytes :=
  (StackImage.auxvWords auxv nullValue).flatMap (littleEndian 8)

/-! ## Chunks -/

theorem chunksExact_append {size : Nat} (positive : 0 < size) {chunk : Bytes}
    (whole : chunk.length = size) (rest : Bytes) :
    chunksExact size (chunk ++ rest) = chunk :: chunksExact size rest := by
  have count : (chunk ++ rest).length / size = rest.length / size + 1 := by
    rw [List.length_append, whole, Nat.add_comm, Nat.add_div_right _ positive]
  rw [chunksExact, count, List.range_succ_eq_map, List.map_cons, List.map_map, Nat.zero_mul,
    List.drop_zero, ← whole, List.take_left, chunksExact]
  refine congrArg (chunk :: ·) (List.map_congr_left fun i _ => ?_)
  rw [Function.comp_apply, Nat.succ_mul, Nat.add_comm (i * _), ← List.drop_drop, List.drop_left]

theorem readWord_pair {kind value : Nat} (kindWord : kind < 2 ^ 64) (valueWord : value < 2 ^ 64) :
    readWord 8 (littleEndian 8 kind ++ littleEndian 8 value) 0 = kind ∧
      readWord 8 (littleEndian 8 kind ++ littleEndian 8 value) 8 = value := by
  have length := littleEndian_length 8 kind
  refine ⟨?_, ?_⟩
  · rw [readWord, List.drop_zero, List.take_left' length, littleEndian_value]
    exact Nat.mod_eq_of_lt kindWord
  · rw [readWord, List.drop_left' length, List.take_of_length_le, littleEndian_value]
    · exact Nat.mod_eq_of_lt valueWord
    · exact Nat.le_of_eq (littleEndian_length 8 value)

/-! ## The first pair of a kind -/

section Pairs

variable {target nullValue : Nat} {auxv : List (Nat × Nat)}

theorem auxvBytes_cons (pair : Nat × Nat) (rest : List (Nat × Nat)) :
    auxvBytes (pair :: rest) nullValue =
      (littleEndian 8 pair.1 ++ littleEndian 8 pair.2) ++ auxvBytes rest nullValue := by
  simp [auxvBytes, StackImage.auxvWords]

theorem findAuxv_auxvBytes (nullValue : Nat) (nonnull : ∀ pair ∈ auxv, pair.1 ≠ atNull)
    (words : ∀ pair ∈ auxv, pair.1 < 2 ^ 64 ∧ pair.2 < 2 ^ 64) (asked : target ≠ atNull) :
    findAuxv target (chunksExact 16 (auxvBytes auxv nullValue)) =
      ((auxv.filter fun pair => pair.1 = target).head?.map Prod.snd).getD 0 := by
  have whole (kind value : Nat) : (littleEndian 8 kind ++ littleEndian 8 value).length = 16 := by
    rw [List.length_append, littleEndian_length, littleEndian_length]
  induction auxv with
  | nil =>
      have last : auxvBytes [] nullValue =
          (littleEndian 8 0 ++ littleEndian 8 nullValue) ++ [] := by
        simp [auxvBytes, StackImage.auxvWords, atNull]
      have null : readWord 8 (littleEndian 8 0 ++ littleEndian 8 nullValue) 0 = 0 := by
        rw [readWord, List.drop_zero, List.take_left' (littleEndian_length 8 0),
          littleEndian_value]
        rfl
      rw [last, chunksExact_append (by decide) (whole 0 nullValue), findAuxv, null]
      simp only [if_neg (Ne.symm asked : ¬ (0 = target))]
      rfl
  | cons pair rest ih =>
      obtain ⟨kindWord, valueWord⟩ := words pair List.mem_cons_self
      obtain ⟨kind, value⟩ := readWord_pair kindWord valueWord
      have later := ih (fun other listed => nonnull other (List.mem_cons_of_mem _ listed))
        fun other listed => words other (List.mem_cons_of_mem _ listed)
      rw [auxvBytes_cons, chunksExact_append (by decide) (whole _ _), findAuxv, kind, value]
      by_cases same : pair.1 = target
      · simp [same]
      · have present : pair.1 ≠ 0 := nonnull pair List.mem_cons_self
        simp [same, present, later]

end Pairs

/-- The kinds that a hosted process asks for, with the fields that the start on the stack
keeps them in. -/
def hostKinds : List (Nat × (AuxValues → Nat)) :=
  [(atPhdr, AuxValues.phdr), (atPhnum, AuxValues.phnum), (atBase, AuxValues.base)]

theorem record_host {entry : Nat × (AuxValues → Nat)} (listed : entry ∈ hostKinds)
    (aux : AuxValues) (kind value : Nat) :
    entry.2 (aux.record kind value) = if kind = entry.1 then value else entry.2 aux := by
  have cases : entry = (atPhdr, AuxValues.phdr) ∨ entry = (atPhnum, AuxValues.phnum) ∨
      entry = (atBase, AuxValues.base) := by
    simpa [hostKinds] using listed
  by_cases same : kind = entry.1
  · rw [if_pos same, same]
    rcases cases with rfl | rfl | rfl <;> rfl
  · rw [if_neg same]
    rcases cases with rfl | rfl | rfl
    · simp only [AuxValues.record, if_neg same, apply_ite AuxValues.phdr, ite_self]
    · simp only [AuxValues.record, if_neg same, apply_ite AuxValues.phnum, ite_self]
    · simp only [AuxValues.record, if_neg same, apply_ite AuxValues.base, ite_self]

theorem hostKinds_asked {entry : Nat × (AuxValues → Nat)} (listed : entry ∈ hostKinds) :
    entry.1 ≠ atNull ∧ entry.2 .empty = 0 := by
  have cases : entry = (atPhdr, AuxValues.phdr) ∨ entry = (atPhnum, AuxValues.phnum) ∨
      entry = (atBase, AuxValues.base) := by
    simpa [hostKinds] using listed
  rcases cases with rfl | rfl | rfl <;> exact ⟨by decide, rfl⟩

/-- A hosted process that reads its vector from the kernel gets what the same vector gives
when it is parsed on the initial stack, and zero when it cannot be read. The descriptor is
closed in any case. -/
theorem host_auxv_agrees_with_stack (kernel : FileKernel) (rounds : Nat) (table : FileTable)
    (image : StackImage)
    (served : ∀ fd content, kernel.openFile table procSelfAuxv = .ok (fd, content) →
      content = auxvBytes image.auxv image.nullValue)
    (words : ∀ pair ∈ image.auxv, pair.1 < 2 ^ 64 ∧ pair.2 < 2 ^ 64)
    (once : ∀ entry ∈ hostKinds,
      (image.auxv.filter fun pair => pair.1 = entry.1).length ≤ 1)
    (enough : (auxvBytes image.auxv image.nullValue).length < rounds) :
    ∃ result after, readFile kernel rounds table procSelfAuxv = some (result, after) ∧
      after.files = table.files ∧
      ∀ entry ∈ hostKinds, getAuxv kernel rounds table entry.1 =
        some (if result.isOk then entry.2 (InitialStack.parse image.words).aux else 0, after) := by
  obtain ⟨result, after, finished, closed, whole⟩ := readFile_spec kernel rounds procSelfAuxv
    fun fd content opened => served fd content opened ▸ enough
  refine ⟨result, after, finished, closed, fun entry listed => ?_⟩
  rw [getAuxv, finished, Option.map_some]
  cases result with
  | error error => rfl
  | ok data =>
      obtain ⟨fd, opened⟩ := whole data rfl
      obtain ⟨asked, unset⟩ := hostKinds_asked listed
      have found := findAuxv_auxvBytes image.nullValue image.auxvNonnull words asked
      have recorded := foldl_auxRecord image.auxv (record_host listed) .empty
      rw [← head?_eq_getLast? (once entry listed), unset, ← found, ← served fd data opened]
        at recorded
      rw [image.parse_words]
      exact congrArg (fun value => some (value, after)) recorded.symm

/-- A file without a size, five bytes at a time. -/
def slowKernel (content : Bytes) : FileKernel where
  openFile table _ :=
    if table.files 3 = none then .ok (3, content) else .error "Too many open files"
  seekEnd _ := none
  seekStart _ := false
  read _ count remaining := .ok (min 5 (min count remaining))
  unused := by
    intro table path fd found accepted
    split at accepted
    · next free =>
        cases accepted
        exact free
    · cases accepted
  sized := nofun
  read_le := by
    intro turn count remaining length same
    cases same
    omega
  read_pos := by
    intro turn count remaining length same
    cases same
    omega

def hostImage : StackImage where
  argv := [0x1000]
  envp := []
  auxv := [(atPhdr, 0x400040), (atPagesz, 0x1000), (atPhnum, 13), (atBase, 0x7f0000)]
  nullValue := 0
  above := []
  argvNonnull := by decide
  envpNonnull := nofun
  auxvNonnull := by decide

theorem host_auxv_agrees_with_stack_slow :
    ∃ after, getAuxv (slowKernel (auxvBytes hostImage.auxv 0)) 100 ⟨fun _ => none, 0⟩ atPhdr =
      some (0x400040, after) ∧ after.files = fun _ => none := by
  have served (fd : Nat) (content : Bytes)
      (opened : (slowKernel (auxvBytes hostImage.auxv 0)).openFile ⟨fun _ => none, 0⟩ procSelfAuxv =
        .ok (fd, content)) : content = auxvBytes hostImage.auxv hostImage.nullValue := by
    cases opened
    rfl
  obtain ⟨result, after, finished, closed, agree⟩ := host_auxv_agrees_with_stack
    (slowKernel (auxvBytes hostImage.auxv 0)) 100 ⟨fun _ => none, 0⟩ hostImage served (by decide)
    (by decide) (by decide +kernel)
  have succeeded : ((readFile (slowKernel (auxvBytes hostImage.auxv 0)) 100 ⟨fun _ => none, 0⟩
      procSelfAuxv).map fun read => read.1.isOk) = some true := by
    decide +kernel
  rw [finished, Option.map_some] at succeeded
  have phdr := agree (atPhdr, AuxValues.phdr) List.mem_cons_self
  rw [Option.some.inj succeeded] at phdr
  have parsed : (InitialStack.parse hostImage.words).aux.phdr = 0x400040 := by
    decide +kernel
  rw [if_pos rfl] at phdr
  dsimp only at phdr
  rw [parsed] at phdr
  exact ⟨after, phdr, closed⟩

end DynLinker.Registry
