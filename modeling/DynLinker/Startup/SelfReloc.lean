import DynLinker.Lib.Elf

/-! The relocation of the loader itself (`bootstrap/self_reloc.rs`), which runs before
any other code of it can. The relocations of single entries are those of `elf_loader`,
which is not part of the repository and is a parameter here. -/

set_option autoImplicit false

namespace DynLinker.Startup

open Lib

namespace NativeArch

def none : Nat := 0
def relative : Nat := 8

end NativeArch

def nativeRelocationTag : Nat := ElfDynamicTag.rela
def nativeRelocationSizeTag : Nat := ElfDynamicTag.relasz
def nativeRelocationEntrySizeTag : Nat := ElfDynamicTag.relaent

/-- `size_of::<ElfRelr>()`. -/
def relrSize : Nat := 8

/-- The tags of initialisers and finalisers. -/
def lifecycleTags : List Nat :=
  [ElfDynamicTag.init, ElfDynamicTag.fini, ElfDynamicTag.initArray, ElfDynamicTag.initArraysz,
    ElfDynamicTag.finiArray, ElfDynamicTag.finiArraysz, ElfDynamicTag.preinitArray,
    ElfDynamicTag.preinitArraysz]

@[ext]
structure RelocationTable where
  offset : Nat
  size : Nat
  entrySize : Nat
deriving DecidableEq

namespace RelocationTable

def empty (entrySize : Nat) : RelocationTable := ⟨0, 0, entrySize⟩

def isEmpty (table : RelocationTable) : Bool := table.size = 0

/-- `validate::<T>`, given the size of `T`. -/
def validate (table : RelocationTable) (entrySize : Nat) : Option RelocationTable :=
  if table.isEmpty then some { table with entrySize := entrySize }
  else if table.offset = 0 ∨ table.entrySize ≠ entrySize ∨ table.size % table.entrySize ≠ 0 then
    none
  else some table

def len (table : RelocationTable) : Nat := table.size / table.entrySize

end RelocationTable

@[ext]
structure RelocationTables where
  rela : RelocationTable
  relr : RelocationTable
  hasLifecycle : Bool
deriving DecidableEq

namespace RelocationTables

/-- What `parse` starts from. -/
def initial : RelocationTables := ⟨.empty ElfRela.size, .empty relrSize, false⟩

/-- One entry of the table, or the refusal of the whole table. -/
def scan (tables : RelocationTables) (entry : ElfDyn) : Option RelocationTables :=
  if entry.tag = ElfDynamicTag.needed then none
  else if entry.tag = nativeRelocationTag then
    some { tables with rela := { tables.rela with offset := entry.value } }
  else if entry.tag = nativeRelocationSizeTag then
    some { tables with rela := { tables.rela with size := entry.value } }
  else if entry.tag = nativeRelocationEntrySizeTag ∧ entry.value ≠ 0 then
    some { tables with rela := { tables.rela with entrySize := entry.value } }
  else if entry.tag = ElfDynamicTag.relr then
    some { tables with relr := { tables.relr with offset := entry.value } }
  else if entry.tag = ElfDynamicTag.relrsz then
    some { tables with relr := { tables.relr with size := entry.value } }
  else if entry.tag = ElfDynamicTag.relrent ∧ entry.value ≠ 0 then
    some { tables with relr := { tables.relr with entrySize := entry.value } }
  else if (entry.tag = ElfDynamicTag.jmprel ∨ entry.tag = ElfDynamicTag.pltrelsz) ∧
      entry.value ≠ 0 then none
  else if entry.tag ∈ lifecycleTags ∧ entry.value ≠ 0 then
    some { tables with hasLifecycle := true }
  else some tables

/-- What `parse` returns at `DT_NULL`. -/
def finish (tables : RelocationTables) : Option RelocationTables := do
  let rela ← tables.rela.validate ElfRela.size
  let relr ← tables.relr.validate relrSize
  return { rela := rela, relr := relr, hasLifecycle := tables.hasLifecycle }

/-- The loop of `parse`; the fuel is what is left of the 4096 entries. -/
def parseLoop (memory : ByteMemory) (dynamic : Nat) :
    Nat → Nat → RelocationTables → Option RelocationTables
  | 0, _, _ => none
  | fuel + 1, index, tables =>
      let entry := ElfDyn.read memory (dynamic + index * ElfDyn.size)
      if entry.tag = ElfDynamicTag.null then tables.finish
      else match tables.scan entry with
        | none => none
        | some next => parseLoop memory dynamic fuel (index + 1) next

def parse (memory : ByteMemory) (dynamic : Nat) : Option RelocationTables :=
  if dynamic = 0 then none else parseLoop memory dynamic 4096 0 initial

def canPassThrough (tables : RelocationTables) : Bool :=
  tables.rela.isEmpty && tables.relr.isEmpty && !tables.hasLifecycle

end RelocationTables

/-- `relocate_relative` and `relocate_relr` of `elf_loader`: whether they succeed, and the
memory they leave. The second is given the address and the length of its slice. -/
structure ElfRelocator where
  relocateRelative : (loadBias : Nat) → List ElfRela → ByteMemory → Bool × ByteMemory
  relocateRelr : (loadBias : Nat) → (address count : Nat) → ByteMemory → Bool × ByteMemory

inductive RelocationCall where
  | relative (entries : List ElfRela)
  | relr (address count : Nat)
deriving DecidableEq

/-- The memory, and the calls so far with what they returned. -/
structure Relocating where
  memory : ByteMemory
  calls : List (RelocationCall × Bool)

namespace Relocating

/-- One call; the relocation ends where it fails. -/
def call (run : Relocating) (call : RelocationCall) (result : Bool × ByteMemory) :
    Except Relocating Relocating :=
  let next : Relocating := ⟨result.2, run.calls ++ [(call, result.1)]⟩
  if result.1 then .ok next else .error next

end Relocating

namespace RelocationTables

variable (relocator : ElfRelocator) (loadBias : Nat)

/-- The body of the loop over the groups between `NONE` entries. -/
def relocateGroup (run : Relocating) (relative : List ElfRela) : Except Relocating Relocating :=
  if relative.isEmpty then .ok run
  else if relative.all (·.relocationType = NativeArch.relative) then
    run.call (.relative relative) (relocator.relocateRelative loadBias relative run.memory)
  else .error run

/-- The `RELA` table is one slice, read before anything is relocated. -/
def relaEntries (tables : RelocationTables) (memory : ByteMemory) : List ElfRela :=
  if tables.rela.isEmpty then []
  else ElfRela.readTable memory ((loadBias + tables.rela.offset) % 2 ^ 64) tables.rela.len

/-- The part of `apply` about the `RELA` table. An error is the answer `false`. -/
def applyRela (tables : RelocationTables) (run : Relocating) : Except Relocating Relocating :=
  ((tables.relaEntries loadBias run.memory).splitOnP
    (·.relocationType = NativeArch.none)).foldlM (relocateGroup relocator loadBias) run

/-- The part of `apply` about the `RELR` table. -/
def applyRelr (tables : RelocationTables) (run : Relocating) : Except Relocating Relocating :=
  if tables.relr.isEmpty then .ok run
  else
    let address := (loadBias + tables.relr.offset) % 2 ^ 64
    run.call (.relr address tables.relr.len)
      (relocator.relocateRelr loadBias address tables.relr.len run.memory)

def apply (tables : RelocationTables) (memory : ByteMemory) : Except Relocating Relocating :=
  tables.applyRela relocator loadBias ⟨memory, []⟩ >>= tables.applyRelr relocator loadBias

end RelocationTables

/-- `relocate`, with the calls that it makes. -/
def relocate (relocator : ElfRelocator) (memory : ByteMemory) (dynamic loadBias : Nat) :
    Bool × Relocating :=
  match RelocationTables.parse memory dynamic with
  | none => (false, ⟨memory, []⟩)
  | some tables =>
      match tables.apply relocator loadBias memory with
      | .ok run => (true, run)
      | .error run => (false, run)

/-- `can_pass_through`. -/
def canPassThrough (memory : ByteMemory) (dynamic : Nat) : Bool :=
  dynamic = 0 || (RelocationTables.parse memory dynamic).any RelocationTables.canPassThrough

end DynLinker.Startup
