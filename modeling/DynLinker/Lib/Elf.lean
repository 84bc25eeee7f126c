import DynLinker.Lib.ByteMemory
import DynLinker.Lib.Bytes
import Mathlib.Data.Nat.Bitwise

/-! The parts of the 64-bit little-endian ELF format that loaders read: program headers,
dynamic tables and relocation entries. Tags and words are kept as their bit patterns. -/

set_option autoImplicit false

namespace DynLinker.Lib

/-- The little-endian word of the given width at an offset. -/
def readWord (width : Nat) (bytes : Bytes) (offset : Nat) : Nat :=
  ((bytes.drop offset).take width).foldr (fun byte value => byte.toNat + 256 * value) 0

structure ElfDyn where
  tag : Nat
  value : Nat
deriving DecidableEq

namespace ElfDyn

/-- `size_of::<ElfDyn>()`. -/
def size : Nat := 16

def decode (bytes : Bytes) : ElfDyn := ⟨readWord 8 bytes 0, readWord 8 bytes 8⟩

def encode (entry : ElfDyn) : Bytes := littleEndian 8 entry.tag ++ littleEndian 8 entry.value

/-- The entry at an address of memory. -/
def read (memory : ByteMemory) (address : Nat) : ElfDyn := decode (memory.slice address size)

end ElfDyn

structure ElfPhdr where
  programType : Nat
  offset : Nat
  vaddr : Nat
  filesz : Nat
deriving DecidableEq

namespace ElfPhdr

/-- `size_of::<ElfPhdr>()`. -/
def size : Nat := 56

def decode (bytes : Bytes) : ElfPhdr :=
  ⟨readWord 4 bytes 0, readWord 8 bytes 8, readWord 8 bytes 16, readWord 8 bytes 32⟩

/-- A header without flags that takes the same addresses and sizes everywhere. -/
def encode (phdr : ElfPhdr) : Bytes :=
  littleEndian 8 phdr.programType ++
    [phdr.offset, phdr.vaddr, phdr.vaddr, phdr.filesz, phdr.filesz, 8].flatMap (littleEndian 8)

/-- The header at an address of memory. -/
def read (memory : ByteMemory) (address : Nat) : ElfPhdr := decode (memory.slice address size)

end ElfPhdr

/-- A relocation entry with addend. -/
structure ElfRela where
  offset : Nat
  info : Nat
  addend : Nat
deriving DecidableEq

namespace ElfRela

/-- `size_of::<ElfRela>()`. -/
def size : Nat := 24

def decode (bytes : Bytes) : ElfRela :=
  ⟨readWord 8 bytes 0, readWord 8 bytes 8, readWord 8 bytes 16⟩

/-- The entries of the table at an address of memory. -/
def readTable (memory : ByteMemory) (address count : Nat) : List ElfRela :=
  (List.range count).map fun i => decode (memory.slice (address + i * size) size)

/-- `r_type()`. -/
def relocationType (entry : ElfRela) : Nat := entry.info % 2 ^ 32

end ElfRela

namespace ElfProgramType

def load : Nat := 1
def dynamic : Nat := 2
def phdr : Nat := 6
def tls : Nat := 7

end ElfProgramType

namespace ElfDynamicTag

def null : Nat := 0
def needed : Nat := 1
def pltrelsz : Nat := 2
def pltgot : Nat := 3
def hash : Nat := 4
def strtab : Nat := 5
def symtab : Nat := 6
def rela : Nat := 7
def relasz : Nat := 8
def relaent : Nat := 9
def strsz : Nat := 10
def init : Nat := 12
def fini : Nat := 13
def rel : Nat := 17
def jmprel : Nat := 23
def initArray : Nat := 25
def finiArray : Nat := 26
def initArraysz : Nat := 27
def finiArraysz : Nat := 28
def preinitArray : Nat := 32
def preinitArraysz : Nat := 33
def relrsz : Nat := 35
def relr : Nat := 36
def relrent : Nat := 37
def gnuHash : Nat := 0x6ffffef5
def gnuLiblist : Nat := 0x6ffffef9
def versym : Nat := 0x6ffffff0
def relacount : Nat := 0x6ffffff9
def verdef : Nat := 0x6ffffffc
def verneed : Nat := 0x6ffffffe

end ElfDynamicTag

/-- A dynamic table: entries with other tags, then `DT_NULL`. What follows is not part of it. -/
structure DynamicTable where
  entries : List ElfDyn
  last : ElfDyn
  others : ∀ entry ∈ entries, entry.tag ≠ ElfDynamicTag.null
  ended : last.tag = ElfDynamicTag.null

namespace DynamicTable

/-- The table of these entries, ended by `DT_NULL`. -/
def ofEntries (entries : List ElfDyn) (others : ∀ entry ∈ entries, entry.tag ≠ ElfDynamicTag.null) :
    DynamicTable :=
  ⟨entries, ⟨ElfDynamicTag.null, 0⟩, others, rfl⟩

/-- The table as it lies in memory, `DT_NULL` included. -/
def all (table : DynamicTable) : List ElfDyn := table.entries ++ [table.last]

/-- No tag but `DT_NEEDED` is repeated. -/
def NoRepeats (table : DynamicTable) : Prop :=
  table.entries.Pairwise fun left right => left.tag = right.tag → left.tag = ElfDynamicTag.needed

instance (table : DynamicTable) : Decidable table.NoRepeats :=
  inferInstanceAs (Decidable (List.Pairwise _ _))

/-- The value of the first entry with this tag. -/
def value? (table : DynamicTable) (tag : Nat) : Option Nat :=
  (table.entries.find? (·.tag = tag)).map ElfDyn.value

/-- The value of a tag, zero where the table has none. -/
def value (table : DynamicTable) (tag : Nat) : Nat := (table.value? tag).getD 0

/-- Zero or absent. -/
def Vacant (table : DynamicTable) (tag : Nat) : Prop :=
  ∀ entry ∈ table.entries, entry.tag = tag → entry.value = 0

instance (table : DynamicTable) (tag : Nat) : Decidable (table.Vacant tag) :=
  inferInstanceAs (Decidable (∀ entry ∈ table.entries, _))

/-- The table lies in memory from this address on. -/
def At (table : DynamicTable) (memory : ByteMemory) (address : Nat) : Prop :=
  ∀ i entry, table.all[i]? = some entry → ElfDyn.read memory (address + i * ElfDyn.size) = entry

instance (table : DynamicTable) (memory : ByteMemory) (address : Nat) :
    Decidable (table.At memory address) :=
  decidable_of_iff
    (∀ i : Fin table.all.length,
      ElfDyn.read memory (address + i * ElfDyn.size) = table.all.get i) (by
    constructor
    · intro held i entry found
      obtain ⟨bounded, rfl⟩ := List.getElem?_eq_some_iff.mp found
      exact held ⟨i, bounded⟩
    · intro held i
      exact held i _ (List.getElem?_eq_getElem i.isLt))

section NoRepeats

variable {table : DynamicTable} {tag : Nat}

/-- A scan that updates a word at every entry with a tag meets one such entry at most. -/
theorem foldl_tagged (noRepeats : table.NoRepeats) (other : tag ≠ ElfDynamicTag.needed)
    (update : Nat → Nat → Nat) (start : Nat) :
    table.entries.foldl
        (fun word entry => if entry.tag = tag then update word entry.value else word) start =
      match table.value? tag with
      | some found => update start found
      | none => start := by
  rw [value?]
  rw [NoRepeats] at noRepeats
  generalize table.entries = entries at noRepeats
  induction entries generalizing start with
  | nil => rfl
  | cons entry rest ih =>
      obtain ⟨apart, noRepeats⟩ := List.pairwise_cons.mp noRepeats
      rw [List.foldl_cons, List.find?_cons]
      by_cases tagged : entry.tag = tag
      · have absent : rest.find? (·.tag = tag) = none := by
          rw [List.find?_eq_none]
          intro later member same
          have repeated := tagged.trans (of_decide_eq_true same).symm
          exact other (tagged ▸ apart later member repeated)
        have rested := ih (update start entry.value) noRepeats
        rw [absent] at rested
        simpa [tagged] using rested
      · simpa [tagged] using ih start noRepeats

theorem value_eq_zero_iff (noRepeats : table.NoRepeats) (other : tag ≠ ElfDynamicTag.needed) :
    table.value tag = 0 ↔ table.Vacant tag := by
  rw [value, value?, Vacant]
  rw [NoRepeats] at noRepeats
  generalize table.entries = entries at noRepeats
  induction entries with
  | nil => simp
  | cons entry rest ih =>
      obtain ⟨apart, noRepeats⟩ := List.pairwise_cons.mp noRepeats
      rw [List.find?_cons, List.forall_mem_cons]
      by_cases tagged : entry.tag = tag
      · have absent : ∀ later ∈ rest, later.tag = tag → later.value = 0 := by
          intro later member same
          exact absurd (tagged ▸ apart later member (tagged.trans same.symm)) other
        rw [decide_eq_true tagged]
        exact ⟨fun zero => ⟨fun _ => zero, absent⟩, fun vacant => vacant.1 tagged⟩
      · simpa [tagged] using ih noRepeats

theorem NoRepeats.perm {left right : DynamicTable} (noRepeats : left.NoRepeats)
    (same : left.entries.Perm right.entries) : right.NoRepeats := by
  refine (same.pairwise_iff ?_).mp noRepeats
  intro first second apart tagged
  exact tagged.trans (apart tagged.symm)

end NoRepeats

end DynamicTable

end DynLinker.Lib
