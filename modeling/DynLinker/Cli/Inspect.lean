import DynLinker.Lib.Elf
import DynLinker.Lib.MachineWord

/-! The ELF inspector behind `--list` and `--verify` (`cli.rs`). It reads a file piece by
piece and keeps what it finds in arrays of fixed size. -/

set_option autoImplicit false

namespace DynLinker.Cli

open Lib

/-- An open regular file. A read may return less than it was asked for, but not nothing
unless the file ends there. -/
structure OpenFile where
  content : Bytes
  chunk : (length offset : Nat) → Nat
  sized : content.length < 2 ^ 63
  chunked : ∀ length offset, 0 < length → 0 < chunk length offset ∧ chunk length offset ≤ length

namespace OpenFile

/-- A file whose reads all come back complete. -/
def whole (content : Bytes) (sized : content.length < 2 ^ 63) : OpenFile where
  content := content
  chunk length _ := length
  sized := sized
  chunked length _ positive := ⟨positive, Nat.le_refl length⟩

variable (file : OpenFile)

/-- `pread64`; an offset that is negative as a signed number is refused. -/
def pread (length offset : Nat) : Option Bytes :=
  if 2 ^ 63 ≤ offset then none
  else some ((file.content.drop offset).take (file.chunk length offset))

/-- The loop of `pread_exact`, which gets at least one byte in each round. -/
def preadLoop : Nat → Nat → Nat → Option Bytes
  | _, 0, _ => some []
  | 0, _ + 1, _ => none
  | rounds + 1, left + 1, offset =>
      match file.pread (left + 1) offset with
      | none => none
      | some bytes =>
          if bytes.length = 0 ∨ left + 1 < bytes.length then none
          else (preadLoop rounds (left + 1 - bytes.length)
            ((offset + bytes.length) % 2 ^ 64)).map (bytes ++ ·)

def preadExact (length offset : Nat) : Option Bytes := file.preadLoop length length offset

end OpenFile

def elfclass64 : UInt8 := 2
def elfdata2lsb : UInt8 := 1
def etExec : Nat := 2
def etDyn : Nat := 3
def emX8664 : Nat := 62

def maxPhdrs : Nat := 256
def maxLoads : Nat := 16
def maxNeeded : Nat := 64
def maxDyn : Nat := 4096

structure LoadSegment where
  vaddr : Nat
  offset : Nat
  filesz : Nat
deriving DecidableEq

/-- The array of needed names is the list of its used elements. -/
structure ElfInfo where
  needed : List Nat
  strtabOffset : Nat
  strtabSize : Nat
deriving DecidableEq

inductive InspectError where
  | cannotOpen
  | cannotRead
  | notElf
  | unsupported
  | notDynamic
  | badDynamic
deriving DecidableEq

/-- Why an inspection ends without a result. -/
inductive Stop where
  | panicked (panic : Panic)
  | refused (error : InspectError)
deriving DecidableEq

def readAt (file : OpenFile) (length offset : Nat) : Except Stop Bytes :=
  match file.preadExact length offset with
  | some bytes => .ok bytes
  | none => .error (.refused .cannotRead)

/-- What the inspector takes from the ELF header. -/
structure ProgramHeaders where
  phoff : Nat
  phentsize : Nat
  phnum : Nat
deriving DecidableEq

/-- The checks of the ELF header. -/
def checkHeader (ehdr : Bytes) : Except InspectError ProgramHeaders :=
  let type := readWord 2 ehdr 16
  let phentsize := readWord 2 ehdr 54
  let phnum := readWord 2 ehdr 56
  if ehdr.take 4 ≠ [0x7f, 0x45, 0x4c, 0x46] then .error .notElf
  else if ehdr.getD 4 0 ≠ elfclass64 ∨ ehdr.getD 5 0 ≠ elfdata2lsb then .error .unsupported
  else if (type ≠ etExec ∧ type ≠ etDyn) ∨ readWord 2 ehdr 18 ≠ emX8664 then .error .unsupported
  else if phentsize < 56 ∨ phnum = 0 ∨ maxPhdrs < phnum then .error .unsupported
  else .ok ⟨readWord 8 ehdr 32, phentsize, phnum⟩

/-- What the loop over the program headers collects. -/
structure PhdrScan where
  loads : List LoadSegment
  dynamicOffset : Nat
  dynamicSize : Nat
deriving DecidableEq

namespace PhdrScan

def empty : PhdrScan := ⟨[], 0, 0⟩

def record (scan : PhdrScan) (phdr : ElfPhdr) : PhdrScan :=
  if phdr.programType = ElfProgramType.load ∧ scan.loads.length < maxLoads then
    { scan with loads := scan.loads ++ [⟨phdr.vaddr, phdr.offset, phdr.filesz⟩] }
  else if phdr.programType = ElfProgramType.dynamic then
    { scan with dynamicOffset := phdr.offset, dynamicSize := phdr.filesz }
  else scan

end PhdrScan

/-- The loop over the program headers; the count is what is left of them. -/
def scanPhdrs (checks : Bool) (file : OpenFile) (header : ProgramHeaders) :
    Nat → Nat → PhdrScan → Except Stop PhdrScan
  | 0, _, scan => .ok scan
  | count + 1, index, scan => do
      let scaled ← (plainMul checks 64 index header.phentsize).mapError Stop.panicked
      let offset ← (plainAdd checks 64 header.phoff scaled).mapError Stop.panicked
      let phdr ← readAt file ElfPhdr.size offset
      scanPhdrs checks file header count (index + 1) (scan.record (.decode phdr))

/-- What the loop over the dynamic entries collects. -/
@[ext]
structure DynScan where
  needed : List Nat
  strtabVaddr : Nat
  strtabSize : Nat
deriving DecidableEq

namespace DynScan

def empty : DynScan := ⟨[], 0, 0⟩

def record (scan : DynScan) (entry : ElfDyn) : DynScan :=
  if entry.tag = ElfDynamicTag.needed ∧ scan.needed.length < maxNeeded then
    { scan with needed := scan.needed ++ [entry.value] }
  else if entry.tag = ElfDynamicTag.strtab then { scan with strtabVaddr := entry.value }
  else if entry.tag = ElfDynamicTag.strsz then { scan with strtabSize := entry.value }
  else scan

end DynScan

/-- The loop over the dynamic entries; the count is what is left of them. -/
def scanDynamic (checks : Bool) (file : OpenFile) (dynamicOffset : Nat) :
    Nat → Nat → DynScan → Except Stop DynScan
  | 0, _, scan => .ok scan
  | count + 1, index, scan => do
      let scaled ← (plainMul checks 64 index ElfDyn.size).mapError Stop.panicked
      let offset ← (plainAdd checks 64 dynamicOffset scaled).mapError Stop.panicked
      let bytes ← readAt file ElfDyn.size offset
      let entry := ElfDyn.decode bytes
      if entry.tag = ElfDynamicTag.null then .ok scan
      else scanDynamic checks file dynamicOffset count (index + 1) (scan.record entry)

def vaddrToOffset (checks : Bool) (vaddr : Nat) : List LoadSegment → Except Panic (Option Nat)
  | [] => .ok none
  | segment :: rest =>
      if segment.vaddr ≤ vaddr ∧ vaddr - segment.vaddr < segment.filesz then
        (plainAdd checks 64 segment.offset (vaddr - segment.vaddr)).map some
      else vaddrToOffset checks vaddr rest

/-- The part of `inspect_fd` after the dynamic entries. -/
def locateStrtab (checks : Bool) (loads : List LoadSegment) (found : DynScan) :
    Except Stop ElfInfo :=
  if found.strtabVaddr = 0 ∨ found.strtabSize = 0 then .error (.refused .badDynamic)
  else do
    match ← (vaddrToOffset checks found.strtabVaddr loads).mapError Stop.panicked with
    | none => .error (.refused .badDynamic)
    | some strtabOffset => .ok ⟨found.needed, strtabOffset, found.strtabSize⟩

/-- The part of `inspect_fd` after the program headers. -/
def inspectDynamic (checks : Bool) (file : OpenFile) (scan : PhdrScan) : Except Stop ElfInfo :=
  if scan.dynamicOffset = 0 ∨ scan.dynamicSize = 0 then .error (.refused .notDynamic)
  else do
    let dynamicLen := min (scan.dynamicSize / ElfDyn.size) maxDyn
    let found ← scanDynamic checks file scan.dynamicOffset dynamicLen 0 .empty
    locateStrtab checks scan.loads found

def inspectFd (checks : Bool) (file : OpenFile) : Except Stop ElfInfo := do
  let ehdr ← readAt file 64 0
  let header ← (checkHeader ehdr).mapError Stop.refused
  let scan ← scanPhdrs checks file header header.phnum 0 .empty
  inspectDynamic checks file scan

/-- `inspect`, given what opening the path returns. -/
def inspect (checks : Bool) : Option OpenFile → Except Stop ElfInfo
  | none => .error (.refused .cannotOpen)
  | some file => inspectFd checks file

/-- A piece of output: a text, or a byte that was read from a position of the file. -/
inductive Printed where
  | text (bytes : Bytes)
  | read (position : Nat) (byte : UInt8)
deriving DecidableEq

/-- The bytes of a piece. -/
def Printed.bytes : Printed → Bytes
  | .text bytes => bytes
  | .read _ byte => [byte]

/-- The loop of `print_string_from_file`; `none` where the rounds do not suffice. -/
def printLoop (file : OpenFile) (stop : Nat) : Nat → Nat → Option (List Printed)
  | 0, _ => none
  | rounds + 1, cursor =>
      if cursor < stop then
        match file.preadExact 1 cursor with
        | some [byte] =>
            if byte = 0 then some []
            else (printLoop file stop rounds ((cursor + 1) % 2 ^ 64)).map (.read cursor byte :: ·)
        | _ => some []
      else some []

/-- `print_string_from_file`. -/
def printStringFromFile (checks : Bool) (file : OpenFile) (offset limit : Nat) :
    Except Panic (List Printed) :=
  (plainAdd checks 64 offset limit).map fun stop =>
    (printLoop file stop (file.content.length + 1) offset).getD []

def neededPrefix : Printed := .text (ascii "\t")
def neededSuffix : Printed := .text (ascii " => not resolved by stage-0 rtld CLI\n")
def selfLine : Printed := .text (ascii "\tld-linux-x86-64.so.2 => self\n")

/-- The answer of a command, or its panic, with what it has printed. -/
structure Answer where
  result : Except Panic Bool
  stdout : List Printed
  stderr : Bytes
deriving DecidableEq

/-- The loop of `list` over the needed names. -/
def listNeeded (checks : Bool) (file : OpenFile) (info : ElfInfo) : List Nat → Answer
  | [] => ⟨.ok true, [selfLine], []⟩
  | needed :: rest =>
      let printed := plainAdd checks 64 info.strtabOffset needed >>= fun offset =>
        printStringFromFile checks file offset info.strtabSize
      match printed with
      | .error panic => ⟨.error panic, [neededPrefix], []⟩
      | .ok name =>
          let answer := listNeeded checks file info rest
          { answer with stdout := neededPrefix :: name ++ neededSuffix :: answer.stdout }

/-- `print_inspect_error`. -/
def printInspectError (path : Bytes) (error : InspectError) : Bytes :=
  let reason := match error with
    | .cannotOpen => "cannot open file\n"
    | .cannotRead => "cannot read ELF metadata\n"
    | .notElf => "not an ELF object\n"
    | .unsupported => "unsupported ELF object\n"
    | .notDynamic => "not a dynamically linked object\n"
    | .badDynamic => "invalid dynamic section\n"
  ascii "rtld: " ++ path ++ ascii ": " ++ ascii reason

/-- `verify`; a file that is opened twice is the same file. -/
def verify (checks : Bool) (opened : Option OpenFile) (path : Bytes) : Answer :=
  match inspect checks opened with
  | .ok _ => ⟨.ok true, [], []⟩
  | .error (.refused error) => ⟨.ok false, [], printInspectError path error⟩
  | .error (.panicked panic) => ⟨.error panic, [], []⟩

def list (checks : Bool) (opened : Option OpenFile) (path : Bytes) : Answer :=
  match inspect checks opened with
  | .ok info =>
      match opened with
      | some file => listNeeded checks file info info.needed
      | none => ⟨.ok false, [], printInspectError path .cannotOpen⟩
  | .error (.refused error) => ⟨.ok false, [], printInspectError path error⟩
  | .error (.panicked panic) => ⟨.error panic, [], []⟩

end DynLinker.Cli
