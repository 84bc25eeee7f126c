import DynLinker.Lib.Bytes

/-! The initial process stack (`bootstrap/stack.rs`). The stack is the list of
machine words from the initial stack pointer upwards, and a pointer into it is
a word index. -/

set_option autoImplicit false

namespace DynLinker.Startup

open Lib

def atNull : Nat := 0
def atPhdr : Nat := 3
def atPhent : Nat := 4
def atPhnum : Nat := 5
def atPagesz : Nat := 6
def atBase : Nat := 7
def atEntry : Nat := 9
def atPlatform : Nat := 15
def atHwcap : Nat := 16
def atClktck : Nat := 17
def atFpucw : Nat := 18
def atSecure : Nat := 23
def atHwcap2 : Nat := 26
def atHwcap3 : Nat := 29
def atHwcap4 : Nat := 30
def atExecfn : Nat := 31
def atSysinfoEhdr : Nat := 33
def atMinsigstksz : Nat := 51

structure AuxValues where
  phdr : Nat := 0
  phent : Nat := 0
  phnum : Nat := 0
  base : Nat := 0
  entry : Nat := 0
  secure : Nat := 0
  pagesize : Nat := 0
  platform : Nat := 0
  hwcap : Nat := 0
  hwcap2 : Nat := 0
  hwcap3 : Nat := 0
  hwcap4 : Nat := 0
  clktck : Nat := 0
  fpucw : Nat := 0
  minsigstacksize : Nat := 0
  sysinfoEhdr : Nat := 0
deriving DecidableEq

/-- `AuxValues::empty`. -/
def AuxValues.empty : AuxValues := {}

/-- The assignment that `parse_auxv` makes for one pair. -/
def AuxValues.record (aux : AuxValues) (kind value : Nat) : AuxValues :=
  if kind = atPhdr then { aux with phdr := value }
  else if kind = atPhent then { aux with phent := value }
  else if kind = atPhnum then { aux with phnum := value }
  else if kind = atBase then { aux with base := value }
  else if kind = atEntry then { aux with entry := value }
  else if kind = atSecure then { aux with secure := value }
  else if kind = atPagesz then { aux with pagesize := value }
  else if kind = atPlatform then { aux with platform := value }
  else if kind = atHwcap then { aux with hwcap := value }
  else if kind = atHwcap2 then { aux with hwcap2 := value }
  else if kind = atHwcap3 then { aux with hwcap3 := value }
  else if kind = atHwcap4 then { aux with hwcap4 := value }
  else if kind = atClktck then { aux with clktck := value }
  else if kind = atFpucw then { aux with fpucw := value }
  else if kind = atMinsigstksz then { aux with minsigstacksize := value }
  else if kind = atSysinfoEhdr then { aux with sysinfoEhdr := value }
  else aux

/-- `parse_auxv` of the words from the vector on. -/
def parseAuxv : AuxValues → List Nat → AuxValues
  | aux, kind :: value :: rest =>
      if kind = atNull then aux else parseAuxv (aux.record kind value) rest
  | aux, _ => aux

/-- The words of a vector up to and including its `AT_NULL` pair. -/
def auxvLength : List Nat → Nat
  | kind :: _ :: rest => if kind = atNull then 2 else 2 + auxvLength rest
  | rest => rest.length

/-- The pointers of a null-terminated array. -/
def pointersAt (words : List Nat) (start : Nat) : List Nat :=
  (words.drop start).takeWhile (· ≠ 0)

structure ProcessStack where
  argc : Nat
  argv : Nat
  envp : Nat
  auxv : Nat
  execPath : Nat
deriving DecidableEq

structure InitialStack where
  words : List Nat
  process : ProcessStack
  aux : AuxValues
deriving DecidableEq

/-- The program that the command line of a direct invocation selects. -/
structure DirectProgram where
  argvIndex : Nat
  argv0 : Nat

namespace InitialStack

/-- `InitialStack::parse`. -/
def parse (words : List Nat) : InitialStack :=
  let argc := words.getD 0 0
  let envp := argc + 2
  let auxv := envp + (pointersAt words envp).length + 1
  {
    words := words
    process := { argc := argc, argv := 1, envp := envp, auxv := auxv, execPath := 0 }
    aux := parseAuxv .empty (words.drop auxv)
  }

/-- The copy loop: `count` words from `src` to `dst`, lowest first. -/
def copyWords (words : List Nat) (dst src : Nat) : Nat → List Nat
  | 0 => words
  | count + 1 =>
      let copied := copyWords words dst src count
      copied.set (dst + count) (copied.getD (src + count) 0)

/-- `InitialStack::rewrite_for_program`: the words it leaves and what it returns. -/
def rewriteForProgram (initial : InitialStack) (direct : DirectProgram) :
    List Nat × ProcessStack :=
  let argc := initial.process.argc - direct.argvIndex
  let src := 1 + direct.argvIndex
  let stop := initial.process.auxv + auxvLength (initial.words.drop initial.process.auxv)
  let moved := (copyWords initial.words 1 src (stop - src)).set 0 argc
  let execPath := moved.getD 1 0
  let rewritten := if direct.argv0 ≠ 0 then moved.set 1 direct.argv0 else moved
  let envp := argc + 2
  (rewritten, {
    argc := argc
    argv := 1
    envp := envp
    auxv := envp + (pointersAt rewritten envp).length + 1
    execPath := execPath
  })

end InitialStack

/-- `size_of::<ElfPhdr>()`. -/
def phdrSize : Nat := 56

/-- What `patch_auxv` is given about the program. -/
structure AuxPatch where
  phdr : Nat
  phnum : Nat
  base : Nat
  entry : Nat
  execPath : Nat

/-- The value that `patch_auxv` leaves in a pair. -/
def AuxPatch.value (patch : AuxPatch) (kind value : Nat) : Nat :=
  if kind = atPhdr then patch.phdr
  else if kind = atPhent then phdrSize
  else if kind = atPhnum then patch.phnum
  else if kind = atBase then patch.base
  else if kind = atEntry then patch.entry
  else if kind = atExecfn then patch.execPath
  else value

/-- The loop of `patch_auxv` over the words from the vector on. -/
def patchPairs (patch : AuxPatch) : List Nat → List Nat
  | kind :: value :: rest =>
      if kind = atNull then kind :: value :: rest
      else kind :: patch.value kind value :: patchPairs patch rest
  | rest => rest

/-- `patch_auxv`. A word index is never the null pointer that it checks for. -/
def patchAuxv (words : List Nat) (auxv : Nat) (patch : AuxPatch) : List Nat :=
  words.take auxv ++ patchPairs patch (words.drop auxv)

/-- The pairs of a vector up to `AT_NULL`. -/
def auxvPairs : List Nat → List (Nat × Nat)
  | kind :: value :: rest => if kind = atNull then [] else (kind, value) :: auxvPairs rest
  | _ => []

/-- A well-formed initial stack: argument and environment pointers are not null,
auxiliary kinds are not `AT_NULL`, and anything may lie above the vector. -/
structure StackImage where
  argv : List Nat
  envp : List Nat
  auxv : List (Nat × Nat)
  nullValue : Nat
  above : List Nat
  argvNonnull : ∀ pointer ∈ argv, pointer ≠ 0
  envpNonnull : ∀ pointer ∈ envp, pointer ≠ 0
  auxvNonnull : ∀ pair ∈ auxv, pair.1 ≠ atNull

namespace StackImage

def auxvWords (auxv : List (Nat × Nat)) (nullValue : Nat) : List Nat :=
  auxv.flatMap (fun pair => [pair.1, pair.2]) ++ [atNull, nullValue]

/-- The words of the image, the argument count first. -/
def words (image : StackImage) : List Nat :=
  image.argv.length :: (image.argv ++ 0 :: (image.envp ++ 0 ::
    (auxvWords image.auxv image.nullValue ++ image.above)))

end StackImage

end DynLinker.Startup
