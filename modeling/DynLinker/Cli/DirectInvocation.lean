import DynLinker.Cli.Inspect
import DynLinker.Startup.SearchPaths

/-! The command line of the loader when it is invoked itself (`handle_direct_invocation`
in `cli.rs`): a scan from left to right over options, up to the program to be run. -/

set_option autoImplicit false

namespace DynLinker.Cli

open Lib Startup

/-- The loop of `cstr_eq`. -/
def cstrMatches (memory : ByteMemory) : Nat → Bytes → Bool
  | pointer, [] => memory pointer = 0
  | pointer, byte :: rest =>
      if memory pointer ≠ byte then false else cstrMatches memory (pointer + 1) rest

def cstrEq (memory : ByteMemory) (pointer : Nat) (expected : Bytes) : Bool :=
  if pointer = 0 then false else cstrMatches memory pointer expected

def startsWithDash (memory : ByteMemory) (pointer : Nat) : Bool :=
  pointer ≠ 0 && memory pointer = 0x2d

def consumesValue (memory : ByteMemory) (pointer : Nat) : Bool :=
  cstrEq memory pointer (ascii "--library-path") || cstrEq memory pointer (ascii "--preload") ||
    cstrEq memory pointer (ascii "--audit") ||
    cstrEq memory pointer (ascii "--glibc-hwcaps-prepend") ||
    cstrEq memory pointer (ascii "--glibc-hwcaps-mask") ||
    cstrEq memory pointer (ascii "--inhibit-rpath")

/-- An argument vector: pointers that are null or point to strings with their NUL. -/
structure ArgVector where
  memory : ByteMemory
  pointers : List Nat
  text : Nat → Bytes
  terminated : ∀ pointer ∈ pointers, pointer ≠ 0 →
    memory.Holds pointer (text pointer ++ [0]) ∧ 0 ∉ text pointer

namespace ArgVector

variable (vector : ArgVector)

/-- What `write_cstr` writes for a pointer. -/
def written (pointer : Nat) : Bytes := if pointer = 0 then [] else vector.text pointer

/-- `argv[0]`; a vector without arguments starts with its null pointer. -/
def program : Nat := vector.pointers.getD 0 0

end ArgVector

/-- `print_help`. -/
def printHelp (program : Bytes) : Bytes :=
  ascii "Usage: " ++ program ++ ascii (
    " [OPTION]... EXECUTABLE-FILE [ARGS-FOR-PROGRAM...]\n" ++
    "Rust replacement program interpreter for dynamically linked ELF programs.\n\n" ++
    "  --list                list direct DT_NEEDED dependencies\n" ++
    "  --verify              verify that FILE is a dynamic ELF object this rtld can inspect\n" ++
    "  --inhibit-cache       accepted for glibc ld.so command-line compatibility\n" ++
    "  --library-path PATH   accepted for compatibility; full search override is pending\n" ++
    "  --preload LIST        accepted for compatibility; preload loading is pending\n" ++
    "  --audit LIST          accepted for compatibility; auditing is pending\n" ++
    "  --argv0 STRING        accepted for compatibility; direct execution is pending\n" ++
    "  --glibc-hwcaps-prepend LIST\n" ++
    "                        accepted for command-line compatibility\n" ++
    "  --glibc-hwcaps-mask LIST\n" ++
    "                        accepted for command-line compatibility\n" ++
    "  --inhibit-rpath LIST  accepted for command-line compatibility\n" ++
    "  --list-tunables       list supported rtld tunables\n" ++
    "  --list-diagnostics    list rtld diagnostics\n" ++
    "  --help                display this help and exit\n" ++
    "  --version             output version information and exit\n\n" ++
    "This program interpreter self-identifies as: ld-linux-x86-64.so.2\n")

/-- `print_version`. -/
def printVersion : Bytes :=
  ascii ("dlopen-rs rtld 0.1.0\n" ++
    "Command-line compatible subset of glibc ld.so for x86_64 Linux.\n")

/-- `print_diagnostics`. -/
def printDiagnostics (argc : Nat) : Bytes :=
  ascii ("dlopen.rtld.name=\"ld-linux-x86-64.so.2\"\n" ++
    "dlopen.rtld.version=\"0.1.0\"\n" ++
    "dlopen.rtld.target=\"x86_64-unknown-linux-gnu\"\n" ++
    "dlopen.rtld.argc=" ++ toString argc ++ "\n")

/-- What comes of an invocation: a program to be run, or the end of the process. -/
inductive Invocation where
  | program (direct : DirectProgram)
  | exit (status : Nat) (stdout : List Printed) (stderr : Bytes)

/-- `exit(0)` after a text. -/
def Invocation.say (text : Bytes) : Invocation := .exit 0 [.text text] []

/-- `missing_option_value`. -/
def missingOptionValue (option : Bytes) : Invocation :=
  .exit 1 [] (ascii "rtld: option requires an argument: " ++ option ++ ascii "\n")

/-- `exit(if .. { 0 } else { 1 })`; a panic ends the process with the fatal status. -/
def Answer.exit (answer : Answer) : Invocation :=
  match answer.result with
  | .ok success => .exit (if success then 0 else 1) answer.stdout answer.stderr
  | .error _ => .exit rtldFatalExitStatus answer.stdout answer.stderr

section Scan

variable (checks : Bool) (files : Bytes → Option OpenFile) (vector : ArgVector)

/-- What opening a path returns; a null path cannot be opened. -/
def openPath (pointer : Nat) : Option OpenFile :=
  if pointer = 0 then none else files (vector.text pointer)

/-- The loop of `handle_direct_invocation` over the arguments from an index on. -/
def scanArgs : List Nat → Nat → Nat → Invocation
  | [], _, _ => .say (printHelp (vector.written vector.program))
  | arg :: rest, index, argv0 =>
      if cstrEq vector.memory arg (ascii "--help") then
        .say (printHelp (vector.written vector.program))
      else if cstrEq vector.memory arg (ascii "--version") then .say printVersion
      else if cstrEq vector.memory arg (ascii "--list-diagnostics") then
        .say (printDiagnostics vector.pointers.length)
      else if cstrEq vector.memory arg (ascii "--list-tunables") then
        .say (ascii "dlopen.rtld.tunables: none\n")
      else if cstrEq vector.memory arg (ascii "--verify") then
        match rest with
        | [] => missingOptionValue (vector.written arg)
        | target :: _ =>
            (verify checks (openPath files vector target) (vector.written target)).exit
      else if cstrEq vector.memory arg (ascii "--list") then
        match rest with
        | [] => missingOptionValue (vector.written arg)
        | target :: _ =>
            (list checks (openPath files vector target) (vector.written target)).exit
      else if cstrEq vector.memory arg (ascii "--argv0") then
        match rest with
        | [] => missingOptionValue (vector.written arg)
        | value :: rest => scanArgs rest (index + 2) value
      else if consumesValue vector.memory arg then
        match rest with
        | [] => missingOptionValue (vector.written arg)
        | _ :: rest => scanArgs rest (index + 2) argv0
      else if cstrEq vector.memory arg (ascii "--inhibit-cache") then
        scanArgs rest (index + 1) argv0
      else if startsWithDash vector.memory arg then
        .exit 1 [] (ascii "rtld: unrecognized option: " ++ vector.written arg ++
          ascii "\nTry '--help' for more information.\n")
      else .program ⟨index, argv0⟩

def handleDirectInvocation : Invocation :=
  if vector.pointers.length ≤ 1 then .say (printHelp (vector.written vector.program))
  else scanArgs checks files vector (vector.pointers.drop 1) 1 0

end Scan

end DynLinker.Cli
