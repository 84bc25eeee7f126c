import DynLinker.Arch
import DynLinker.Startup.InitialStack

/-! From process entry to the library search path: the part of `startup::run`
that publishes the process state (`bootstrap/startup.rs`,
`bootstrap/publish.rs`), and `SEARCH_PATHS`, which is built later from that
state (`dlopen/run.rs`). -/

set_option autoImplicit false

namespace DynLinker.Startup

open Lib

/-- What the kernel hands over: the stack words and the C strings in memory. -/
structure ProcessMemory where
  words : List Nat
  cstr : Nat → Bytes

/-- The globals that startup writes and the loader reads later. `envp` is the
word index of `ENVP`, or `none` while that pointer is null. -/
structure Globals where
  words : List Nat
  argc : Nat
  argv : Nat
  envp : Option Nat
  libcEnableSecure : Nat

/-- The open file descriptors, and what `openat` returns for a path. -/
structure Descriptors where
  isOpen : Nat → Bool
  openat : Bytes → Option Nat

def rtldFatalExitStatus : Nat := 127

/-- `check_standard_fd`: an exit status ends the process. -/
def checkStandardFd (fds : Descriptors) (fd : Nat) (path : Bytes) : Except Nat Descriptors :=
  if fds.isOpen fd then .ok fds
  else match fds.openat path with
    | none => .error rtldFatalExitStatus
    | some opened =>
        if opened ≠ fd then .error rtldFatalExitStatus
        else .ok { fds with isOpen := Function.update fds.isOpen fd true }

def checkStandardFdsIfSecure (secure : Nat) (fds : Descriptors) : Except Nat Descriptors :=
  if secure = 0 then .ok fds
  else do
    let fds ← checkStandardFd fds 0 (ascii "/dev/full")
    let fds ← checkStandardFd fds 1 (ascii "/dev/null")
    checkStandardFd fds 2 (ascii "/dev/null")

/-- `startup::run` up to the registration of the interpreter. A direct
invocation first moves the stack down to the selected program. -/
def run (memory : ProcessMemory) (direct : Option DirectProgram) (fds : Descriptors) :
    Except Nat Globals := do
  let initial := InitialStack.parse memory.words
  let (words, process) := match direct with
    | some program => initial.rewriteForProgram program
    | none => (memory.words, initial.process)
  let globals : Globals := {
    words := words
    argc := process.argc
    argv := process.argv
    envp := some process.envp
    libcEnableSecure := if initial.aux.secure = 0 then 0 else 1
  }
  let _ ← checkStandardFdsIfSecure initial.aux.secure fds
  return globals

/-- `str::split_once` at a byte. -/
def splitOnce (separator : UInt8) : Bytes → Option (Bytes × Bytes)
  | [] => none
  | byte :: rest =>
      if byte = separator then some ([], rest)
      else (splitOnce separator rest).map fun (key, value) => (byte :: key, value)

/-- `str::split` at a byte, with its empty parts. -/
def splitAll (separator : UInt8) : Bytes → List Bytes
  | [] => [[]]
  | byte :: rest =>
      if byte = separator then [] :: splitAll separator rest
      else match splitAll separator rest with
        | [] => [[byte]]
        | part :: parts => (byte :: part) :: parts

def equalsSign : UInt8 := 0x3d
def colon : UInt8 := 0x3a

/-- The value that one environment string gives for a name. -/
def envValue (name : Bytes) (env : Bytes) : Option Bytes := do
  let text ← fromUtf8 env
  let (key, value) ← splitOnce equalsSign text
  if key = name then some value else none

/-- The environment strings that `ENVP` leads to. -/
def Globals.environment (globals : Globals) (cstr : Nat → Bytes) : List Bytes :=
  match globals.envp with
  | none => []
  | some envp => (pointersAt globals.words envp).map cstr

/-- `get_env`: the first string with that key. -/
def getEnv (environment : List Bytes) (name : Bytes) : Option Bytes :=
  environment.findSome? (envValue name)

/-- What `SearchPathResolver` is given, in order. -/
inductive SearchEntry where
  | rpath
  | fixedDir (path : Bytes)
  | runpath
  | ldCache
deriving DecidableEq

def platformDefaultPaths : Arch → List SearchEntry
  | .x86_64 =>
      [.fixedDir (ascii "/lib/x86_64-linux-gnu"), .fixedDir (ascii "/usr/lib/x86_64-linux-gnu")]
  | .aarch64 =>
      [.fixedDir (ascii "/lib/aarch64-linux-gnu"), .fixedDir (ascii "/usr/lib/aarch64-linux-gnu")]
  | .riscv64 =>
      [.fixedDir (ascii "/lib/riscv64-linux-gnu"), .fixedDir (ascii "/usr/lib/riscv64-linux-gnu")]
  | .other => []

def ldLibraryPath : Bytes := ascii "LD_LIBRARY_PATH"

/-- The directories of `LD_LIBRARY_PATH` that are pushed. -/
def libraryPathDirs (environment : List Bytes) : List Bytes :=
  match getEnv environment ldLibraryPath with
  | none => []
  | some paths => (splitAll colon paths).filter fun path => !path.isEmpty

/-- `SEARCH_PATHS`. -/
def searchPaths (arch : Arch) (environment : List Bytes) : List SearchEntry :=
  [.rpath] ++ (libraryPathDirs environment).map .fixedDir ++ [.runpath, .ldCache] ++
    platformDefaultPaths arch ++
    [ascii "/lib", ascii "/usr/lib", ascii "/lib64", ascii "/usr/lib64"].map .fixedDir

end DynLinker.Startup
