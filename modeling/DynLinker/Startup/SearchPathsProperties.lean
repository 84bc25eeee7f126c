import DynLinker.Startup.InitialStackProperties
import DynLinker.Startup.SearchPaths

/-! Two startup runs that differ in `LD_LIBRARY_PATH`. The secure flag of the
auxiliary vector reaches `__libc_enable_secure`, but nothing that builds the
search path reads it. -/

set_option autoImplicit false

namespace DynLinker.Startup

open Lib

/-- An environment string that sets `LD_LIBRARY_PATH`, decodable or not. -/
def isLibraryPathEntry (env : Bytes) : Bool :=
  (ldLibraryPath ++ [equalsSign]).isPrefixOf env

/-- The strings other than `LD_LIBRARY_PATH` entries. -/
def otherEntries (environment : List Bytes) : List Bytes :=
  environment.filter fun env => !isLibraryPathEntry env

/-- One startup: the stack image, the strings its pointers give, and how the
program was invoked. -/
structure StartupInput where
  image : StackImage
  cstr : Nat → Bytes
  direct : Option DirectProgram
  fds : Descriptors
  inside : ∀ program, direct = some program → program.argvIndex < image.argv.length

namespace StartupInput

def memory (input : StartupInput) : ProcessMemory := ⟨input.image.words, input.cstr⟩

def environment (input : StartupInput) : List Bytes := input.image.envp.map input.cstr

def start (input : StartupInput) : Except Nat Globals :=
  run input.memory input.direct input.fds

end StartupInput

/-- Two secure startups that reach the loader, with the same auxiliary vector and
with environments that differ in `LD_LIBRARY_PATH` entries only. -/
structure SecureRuns (left right : StartupInput) (leftGlobals rightGlobals : Globals) :
    Prop where
  sameAuxv : left.image.auxv = right.image.auxv
  secure : (auxOf left.image.auxv).secure ≠ 0
  sameEntries : otherEntries left.environment = otherEntries right.environment
  leftStarted : left.start = .ok leftGlobals
  rightStarted : right.start = .ok rightGlobals

/-- Startup publishes the environment it was given, whichever way the program was
invoked. -/
theorem StartupInput.start_environment {input : StartupInput} {globals : Globals}
    (started : input.start = .ok globals) :
    globals.environment input.cstr = input.environment := by
  unfold StartupInput.start run at started
  cases checked : checkStandardFdsIfSecure
      (InitialStack.parse input.memory.words).aux.secure input.fds with
  | error status =>
      simp only [checked, bind, Except.bind, reduceCtorEq] at started
  | ok fds =>
      simp only [checked, bind, Except.bind, pure, Except.pure, Except.ok.injEq] at started
      subst started
      cases invoked : input.direct with
      | none =>
          simp only [Globals.environment, StartupInput.memory, input.image.parse_words,
            input.image.pointersAt_envp]
          rfl
      | some program =>
          simp only [Globals.environment, StartupInput.memory,
            input.image.rewriteForProgram_envp program (input.inside program invoked)]
          rfl

/-- The search path contains the library path directories and nothing else that
depends on the environment. -/
theorem searchPaths_eq_iff_dirs (arch : Arch) (left right : List Bytes) :
    searchPaths arch left = searchPaths arch right ↔
      libraryPathDirs left = libraryPathDirs right := by
  constructor
  · intro same
    simp only [searchPaths, List.append_assoc] at same
    have lengths := congrArg List.length same
    simp only [List.length_append, List.length_map] at lengths
    have dirs := (List.append_inj (List.append_cancel_left same)
      (by simp only [List.length_map]; omega)).1
    exact List.map_injective_iff.mpr (fun _ _ equal => SearchEntry.fixedDir.inj equal) dirs
  · intro same
    simp only [searchPaths, same]

/-- Two secure startups search the same directories exactly when their first
decodable `LD_LIBRARY_PATH` entries list the same non-empty directories. -/
theorem secure_search_paths_eq_iff (arch : Arch) (left right : StartupInput)
    (leftGlobals rightGlobals : Globals)
    (runs : SecureRuns left right leftGlobals rightGlobals) :
    searchPaths arch (leftGlobals.environment left.cstr) =
        searchPaths arch (rightGlobals.environment right.cstr) ↔
      libraryPathDirs left.environment = libraryPathDirs right.environment := by
  rw [StartupInput.start_environment runs.leftStarted,
    StartupInput.start_environment runs.rightStarted]
  exact searchPaths_eq_iff_dirs arch left.environment right.environment

/-- A set-user-id program started by the kernel with the given environment. -/
def secureInput (entries : List Bytes) : StartupInput where
  image := {
    argv := [1]
    envp := (List.range entries.length).map (· + 2)
    auxv := [(atSecure, 1)]
    nullValue := 0
    above := []
    argvNonnull := by simp
    envpNonnull := by simp
    auxvNonnull := by simp [atSecure, atNull]
  }
  cstr pointer := entries.getD (pointer - 2) []
  direct := none
  fds := { isOpen := fun _ => true, openat := fun _ => none }
  inside := by simp

def secureGlobals (entries : List Bytes) : Globals where
  words := (secureInput entries).image.words
  argc := 1
  argv := 1
  envp := some 3
  libcEnableSecure := 1

theorem secureInput_start (entries : List Bytes) :
    (secureInput entries).start = .ok (secureGlobals entries) := by
  have parsed := (secureInput entries).image.parse_words
  simp only [StartupInput.start, run, StartupInput.memory, parsed]
  rfl

theorem secureRuns_of_entries {left right : List Bytes}
    (same : otherEntries (secureInput left).environment =
      otherEntries (secureInput right).environment) :
    SecureRuns (secureInput left) (secureInput right) (secureGlobals left)
      (secureGlobals right) where
  sameAuxv := rfl
  secure := by
    have flag : (auxOf [(atSecure, 1)]).secure = 1 := by decide
    show (auxOf [(atSecure, 1)]).secure ≠ 0
    simp [flag]
  sameEntries := same
  leftStarted := secureInput_start left
  rightStarted := secureInput_start right

/-- A caller's directory is searched by a secure program. -/
theorem secure_search_paths_leak :
    SecureRuns (secureInput []) (secureInput [ascii "LD_LIBRARY_PATH=/evil"]) (secureGlobals [])
        (secureGlobals [ascii "LD_LIBRARY_PATH=/evil"]) ∧
      (secureGlobals [ascii "LD_LIBRARY_PATH=/evil"]).libcEnableSecure = 1 ∧
      searchPaths .x86_64 ((secureGlobals []).environment (secureInput []).cstr) ≠
        searchPaths .x86_64 ((secureGlobals [ascii "LD_LIBRARY_PATH=/evil"]).environment
          (secureInput [ascii "LD_LIBRARY_PATH=/evil"]).cstr) := by
  refine ⟨secureRuns_of_entries (by decide +kernel), rfl, ?_⟩
  decide +kernel

/-- Two entries that list the same directory, one with an empty component. -/
theorem secure_search_paths_same_dirs :
    searchPaths .x86_64 ((secureGlobals [ascii "LD_LIBRARY_PATH=/a"]).environment
        (secureInput [ascii "LD_LIBRARY_PATH=/a"]).cstr) =
      searchPaths .x86_64 ((secureGlobals [ascii "LD_LIBRARY_PATH=/a:"]).environment
        (secureInput [ascii "LD_LIBRARY_PATH=/a:"]).cstr) :=
  (secure_search_paths_eq_iff .x86_64 _ _ _ _
    (secureRuns_of_entries (by decide +kernel))).mpr (by decide +kernel)

end DynLinker.Startup
