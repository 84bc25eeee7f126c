import DynLinker.Cli.DirectInvocation

/-! The grammar of the command line, and that the scan reads exactly it: where an option
stands is decided by the options before it, so a value is never read as an option. -/

set_option autoImplicit false

namespace DynLinker.Cli

open Lib Startup

/-- The options whose value is only passed over. -/
def valueOptions : List Bytes :=
  [ascii "--library-path", ascii "--preload", ascii "--audit", ascii "--glibc-hwcaps-prepend",
    ascii "--glibc-hwcaps-mask", ascii "--inhibit-rpath"]

/-- An option, with the position of its value. -/
inductive CliOption where
  | argv0 (value : Nat)
  | valued (value : Nat)
  | inhibitCache
deriving DecidableEq

/-- The argument starts with a dash. A null pointer does not. -/
def Dashed (argument : Option Bytes) : Prop := ∃ rest, argument = some (0x2d :: rest)

namespace ArgVector

variable (vector : ArgVector)

/-- The string at a pointer; the null pointer has none. -/
def stringAt (pointer : Nat) : Option Bytes :=
  if pointer = 0 then none else some (vector.text pointer)

/-- The argument with an index. -/
def argument (index : Nat) : Option (Option Bytes) :=
  vector.pointers[index]?.map vector.stringAt

/-- The arguments from one position to another are options with their values. -/
inductive Options : Nat → Nat → List CliOption → Prop where
  | nil {i} : Options i i []
  | argv0 {i stop options} : vector.argument i = some (some (ascii "--argv0")) →
      Options (i + 2) stop options → Options i stop (.argv0 (i + 1) :: options)
  | valued {i stop options name} : name ∈ valueOptions → vector.argument i = some (some name) →
      Options (i + 2) stop options → Options i stop (.valued (i + 1) :: options)
  | inhibitCache {i stop options} : vector.argument i = some (some (ascii "--inhibit-cache")) →
      Options (i + 1) stop options → Options i stop (.inhibitCache :: options)

/-- The command line selects the program with an index: only options stand before it, and
it is an argument that does not look like one. -/
structure Selects (index : Nat) (options : List CliOption) : Prop where
  options : vector.Options 1 index options
  program : ∃ argument, vector.argument index = some argument ∧ ¬Dashed argument

end ArgVector

namespace CliOption

/-- The position of the value of an `--argv0`. -/
def argv0? : CliOption → Option Nat
  | .argv0 value => some value
  | _ => none

/-- How many arguments the option takes up. -/
def width : CliOption → Nat
  | .inhibitCache => 1
  | _ => 2

/-- The positions of the names of the options. -/
def positions : Nat → List CliOption → List Nat
  | _, [] => []
  | i, option :: rest => i :: positions (i + option.width) rest

end CliOption

/-- The value of the last `--argv0`, or what stands in for it. -/
def ArgVector.lastArgv0 (vector : ArgVector) (start : Nat) (options : List CliOption) : Nat :=
  ((options.filterMap CliOption.argv0?).getLast?.map fun value =>
    vector.pointers.getD value 0).getD start

section Strings

/-- The comparison stops at the NUL of the string, if not before. -/
theorem cstrMatches_iff {memory : ByteMemory} {pointer : Nat} {text expected : Bytes}
    (held : memory.Holds pointer (text ++ [0])) (nonzero : 0 ∉ text)
    (expectedNonzero : 0 ∉ expected) :
    cstrMatches memory pointer expected = true ↔ text = expected := by
  induction expected generalizing pointer text with
  | nil =>
      rw [cstrMatches, decide_eq_true_iff]
      cases text with
      | nil => exact ⟨fun _ => rfl, fun _ => held 0 0 rfl⟩
      | cons first rest =>
          have read : memory pointer = first := held 0 first rfl
          have other : first ≠ 0 := fun zero => nonzero (zero ▸ List.mem_cons_self)
          simp [read, other]
  | cons byte expected ih =>
      rw [cstrMatches]
      cases text with
      | nil =>
          have read : memory pointer = 0 := held 0 0 rfl
          have other : (0 : UInt8) ≠ byte :=
            fun zero => expectedNonzero (zero ▸ List.mem_cons_self)
          simp [read, other]
      | cons first rest =>
          obtain ⟨read, later⟩ := ByteMemory.holds_cons.mp held
          have matches' := ih later (fun member => nonzero (List.mem_cons_of_mem _ member))
            fun member => expectedNonzero (List.mem_cons_of_mem _ member)
          rw [read]
          by_cases same : first = byte
          · simp [same, matches']
          · simp [same]

variable {vector : ArgVector} {pointer : Nat}

theorem cstrEq_eq (listed : pointer ∈ vector.pointers) {expected : Bytes}
    (nonzero : 0 ∉ expected) :
    cstrEq vector.memory pointer expected = decide (vector.stringAt pointer = some expected) := by
  rw [cstrEq, ArgVector.stringAt, Bool.eq_iff_iff, decide_eq_true_iff]
  by_cases null : pointer = 0
  · simp [null]
  · obtain ⟨held, textNonzero⟩ := vector.terminated pointer listed null
    rw [if_neg null, if_neg null, cstrMatches_iff held textNonzero nonzero, Option.some.injEq]

theorem startsWithDash_iff (listed : pointer ∈ vector.pointers) :
    startsWithDash vector.memory pointer = true ↔ Dashed (vector.stringAt pointer) := by
  rw [startsWithDash, ArgVector.stringAt, Dashed, Bool.and_eq_true, decide_eq_true_iff,
    decide_eq_true_iff]
  by_cases null : pointer = 0
  · simp [null]
  · obtain ⟨held, -⟩ := vector.terminated pointer listed null
    rw [if_neg null]
    generalize vector.text pointer = text at held
    cases text with
    | nil =>
        have read : vector.memory pointer = 0 := held 0 0 rfl
        simp [null, read]
    | cons first rest =>
        have read : vector.memory pointer = first := held 0 first rfl
        simp [null, read]

theorem consumesValue_eq (listed : pointer ∈ vector.pointers) :
    consumesValue vector.memory pointer =
      decide (∃ name ∈ valueOptions, vector.stringAt pointer = some name) := by
  have each {name : Bytes} (nonzero : 0 ∉ name) := cstrEq_eq listed nonzero
  rw [consumesValue, each (by decide), each (by decide), each (by decide), each (by decide),
    each (by decide), each (by decide)]
  simp [valueOptions, Bool.or_assoc]

end Strings

section Scan

variable {checks : Bool} {files : Bytes → Option OpenFile} {vector : ArgVector}
  {arg index argv0 : Nat} {rest : List Nat}

theorem exit_ne_program (answer : Answer) (direct : DirectProgram) :
    answer.exit ≠ .program direct := by
  unfold Answer.exit
  split
  · exact fun impossible => nomatch impossible
  · exact fun impossible => nomatch impossible

/-- What a step of the scan did if a program is selected in the end. -/
inductive ScanStep (vector : ArgVector) (arg : Nat) (rest : List Nat) (index argv0 : Nat)
    (scan : List Nat → Nat → Nat → Invocation) (direct : DirectProgram) : Prop where
  | argv0 {value later} : vector.stringAt arg = some (ascii "--argv0") → rest = value :: later →
      scan later (index + 2) value = .program direct →
      ScanStep vector arg rest index argv0 scan direct
  | valued {name value later} : name ∈ valueOptions → vector.stringAt arg = some name →
      rest = value :: later → scan later (index + 2) argv0 = .program direct →
      ScanStep vector arg rest index argv0 scan direct
  | inhibitCache : vector.stringAt arg = some (ascii "--inhibit-cache") →
      scan rest (index + 1) argv0 = .program direct →
      ScanStep vector arg rest index argv0 scan direct
  | program : ¬Dashed (vector.stringAt arg) → direct = ⟨index, argv0⟩ →
      ScanStep vector arg rest index argv0 scan direct

/-- A branch that ends the process selects no program. -/
theorem program_of_ite {condition : Prop} [Decidable condition] {ended other : Invocation}
    {direct : DirectProgram} (exits : ended ≠ .program direct)
    (found : (if condition then ended else other) = .program direct) : other = .program direct := by
  obtain ⟨-, impossible⟩ | ⟨-, found⟩ := ite_eq_iff.mp found
  · exact absurd impossible exits
  · exact found

theorem scanArgs_cases (listed : arg ∈ vector.pointers) {direct : DirectProgram}
    (found : scanArgs checks files vector (arg :: rest) index argv0 = .program direct) :
    ScanStep vector arg rest index argv0 (scanArgs checks files vector) direct := by
  have each {name : Bytes} (nonzero : 0 ∉ name) := cstrEq_eq listed nonzero
  have say (text : Bytes) : Invocation.say text ≠ .program direct := nofun
  rw [scanArgs.eq_def] at found
  dsimp only at found
  -- four options that end the process, and two that inspect a file first
  replace found := program_of_ite (say _) found
  replace found := program_of_ite (say _) found
  replace found := program_of_ite (say _) found
  replace found := program_of_ite (say _) found
  obtain ⟨-, found⟩ | ⟨-, found⟩ := ite_eq_iff.mp found
  · cases rest with
    | nil => cases found
    | cons target _ => exact absurd found (exit_ne_program _ _)
  obtain ⟨-, found⟩ | ⟨-, found⟩ := ite_eq_iff.mp found
  · cases rest with
    | nil => cases found
    | cons target _ => exact absurd found (exit_ne_program _ _)
  obtain ⟨named, found⟩ | ⟨-, found⟩ := ite_eq_iff.mp found
  · rw [each (by decide), decide_eq_true_iff] at named
    cases rest with
    | nil => cases found
    | cons value later => exact .argv0 named rfl found
  obtain ⟨named, found⟩ | ⟨-, found⟩ := ite_eq_iff.mp found
  · rw [consumesValue_eq listed, decide_eq_true_iff] at named
    obtain ⟨name, valued, named⟩ := named
    cases rest with
    | nil => cases found
    | cons value later => exact .valued valued named rfl found
  obtain ⟨named, found⟩ | ⟨-, found⟩ := ite_eq_iff.mp found
  · rw [each (by decide), decide_eq_true_iff] at named
    exact .inhibitCache named found
  obtain ⟨-, found⟩ | ⟨plain, found⟩ := ite_eq_iff.mp found
  · cases found
  · cases found
    exact .program (fun dashed => plain ((startsWithDash_iff listed).mpr dashed)) rfl

/-- The outcome of a step by the string of the argument. -/
theorem scanArgs_argv0 (listed : arg ∈ vector.pointers)
    (named : vector.stringAt arg = some (ascii "--argv0")) (value : Nat) :
    scanArgs checks files vector (arg :: value :: rest) index argv0 =
      scanArgs checks files vector rest (index + 2) value := by
  have each {name : Bytes} (nonzero : 0 ∉ name) := cstrEq_eq listed nonzero
  rw [scanArgs.eq_def]
  simp only []
  rw [each (by decide), each (by decide), each (by decide), each (by decide),
    each (by decide), each (by decide), each (by decide), named]
  rfl

theorem scanArgs_valued (listed : arg ∈ vector.pointers) {name : Bytes}
    (valued : name ∈ valueOptions) (named : vector.stringAt arg = some name) (value : Nat) :
    scanArgs checks files vector (arg :: value :: rest) index argv0 =
      scanArgs checks files vector rest (index + 2) argv0 := by
  have each {name : Bytes} (nonzero : 0 ∉ name) := cstrEq_eq listed nonzero
  have consumes : consumesValue vector.memory arg = true := by
    rw [consumesValue_eq listed, decide_eq_true_iff]
    exact ⟨name, valued, named⟩
  have others : ∀ name ∈ valueOptions, name ∉ [ascii "--help", ascii "--version",
      ascii "--list-diagnostics", ascii "--list-tunables", ascii "--verify", ascii "--list",
      ascii "--argv0"] := by
    decide
  have other := others name valued
  simp only [List.mem_cons, List.not_mem_nil, or_false, not_or] at other
  obtain ⟨help, version, diagnostics, tunables, verify, list, argv0⟩ := other
  rw [scanArgs.eq_def]
  simp only []
  rw [each (by decide), each (by decide), each (by decide), each (by decide),
    each (by decide), each (by decide), each (by decide), named, consumes]
  simp [help, version, diagnostics, tunables, verify, list, argv0]

theorem scanArgs_inhibitCache (listed : arg ∈ vector.pointers)
    (named : vector.stringAt arg = some (ascii "--inhibit-cache")) :
    scanArgs checks files vector (arg :: rest) index argv0 =
      scanArgs checks files vector rest (index + 1) argv0 := by
  have each {name : Bytes} (nonzero : 0 ∉ name) := cstrEq_eq listed nonzero
  rw [scanArgs.eq_def]
  simp only []
  rw [each (by decide), each (by decide), each (by decide), each (by decide),
    each (by decide), each (by decide), each (by decide), consumesValue_eq listed,
    each (by decide), named]
  rfl

theorem scanArgs_program (listed : arg ∈ vector.pointers)
    (plain : ¬Dashed (vector.stringAt arg)) :
    scanArgs checks files vector (arg :: rest) index argv0 = .program ⟨index, argv0⟩ := by
  have each {name : Bytes} (nonzero : 0 ∉ name) (dashed : name.head? = some 0x2d) :
      cstrEq vector.memory arg name = false := by
    rw [cstrEq_eq listed nonzero, decide_eq_false_iff_not]
    obtain ⟨rest, rfl⟩ := List.head?_eq_some_iff.mp dashed
    exact fun same => plain ⟨rest, same⟩
  have passed : consumesValue vector.memory arg = false := by
    rw [consumesValue, each (by decide) (by decide), each (by decide) (by decide),
      each (by decide) (by decide), each (by decide) (by decide), each (by decide) (by decide),
      each (by decide) (by decide)]
    rfl
  have dash : startsWithDash vector.memory arg = false := by
    rw [Bool.eq_false_iff]
    exact fun dashed => plain ((startsWithDash_iff listed).mp dashed)
  rw [scanArgs.eq_def]
  simp only []
  rw [each (by decide) (by decide), each (by decide) (by decide), each (by decide) (by decide),
    each (by decide) (by decide), each (by decide) (by decide), each (by decide) (by decide),
    each (by decide) (by decide), passed, each (by decide) (by decide), dash]
  rfl

end Scan

namespace ArgVector

variable {vector : ArgVector}

theorem lastArgv0_argv0 (start value : Nat) (options : List CliOption) :
    vector.lastArgv0 start (.argv0 value :: options) =
      vector.lastArgv0 (vector.pointers.getD value 0) options := by
  have named : (CliOption.argv0 value).argv0? = some value := rfl
  rw [lastArgv0, lastArgv0, List.filterMap_cons_some named, List.getLast?_cons]
  cases (options.filterMap CliOption.argv0?).getLast? with
  | none => rfl
  | some last => rfl

theorem lastArgv0_other (start : Nat) {option : CliOption} (other : option.argv0? = none)
    (options : List CliOption) :
    vector.lastArgv0 start (option :: options) = vector.lastArgv0 start options := by
  rw [lastArgv0, lastArgv0, List.filterMap_cons_none other]

theorem Options.le {i stop : Nat} {options : List CliOption}
    (read : vector.Options i stop options) : i ≤ stop := by
  induction read with
  | nil => exact Nat.le_refl _
  | argv0 _ _ ih => omega
  | valued _ _ _ ih => omega
  | inhibitCache _ _ ih => omega

/-- Only the names of the options decide where they are. -/
theorem Options.congr {other : ArgVector} {i stop : Nat} {options : List CliOption}
    (read : vector.Options i stop options)
    (same : ∀ position ∈ CliOption.positions i options,
      other.argument position = vector.argument position) : other.Options i stop options := by
  induction read with
  | nil => exact .nil
  | argv0 named _ ih =>
      have first := same _ List.mem_cons_self
      exact .argv0 (first.trans named) (ih fun position member =>
        same position (List.mem_cons_of_mem _ member))
  | valued valued named _ ih =>
      have first := same _ List.mem_cons_self
      exact .valued valued (first.trans named) (ih fun position member =>
        same position (List.mem_cons_of_mem _ member))
  | inhibitCache named _ ih =>
      have first := same _ List.mem_cons_self
      exact .inhibitCache (first.trans named) (ih fun position member =>
        same position (List.mem_cons_of_mem _ member))

/-- The argument that the scan is at. -/
theorem exists_drop_of_argument {i : Nat} {argument : Option Bytes}
    (found : vector.argument i = some argument) :
    ∃ arg ∈ vector.pointers, vector.pointers.drop i = arg :: vector.pointers.drop (i + 1) ∧
      vector.stringAt arg = argument := by
  obtain ⟨arg, present, same⟩ := Option.map_eq_some_iff.mp found
  obtain ⟨bounded, rfl⟩ := List.getElem?_eq_some_iff.mp present
  exact ⟨_, List.getElem_mem bounded, List.drop_eq_getElem_cons bounded, same⟩

/-- The value behind an option that is read has a position before the program. -/
theorem exists_drop_of_lt {i : Nat} (bounded : i < vector.pointers.length) :
    vector.pointers.drop i = vector.pointers.getD i 0 :: vector.pointers.drop (i + 1) := by
  rw [List.drop_eq_getElem_cons bounded, List.getD_eq_getElem _ _ bounded]

theorem argument_lt {i : Nat} {argument : Option Bytes}
    (found : vector.argument i = some argument) : i < vector.pointers.length := by
  obtain ⟨arg, present, -⟩ := Option.map_eq_some_iff.mp found
  exact (List.getElem?_eq_some_iff.mp present).1

theorem argument_of_drop {i arg : Nat} {rest : List Nat}
    (split : vector.pointers.drop i = arg :: rest) :
    vector.argument i = some (vector.stringAt arg) ∧ arg ∈ vector.pointers ∧
      rest = vector.pointers.drop (i + 1) := by
  have bounded : i < vector.pointers.length := by
    by_contra past
    rw [List.drop_eq_nil_of_le (Nat.le_of_not_lt past)] at split
    cases split
  rw [List.drop_eq_getElem_cons bounded] at split
  cases split
  exact ⟨by rw [argument, List.getElem?_eq_getElem bounded, Option.map_some],
    List.getElem_mem bounded, rfl⟩

end ArgVector

section Grammar

variable {checks : Bool} {files : Bytes → Option OpenFile} {vector : ArgVector}

/-- A scan over options goes on behind them. -/
theorem scanArgs_options {i index : Nat} {options : List CliOption}
    (read : vector.Options i index options) (bounded : index < vector.pointers.length)
    (argv0 : Nat) :
    scanArgs checks files vector (vector.pointers.drop i) i argv0 =
      scanArgs checks files vector (vector.pointers.drop index) index
        (vector.lastArgv0 argv0 options) := by
  induction read generalizing argv0 with
  | nil => rfl
  | argv0 named later ih =>
      have inside := later.le
      obtain ⟨arg, listed, split, same⟩ := ArgVector.exists_drop_of_argument named
      rw [split, ArgVector.exists_drop_of_lt (by omega), scanArgs_argv0 listed same, ih bounded,
        ArgVector.lastArgv0_argv0]
  | valued valued named later ih =>
      have inside := later.le
      obtain ⟨arg, listed, split, same⟩ := ArgVector.exists_drop_of_argument named
      rw [split, ArgVector.exists_drop_of_lt (by omega), scanArgs_valued listed valued same,
        ih bounded, ArgVector.lastArgv0_other argv0 rfl]
  | inhibitCache named later ih =>
      obtain ⟨arg, listed, split, same⟩ := ArgVector.exists_drop_of_argument named
      rw [split, scanArgs_inhibitCache listed same, ih bounded, ArgVector.lastArgv0_other argv0 rfl]

/-- A scan that selects a program has read options up to it. -/
theorem exists_options_of_scan {rest : List Nat} {i argv0 : Nat} {direct : DirectProgram}
    (split : vector.pointers.drop i = rest)
    (found : scanArgs checks files vector rest i argv0 = .program direct) :
    ∃ options, vector.Options i direct.argvIndex options ∧
      (∃ argument, vector.argument direct.argvIndex = some argument ∧ ¬Dashed argument) ∧
      direct.argv0 = vector.lastArgv0 argv0 options := by
  induction length : rest.length using Nat.strong_induction_on generalizing rest i argv0 with
  | _ count ih =>
      cases rest with
      | nil => cases found
      | cons arg rest =>
          obtain ⟨argument, listed, later⟩ := ArgVector.argument_of_drop split
          cases scanArgs_cases listed found with
          | @argv0 value behind named same selected =>
              subst same
              obtain ⟨_, _, after⟩ := ArgVector.argument_of_drop later.symm
              have value_eq : value = vector.pointers.getD (i + 1) 0 := by
                rw [List.getD_eq_getElem?_getD, ← List.head?_drop, ← later]
                rfl
              obtain ⟨options, read, program, last⟩ := ih behind.length
                (by simp only [List.length_cons] at length; omega) after.symm selected rfl
              rw [named] at argument
              refine ⟨.argv0 (i + 1) :: options, .argv0 argument read, program, ?_⟩
              rw [last, ArgVector.lastArgv0_argv0, value_eq]
          | @valued name value behind valued named same selected =>
              subst same
              obtain ⟨_, _, after⟩ := ArgVector.argument_of_drop later.symm
              obtain ⟨options, read, program, last⟩ := ih behind.length
                (by simp only [List.length_cons] at length; omega) after.symm selected rfl
              rw [named] at argument
              refine ⟨.valued (i + 1) :: options, .valued valued argument read, program, ?_⟩
              rw [last, ArgVector.lastArgv0_other argv0 rfl]
          | inhibitCache named selected =>
              obtain ⟨options, read, program, last⟩ := ih rest.length
                (by simp only [List.length_cons] at length; omega) later.symm selected rfl
              rw [named] at argument
              refine ⟨.inhibitCache :: options, .inhibitCache argument read, program, ?_⟩
              rw [last, ArgVector.lastArgv0_other argv0 rfl]
          | program plain same =>
              subst same
              exact ⟨[], .nil, ⟨_, argument, plain⟩, rfl⟩

theorem ArgVector.Selects.handle_eq {index : Nat} {options : List CliOption}
    (selects : vector.Selects index options) :
    handleDirectInvocation checks files vector =
      .program ⟨index, vector.lastArgv0 0 options⟩ := by
  obtain ⟨argument, found, plain⟩ := selects.program
  have bounded := ArgVector.argument_lt found
  have behind := selects.options.le
  obtain ⟨arg, listed, split, same⟩ := ArgVector.exists_drop_of_argument found
  rw [handleDirectInvocation, if_neg (by omega), scanArgs_options selects.options bounded, split,
    scanArgs_program listed (same ▸ plain)]

theorem exists_selects {direct : DirectProgram}
    (found : handleDirectInvocation checks files vector = .program direct) :
    ∃ options, vector.Selects direct.argvIndex options ∧
      direct.argv0 = vector.lastArgv0 0 options := by
  unfold handleDirectInvocation at found
  split at found
  · cases found
  · obtain ⟨options, read, program, last⟩ := exists_options_of_scan rfl found
    exact ⟨options, ⟨read, program⟩, last⟩

end Grammar

/-- The command line is parsed by its grammar: a program is run exactly if only options
stand before it, with the value of the last `--argv0` or null. Then nothing but the names
of these options and the program itself has been looked at, and otherwise the process
ends. -/
theorem handleDirectInvocation_iff (checks : Bool) (files : Bytes → Option OpenFile)
    (vector : ArgVector) :
    (∀ index argv0 : Nat,
      handleDirectInvocation checks files vector = .program ⟨index, argv0⟩ ↔
        ∃ options, vector.Selects index options ∧ argv0 = vector.lastArgv0 0 options) ∧
    (∀ (index : Nat) (options : List CliOption), vector.Selects index options →
      ∀ (otherChecks : Bool) (otherFiles : Bytes → Option OpenFile) (other : ArgVector),
        (∀ position ∈ index :: CliOption.positions 1 options,
          other.argument position = vector.argument position) →
        handleDirectInvocation otherChecks otherFiles other =
          .program ⟨index, other.lastArgv0 0 options⟩) ∧
    ((∀ (index : Nat) (options : List CliOption), ¬vector.Selects index options) →
      ∃ (status : Nat) (stdout : List Printed) (stderr : Bytes),
        handleDirectInvocation checks files vector = .exit status stdout stderr) := by
  refine ⟨fun index argv0 => ⟨exists_selects, ?_⟩, ?_, ?_⟩
  · rintro ⟨options, selects, rfl⟩
    exact selects.handle_eq
  · intro index options selects otherChecks otherFiles other same
    obtain ⟨argument, found, plain⟩ := selects.program
    have program := (same index List.mem_cons_self).trans found
    have read := selects.options.congr fun position member =>
      same position (List.mem_cons_of_mem _ member)
    exact ArgVector.Selects.handle_eq ⟨read, argument, program, plain⟩
  · intro unselected
    cases handled : handleDirectInvocation checks files vector with
    | program direct =>
        obtain ⟨options, selects, -⟩ := exists_selects handled
        exact absurd selects (unselected direct.argvIndex options)
    | exit status stdout stderr => exact ⟨status, stdout, stderr, rfl⟩

/-- A string of a block ends at its NUL, at the latest behind the block. -/
theorem getD_of_untilNul {bytes : Bytes} {i : Nat} {byte : UInt8}
    (found : (untilNul bytes ++ [0])[i]? = some byte) : bytes.getD i 0 = byte := by
  induction bytes generalizing i with
  | nil =>
      cases i with
      | zero => exact Option.some.inj found
      | succ i => cases found
  | cons first rest ih =>
      by_cases ends : first = 0
      · subst ends
        cases i with
        | zero => exact Option.some.inj found
        | succ i => cases found
      · have kept : untilNul (first :: rest) = first :: untilNul rest :=
          List.takeWhile_cons_of_pos (by simpa using ends)
        rw [kept] at found
        cases i with
        | zero => exact Option.some.inj found
        | succ i => exact ih found

/-- A command line whose strings stand in one block from an address on. -/
def ArgVector.ofBlock (block : Bytes) (base : Nat) (pointers : List Nat)
    (above : ∀ pointer ∈ pointers, base ≤ pointer) : ArgVector where
  memory address := block.getD (address - base) 0
  pointers := pointers
  text pointer := untilNul (block.drop (pointer - base))
  terminated := by
    intro pointer listed _
    have past := above pointer listed
    refine ⟨fun i byte found => ?_, fun zero => ?_⟩
    · have read := getD_of_untilNul found
      rwa [List.getD_eq_getElem?_getD, List.getElem?_drop, ← List.getD_eq_getElem?_getD,
        ← Nat.sub_add_comm past] at read
    · have kept := List.all_eq_true.mp List.all_takeWhile 0 zero
      exact of_decide_eq_true kept rfl

/-- `ld.so --argv0 custom-argv0 --library-path --list --inhibit-cache ./prog payload`: the
value of `--library-path` looks like an option. -/
def customCommand : ArgVector :=
  .ofBlock (ascii ("ld.so\x00--argv0\x00custom-argv0\x00--library-path\x00--list\x00" ++
    "--inhibit-cache\x00./prog\x00payload\x00")) 4096
    [4096, 4102, 4110, 4123, 4138, 4145, 4161, 4168] (by decide)

theorem customCommand_selects :
    customCommand.Selects 6 [.argv0 2, .valued 4, .inhibitCache] where
  options := by
    refine .argv0 ?_ (.valued (List.mem_cons_self : ascii "--library-path" ∈ valueOptions) ?_
      (.inhibitCache ?_ .nil))
    all_goals decide +kernel
  program := by
    refine ⟨some (ascii "./prog"), by decide +kernel, ?_⟩
    rintro ⟨rest, same⟩
    have first : (ascii "./prog").head? = some 0x2d := by rw [Option.some.inj same]; rfl
    exact absurd first (by decide +kernel)

/-- The program is run under the name that is given for it. -/
theorem handleDirectInvocation_iff_custom :
    handleDirectInvocation true (fun _ => none) customCommand = .program ⟨6, 4110⟩ ∧
      customCommand.stringAt 4110 = some (ascii "custom-argv0") := by
  obtain ⟨selected, -, -⟩ := handleDirectInvocation_iff true (fun _ => none) customCommand
  refine ⟨(selected 6 4110).mpr ⟨_, customCommand_selects, ?_⟩, ?_⟩
  · rfl
  · decide +kernel

end DynLinker.Cli
