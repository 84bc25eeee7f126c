import DynLinker.Lib.FileKernel
import DynLinker.Lib.Outcome
import DynLinker.Startup.SearchPaths
import Mathlib.Logic.Relation

/-! The standard descriptors of a secure program (`check_standard_fds_if_secure` in
`bootstrap/startup.rs`). A descriptor that is missing would be given to the first file that
the program opens, so each of them is opened on a device first. -/

set_option autoImplicit false

namespace DynLinker.Startup.StandardFds

open Lib

def oRdonly : Nat := 0
def oWronly : Nat := 1
def oNofollow : Nat := 0o400000

/-- The kernel's answers to `openat`, by the flags. -/
abbrev OpenKernel : Type := Nat → FileKernel

variable (kernel : OpenKernel)

/-- `check_standard_fd` on the whole table; the error is the status that the process exits
with. -/
def checkStandardFd (table : FileTable) (fd : Nat) (path : Bytes) (flags : Nat) :
    Except Nat FileTable :=
  if (table.files fd).isSome then .ok table
  else
    match (kernel flags).doOpen table path with
    | .error _ => .error rtldFatalExitStatus
    | .ok (opened, table) => if opened ≠ fd then .error rtldFatalExitStatus else .ok table

def checkStandardFdsIfSecure (table : FileTable) (secure : Nat) : Except Nat FileTable :=
  if secure = 0 then .ok table
  else do
    let table ← checkStandardFd kernel table 0 (ascii "/dev/full") (oWronly ||| oNofollow)
    let table ← checkStandardFd kernel table 1 (ascii "/dev/null") (oRdonly ||| oNofollow)
    checkStandardFd kernel table 2 (ascii "/dev/null") (oRdonly ||| oNofollow)

/-- A new descriptor is the lowest one that is free. -/
def Lowest (kernel : OpenKernel) : Prop :=
  ∀ flags table path fd content, (kernel flags).openFile table path = .ok (fd, content) →
    ∀ lower < fd, (table.files lower).isSome

/-- The descriptors below `count` are open. -/
def OpenBelow (count : Nat) (table : FileTable) : Prop := ∀ fd < count, (table.files fd).isSome

/-- A device can be opened while one of the standard descriptors is free. -/
def Available (kernel : OpenKernel) (path : Bytes) (flags : Nat) : Prop :=
  ∀ table fd, fd < 3 → table.files fd = none →
    ∃ opened, (kernel flags).doOpen table path = .ok opened

/-- What a program does with its descriptors later: it opens files and closes others than
the standard ones. -/
inductive FileStep (table : FileTable) : FileTable → Prop where
  | opens {flags fd : Nat} {path : Bytes} {next : FileTable} :
      (kernel flags).doOpen table path = .ok (fd, next) → FileStep table next
  | closes {fd : Nat} : 3 ≤ fd → FileStep table (FileKernel.doClose table fd)

section Checks

variable {kernel} {table after : FileTable} {fd flags : Nat} {path : Bytes}

theorem doOpen_lowest (lowest : Lowest kernel) {next : FileTable}
    (accepted : (kernel flags).doOpen table path = .ok (fd, next)) :
    table.files fd = none ∧ ∀ lower < fd, (table.files lower).isSome := by
  obtain ⟨content, answer, _⟩ := FileKernel.doOpen_ok accepted
  exact ⟨(kernel flags).unused table path fd content answer,
    lowest flags table path fd content answer⟩

/-- What the search paths' model of the start knows of the table. -/
def descriptors (kernel : OpenKernel) (flags : Nat) (table : FileTable) : Descriptors where
  isOpen fd := (table.files fd).isSome
  openat path := ((kernel flags).doOpen table path).toOption.map Prod.fst

/-- A check ends as the coarser model says, with the same descriptors open. -/
theorem checkStandardFd_descriptors :
    Startup.checkStandardFd (descriptors kernel flags table) fd path =
        (checkStandardFd kernel table fd path flags).map fun after =>
          { descriptors kernel flags table with isOpen := (descriptors kernel flags after).isOpen } := by
  rw [Startup.checkStandardFd, checkStandardFd]
  by_cases present : (table.files fd).isSome
  · rw [if_pos present]
    exact if_pos present
  · rw [if_neg present]
    refine (if_neg present).trans ?_
    cases opening : (kernel flags).doOpen table path with
    | error errno =>
        have answered : (descriptors kernel flags table).openat path = none := by
          simp [descriptors, opening, Except.toOption]
        rw [answered]
        rfl
    | ok found =>
        obtain ⟨opened, next⟩ := found
        have answered : (descriptors kernel flags table).openat path = some opened := by
          simp [descriptors, opening, Except.toOption]
        rw [answered]
        by_cases other : opened ≠ fd
        · simp only [if_pos other]
          rfl
        · obtain ⟨content, _, listed⟩ := FileKernel.doOpen_ok opening
          have only := FileKernel.doOpen_only opening
          rw [not_ne_iff.mp other] at listed only
          have same : Function.update (descriptors kernel flags table).isOpen fd true =
              (descriptors kernel flags next).isOpen := by
            funext query
            by_cases here : query = fd
            · simp [descriptors, here, listed]
            · simp [descriptors, here, only query here]
          simp only [if_neg other, same]
          rfl

theorem checkStandardFd_ok (checked : checkStandardFd kernel table fd path flags = .ok after) :
    (after.files fd).isSome ∧ FileKernel.OnlyAt fd table after ∧
      ((table.files fd).isSome → after = table) := by
  rw [checkStandardFd] at checked
  split at checked
  · next present =>
      cases checked
      exact ⟨present, .refl fd table, fun _ => rfl⟩
  · next absent =>
      cases opening : (kernel flags).doOpen table path with
      | error errno =>
          rw [opening] at checked
          cases checked
      | ok found =>
          obtain ⟨opened, next⟩ := found
          rw [opening] at checked
          dsimp only at checked
          split at checked
          · cases checked
          · next same =>
              cases checked
              cases not_ne_iff.mp same
              obtain ⟨content, _, listed⟩ := FileKernel.doOpen_ok opening
              refine ⟨by rw [listed]; rfl, FileKernel.doOpen_only opening, ?_⟩
              exact fun present => absurd present absent

theorem checkStandardFd_below {count : Nat} (below : OpenBelow fd table)
    (checked : checkStandardFd kernel table fd path flags = .ok after) (next : count = fd + 1) :
    OpenBelow count after := by
  obtain ⟨here, only, _⟩ := checkStandardFd_ok checked
  intro other bounded
  by_cases same : other = fd
  · rw [same]
    exact here
  · rw [only other same]
    exact below other (by omega)

theorem checkStandardFd_error {status : Nat}
    (failed : checkStandardFd kernel table fd path flags = .error status) :
    status = rtldFatalExitStatus ∧ table.files fd = none := by
  rw [checkStandardFd] at failed
  split at failed
  · cases failed
  · next absent =>
      have missing : table.files fd = none := Option.not_isSome_iff_eq_none.mp absent
      split at failed
      · cases failed
        exact ⟨rfl, missing⟩
      · split at failed
        · cases failed
          exact ⟨rfl, missing⟩
        · cases failed

/-- The lowest free descriptor is the one that is missing. -/
theorem checkStandardFd_available (lowest : Lowest kernel) (available : Available kernel path flags)
    (standard : fd < 3) (below : OpenBelow fd table) :
    ∃ after, checkStandardFd kernel table fd path flags = .ok after := by
  rw [checkStandardFd]
  split
  · exact ⟨table, rfl⟩
  · next absent =>
      have missing : table.files fd = none := Option.not_isSome_iff_eq_none.mp absent
      obtain ⟨⟨opened, next⟩, opening⟩ := available table fd standard missing
      obtain ⟨free, occupied⟩ := doOpen_lowest lowest opening
      have same : opened = fd := by
        rcases Nat.lt_trichotomy opened fd with early | same | late
        · have present := below opened early
          rw [free] at present
          cases present
        · exact same
        · exact absurd (occupied fd late) absent
      rw [opening]
      exact ⟨next, if_neg (not_not.mpr same)⟩

theorem OpenBelow.step (lowest : Lowest kernel) (below : OpenBelow 3 table)
    (step : FileStep kernel table after) :
    ∀ fd < 3, after.files fd = table.files fd := by
  intro fd standard
  cases step with
  | @opens flags opened path next opening =>
      refine FileKernel.doOpen_only opening fd ?_
      intro same
      have free := (doOpen_lowest lowest opening).1
      have present := below fd standard
      rw [same, free] at present
      cases present
  | @closes closed other =>
      exact Function.update_of_ne (by omega) ..

theorem OpenBelow.steps (lowest : Lowest kernel) (below : OpenBelow 3 table)
    (steps : Relation.ReflTransGen (FileStep kernel) table after) :
    ∀ fd < 3, after.files fd = table.files fd := by
  induction steps with
  | refl => exact fun _ _ => rfl
  | @tail middle final _ step ih =>
      have still : OpenBelow 3 middle := by
        intro fd standard
        rw [ih fd standard]
        exact below fd standard
      intro fd standard
      rw [still.step lowest step fd standard, ih fd standard]

theorem checkStandardFdsIfSecure_ok {secure : Nat} (secured : secure ≠ 0)
    (checked : checkStandardFdsIfSecure kernel table secure = .ok after) :
    ∃ first second,
      checkStandardFd kernel table 0 (ascii "/dev/full") (oWronly ||| oNofollow) = .ok first ∧
      checkStandardFd kernel first 1 (ascii "/dev/null") (oRdonly ||| oNofollow) = .ok second ∧
      checkStandardFd kernel second 2 (ascii "/dev/null") (oRdonly ||| oNofollow) = .ok after := by
  rw [checkStandardFdsIfSecure, if_neg secured] at checked
  obtain ⟨first, early, checked⟩ := bind_eq_ok.mp checked
  obtain ⟨second, middle, late⟩ := bind_eq_ok.mp checked
  exact ⟨first, second, early, middle, late⟩

theorem openBelow_of_checked {secure : Nat} (secured : secure ≠ 0)
    (checked : checkStandardFdsIfSecure kernel table secure = .ok after) : OpenBelow 3 after := by
  obtain ⟨first, second, early, middle, late⟩ := checkStandardFdsIfSecure_ok secured checked
  have none : OpenBelow 0 table := fun _ impossible => absurd impossible (Nat.not_lt_zero _)
  exact checkStandardFd_below (checkStandardFd_below (checkStandardFd_below none early rfl) middle
    rfl) late rfl

theorem checkStandardFd_kept {other : Nat}
    (checked : checkStandardFd kernel table fd path flags = .ok after)
    (kept : (table.files other).isSome ∨ fd < other) : after.files other = table.files other := by
  obtain ⟨_, only, unchanged⟩ := checkStandardFd_ok checked
  by_cases same : other = fd
  · rcases kept with present | later
    · rw [unchanged (same ▸ present)]
    · omega
  · exact only other same

theorem checkStandardFdsIfSecure_kept {secure other : Nat}
    (checked : checkStandardFdsIfSecure kernel table secure = .ok after)
    (kept : (table.files other).isSome ∨ 3 ≤ other) : after.files other = table.files other := by
  by_cases secured : secure = 0
  · rw [checkStandardFdsIfSecure, if_pos secured] at checked
    cases checked
    rfl
  · obtain ⟨first, second, early, middle, late⟩ := checkStandardFdsIfSecure_ok secured checked
    have one := checkStandardFd_kept early (kept.imp_right fun above => by omega)
    have two := checkStandardFd_kept middle (kept.imp (one ▸ ·) fun above => by omega)
    have three := checkStandardFd_kept late (kept.imp ((two.trans one) ▸ ·) fun above => by omega)
    exact three.trans (two.trans one)

/-- Where a check fails, its descriptor was missing from the start. -/
theorem checkStandardFdsIfSecure_error {secure status : Nat}
    (failed : checkStandardFdsIfSecure kernel table secure = .error status) :
    status = rtldFatalExitStatus ∧ secure ≠ 0 ∧ ∃ fd < 3, table.files fd = none := by
  by_cases secured : secure = 0
  · rw [checkStandardFdsIfSecure, if_pos secured] at failed
    cases failed
  · rw [checkStandardFdsIfSecure, if_neg secured] at failed
    cases early : checkStandardFd kernel table 0 (ascii "/dev/full") (oWronly ||| oNofollow) with
    | error first =>
        rw [early] at failed
        cases failed
        exact ⟨(checkStandardFd_error early).1, secured, 0, by decide,
          (checkStandardFd_error early).2⟩
    | ok first =>
        rw [early] at failed
        have zero := (checkStandardFd_ok early).2.1
        cases middle : checkStandardFd kernel first 1 (ascii "/dev/null")
            (oRdonly ||| oNofollow) with
        | error second =>
            rw [ok_bind, middle] at failed
            cases failed
            refine ⟨(checkStandardFd_error middle).1, secured, 1, by decide, ?_⟩
            rw [← zero 1 (by decide)]
            exact (checkStandardFd_error middle).2
        | ok second =>
            rw [ok_bind, middle] at failed
            have one := (checkStandardFd_ok middle).2.1
            refine ⟨(checkStandardFd_error failed).1, secured, 2, by decide, ?_⟩
            rw [← zero 2 (by decide), ← one 2 (by decide)]
            exact (checkStandardFd_error failed).2

end Checks

/-- A secure program starts with its three standard descriptors, the open ones as they were,
and no other descriptor is touched. Whatever it opens later, none of the three ever changes.
It is ended only where one was missing, never while the devices can be opened, and a program
that is not secure is left alone. -/
theorem secure_start_has_standard_fds (lowest : Lowest kernel) (table : FileTable)
    (secure : Nat) :
    (secure = 0 → checkStandardFdsIfSecure kernel table secure = .ok table) ∧
    (∀ after, checkStandardFdsIfSecure kernel table secure = .ok after →
      (∀ fd, (table.files fd).isSome ∨ 3 ≤ fd → after.files fd = table.files fd) ∧
      (secure ≠ 0 → OpenBelow 3 after ∧
        ∀ later, Relation.ReflTransGen (FileStep kernel) after later →
          ∀ fd < 3, later.files fd = after.files fd)) ∧
    (∀ status, checkStandardFdsIfSecure kernel table secure = .error status →
      status = rtldFatalExitStatus ∧ secure ≠ 0 ∧ ∃ fd < 3, table.files fd = none) ∧
    (Available kernel (ascii "/dev/full") (oWronly ||| oNofollow) →
      Available kernel (ascii "/dev/null") (oRdonly ||| oNofollow) →
      ∃ after, checkStandardFdsIfSecure kernel table secure = .ok after) := by
  refine ⟨fun unsecured => if_pos unsecured, ?_, fun _ => checkStandardFdsIfSecure_error, ?_⟩
  · intro after checked
    refine ⟨fun fd => checkStandardFdsIfSecure_kept checked, fun secured => ?_⟩
    have below := openBelow_of_checked secured checked
    exact ⟨below, fun later steps => below.steps lowest steps⟩
  · intro full null
    by_cases secured : secure = 0
    · exact ⟨table, if_pos secured⟩
    · have none : OpenBelow 0 table := fun _ impossible => absurd impossible (Nat.not_lt_zero _)
      obtain ⟨first, early⟩ := checkStandardFd_available lowest full (by decide) none
      have one := checkStandardFd_below none early rfl
      obtain ⟨second, middle⟩ := checkStandardFd_available lowest null (by decide) one
      have two := checkStandardFd_below one middle rfl
      obtain ⟨after, late⟩ := checkStandardFd_available lowest null (by decide) two
      refine ⟨after, ?_⟩
      rw [checkStandardFdsIfSecure, if_neg secured, early, ok_bind, middle]
      exact late

/-- The lowest free descriptor below 1024. -/
def lowestFree (table : FileTable) : Option Nat :=
  (List.range 1024).find? fun fd => (table.files fd).isNone

def openLowest (table : FileTable) (path : Bytes) : Except String (Nat × Bytes) :=
  (lowestFree table).elim (.error "Too many open files") fun fd => .ok (fd, path)

theorem openLowest_eq_ok {table : FileTable} {path content : Bytes} {fd : Nat} :
    openLowest table path = .ok (fd, content) ↔ lowestFree table = some fd ∧ path = content := by
  rw [openLowest]
  cases lowestFree table with
  | none => simp
  | some free => simp

theorem openLowest_unused (table : FileTable) (path : Bytes) (fd : Nat) (content : Bytes)
    (accepted : openLowest table path = .ok (fd, content)) : table.files fd = none := by
  simpa using List.find?_some (openLowest_eq_ok.mp accepted).1

/-- A read that is cut short only by the end. -/
def readWhole (count remaining : Nat) : Except String Nat :=
  .ok (if count ≤ remaining then count else remaining)

theorem readWhole_le (_ count remaining length : Nat)
    (answered : readWhole count remaining = .ok length) : length ≤ count ∧ length ≤ remaining := by
  cases answered
  split <;> omega

theorem readWhole_pos (_ count remaining length : Nat)
    (answered : readWhole count remaining = .ok length) :
    0 < count → 0 < remaining → 0 < length := by
  cases answered
  split <;> omega

theorem unsized (content : Bytes) (size : Nat) (told : none = some size) :
    0 < size → size = content.length ∧ true = true := by
  cases told

/-- Opens every path on the lowest free descriptor. -/
def lowestKernel : FileKernel where
  openFile := openLowest
  seekEnd _ := none
  seekStart _ := true
  read _ := readWhole
  unused := openLowest_unused
  sized := unsized
  read_le := readWhole_le
  read_pos := readWhole_pos

theorem lowest_lowestKernel : Lowest fun _ => lowestKernel := by
  intro flags table path fd content accepted lower early
  dsimp only [lowestKernel] at accepted
  have free := (openLowest_eq_ok.mp accepted).1
  rw [lowestFree] at free
  have before := (List.find?_range_eq_some.mp free).2.2 lower early
  simpa [Option.isSome_iff_ne_none] using before

theorem available_lowestKernel (path : Bytes) (flags : Nat) :
    Available (fun _ => lowestKernel) path flags := by
  intro table fd standard missing
  have found : ∃ free, lowestFree table = some free := by
    apply Option.isSome_iff_exists.mp
    rw [lowestFree, List.find?_isSome]
    exact ⟨fd, List.mem_range.mpr (by omega), by rw [missing]; rfl⟩
  obtain ⟨free, found⟩ := found
  simp [FileKernel.doOpen, lowestKernel, openLowest, found]

/-- Standard input and standard error are missing. -/
theorem secure_start_has_standard_fds_missing :
    ∃ after, checkStandardFdsIfSecure (fun _ => lowestKernel)
        ⟨fun fd => if fd = 1 then some ⟨[], 0⟩ else none, 0⟩ 1 = .ok after ∧
      OpenBelow 3 after ∧ after.files 1 = some ⟨[], 0⟩ := by
  obtain ⟨_, passed, _, succeeds⟩ := secure_start_has_standard_fds (fun _ => lowestKernel)
    lowest_lowestKernel ⟨fun fd => if fd = 1 then some ⟨[], 0⟩ else none, 0⟩ 1
  obtain ⟨after, checked⟩ := succeeds (available_lowestKernel _ _) (available_lowestKernel _ _)
  obtain ⟨kept, secured⟩ := passed after checked
  exact ⟨after, checked, (secured (by decide)).1, kept 1 (Or.inl rfl)⟩

end DynLinker.Startup.StandardFds
