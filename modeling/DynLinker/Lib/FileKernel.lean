import DynLinker.Lib.Bytes
import Mathlib.Logic.Function.Basic

/-! Open files as a program sees them: descriptors with a position in some content, system
calls that may fail at any time, and reads that return as much as the kernel likes. -/

set_option autoImplicit false

namespace DynLinker.Lib

structure OpenFileState where
  content : Bytes
  position : Nat
deriving DecidableEq

/-- The descriptors of a process; `turn` counts the reads, so that no two need be alike. -/
structure FileTable where
  files : Nat → Option OpenFileState
  turn : Nat

/-- The choices of the kernel. A file may say that it has no size; the size that another
one tells is its length, and it can go back to its start. A read of something returns
something unless the file ends. -/
structure FileKernel where
  openFile : FileTable → Bytes → Except String (Nat × Bytes)
  seekEnd : Bytes → Option Nat
  seekStart : Bytes → Bool
  read : (turn count remaining : Nat) → Except String Nat
  unused : ∀ table path fd content, openFile table path = .ok (fd, content) →
    table.files fd = none
  sized : ∀ content size, seekEnd content = some size → 0 < size →
    size = content.length ∧ seekStart content = true
  read_le : ∀ turn count remaining length, read turn count remaining = .ok length →
    length ≤ count ∧ length ≤ remaining
  read_pos : ∀ turn count remaining length, read turn count remaining = .ok length →
    0 < count → 0 < remaining → 0 < length

namespace FileKernel

variable (kernel : FileKernel)

/-- `open`: a new descriptor at the start of a file. -/
def doOpen (table : FileTable) (path : Bytes) : Except String (Nat × FileTable) :=
  match kernel.openFile table path with
  | .error errno => .error errno
  | .ok (fd, content) =>
      .ok (fd, { table with files := Function.update table.files fd (some ⟨content, 0⟩) })

def moveTo (table : FileTable) (fd : Nat) (file : OpenFileState) (position : Nat) : FileTable :=
  { table with files := Function.update table.files fd (some { file with position := position }) }

/-- `lseek(fd, 0, SEEK_END)`. -/
def doSeekEnd (table : FileTable) (fd : Nat) : Option Nat × FileTable :=
  match table.files fd with
  | none => (none, table)
  | some file =>
      match kernel.seekEnd file.content with
      | none => (none, table)
      | some size => (some size, moveTo table fd file size)

/-- `lseek(fd, 0, SEEK_SET)`. -/
def doSeekStart (table : FileTable) (fd : Nat) : Bool × FileTable :=
  match table.files fd with
  | none => (false, table)
  | some file =>
      if kernel.seekStart file.content then (true, moveTo table fd file 0) else (false, table)

/-- `read`: the bytes and the table after it. -/
def doRead (table : FileTable) (fd count : Nat) : Except String Bytes × FileTable :=
  let table := { table with turn := table.turn + 1 }
  match table.files fd with
  | none => (.error "Bad file descriptor", table)
  | some file =>
      match kernel.read table.turn count (file.content.length - file.position) with
      | .error errno => (.error errno, table)
      | .ok length => (.ok ((file.content.drop file.position).take length),
          moveTo table fd file (file.position + length))

/-- `close`. -/
def doClose (table : FileTable) (fd : Nat) : FileTable :=
  { table with files := Function.update table.files fd none }

section Spec

variable {kernel} {table : FileTable} {fd : Nat} {file : OpenFileState}

/-- The other descriptors of the table are those of another one. -/
def OnlyAt (fd : Nat) (before after : FileTable) : Prop :=
  ∀ other, other ≠ fd → after.files other = before.files other

theorem OnlyAt.refl (fd : Nat) (table : FileTable) : OnlyAt fd table table := fun _ _ => rfl

theorem OnlyAt.trans {first second third : FileTable} (early : OnlyAt fd first second)
    (late : OnlyAt fd second third) : OnlyAt fd first third :=
  fun other different => (late other different).trans (early other different)

theorem onlyAt_moveTo (table : FileTable) (fd : Nat) (file : OpenFileState) (position : Nat) :
    OnlyAt fd table (moveTo table fd file position) :=
  fun _ different => Function.update_of_ne different ..

theorem doSeekStart_zero (kernel : FileKernel) {content : Bytes}
    (listed : table.files fd = some ⟨content, 0⟩) :
    OnlyAt fd table (kernel.doSeekStart table fd).2 ∧
      (kernel.doSeekStart table fd).2.files fd = some ⟨content, 0⟩ := by
  simp only [doSeekStart, listed]
  split
  · exact ⟨onlyAt_moveTo table fd _ 0, Function.update_self ..⟩
  · exact ⟨.refl fd table, listed⟩

theorem doOpen_ok {path : Bytes} {next : FileTable}
    (accepted : kernel.doOpen table path = .ok (fd, next)) :
    ∃ content, kernel.openFile table path = .ok (fd, content) ∧
      next.files fd = some ⟨content, 0⟩ := by
  rw [doOpen] at accepted
  cases answer : kernel.openFile table path with
  | error errno =>
      rw [answer] at accepted
      cases accepted
  | ok found =>
      rw [answer] at accepted
      cases accepted
      exact ⟨found.2, rfl, Function.update_self ..⟩

theorem doOpen_only {path : Bytes} {next : FileTable}
    (accepted : kernel.doOpen table path = .ok (fd, next)) : OnlyAt fd table next := by
  rw [doOpen] at accepted
  split at accepted
  · cases accepted
  · cases accepted
    exact fun other different => Function.update_of_ne different ..

/-- What was opened and is closed again leaves the table as it was. -/
theorem close_restores {path : Bytes} {opened after : FileTable}
    (accepted : kernel.doOpen table path = .ok (fd, opened)) (only : OnlyAt fd opened after) :
    (doClose after fd).files = table.files := by
  obtain ⟨content, answer, _⟩ := doOpen_ok accepted
  have unused := kernel.unused table path fd content answer
  funext other
  by_cases same : other = fd
  · rw [same, unused]
    exact Function.update_self ..
  · exact (Function.update_of_ne same ..).trans
      (((doOpen_only accepted).trans only) other same)

theorem doRead_ok {count : Nat} {bytes : Bytes} {after : FileTable}
    (listed : table.files fd = some file) (ran : kernel.doRead table fd count = (.ok bytes, after)) :
    after.files fd = some { file with position := file.position + bytes.length } ∧
      bytes = (file.content.drop file.position).take bytes.length ∧ bytes.length ≤ count ∧
      OnlyAt fd table after ∧
      (0 < count → file.position < file.content.length → bytes ≠ []) := by
  simp only [doRead, listed] at ran
  cases answer : kernel.read (table.turn + 1) count (file.content.length - file.position) with
  | error errno =>
      rw [answer] at ran
      cases ran
  | ok length =>
      rw [answer] at ran
      cases ran
      obtain ⟨asked, left⟩ := kernel.read_le _ _ _ _ answer
      have taken : ((file.content.drop file.position).take length).length = length := by
        rw [List.length_take, List.length_drop]
        exact Nat.min_eq_left left
      rw [taken]
      refine ⟨Function.update_self .., rfl, asked, ?_, ?_⟩
      · intro other different
        exact Function.update_of_ne different ..
      · intro some more empty
        have positive := kernel.read_pos _ _ _ _ answer some (Nat.sub_pos_of_lt more)
        rw [empty] at taken
        exact Nat.ne_of_gt positive taken.symm

theorem doRead_error {count : Nat} {errno : String} {after : FileTable}
    (ran : kernel.doRead table fd count = (.error errno, after)) : OnlyAt fd table after := by
  simp only [doRead] at ran
  split at ran
  · cases ran
    exact fun _ _ => rfl
  · split at ran
    · cases ran
      exact fun _ _ => rfl
    · cases ran

end Spec

end FileKernel

end DynLinker.Lib
