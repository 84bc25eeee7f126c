import DynLinker.Error
import DynLinker.Lib.FileKernel

/-! Reading a whole file (`os/linux.rs`): in one piece when the file tells its size, and
piece by piece until nothing comes when it does not. -/

set_option autoImplicit false

namespace DynLinker.Registry

open Lib

/-- The length of the buffer on the stack. -/
def tempLength : Nat := 1024

variable (kernel : FileKernel)

/-- One `read` for all of it; less is an error. -/
def readSized (table : FileTable) (fd fileSize : Nat) : Except Error Bytes × FileTable :=
  match kernel.doRead table fd fileSize with
  | (.error errno, table) => (.error (.io errno), table)
  | (.ok bytes, table) =>
      if bytes.length ≠ fileSize then (.error (.io "Failed to read complete file"), table)
      else (.ok bytes, table)

/-- The loop that reads until nothing comes; `none` when the rounds run out. -/
def readPieces (fd : Nat) : Nat → FileTable → Bytes → Option (Except Error Bytes × FileTable)
  | 0, _, _ => none
  | rounds + 1, table, buffer =>
      match kernel.doRead table fd tempLength with
      | (.error errno, table) => some (.error (.io errno), table)
      | (.ok bytes, table) =>
          if bytes.length = 0 then some (.ok buffer, table)
          else readPieces fd rounds table (buffer ++ bytes)

/-- The part between `open` and `close`. -/
def readOpened (rounds : Nat) (table : FileTable) (fd : Nat) :
    Option (Except Error Bytes × FileTable) :=
  let (size, table) := kernel.doSeekEnd table fd
  let fileSize := size.getD 0
  if 0 < fileSize then
    match kernel.doSeekStart table fd with
    | (true, table) => some (readSized kernel table fd fileSize)
    | (false, table) => readPieces kernel fd rounds table []
  else readPieces kernel fd rounds (kernel.doSeekStart table fd).2 []

def readFile (rounds : Nat) (table : FileTable) (path : Bytes) :
    Option (Except Error Bytes × FileTable) :=
  match kernel.doOpen table path with
  | .error errno => some (.error (.io errno), table)
  | .ok (fd, table) =>
      (readOpened kernel rounds table fd).map fun (result, table) =>
        (result, FileKernel.doClose table fd)

section Spec

variable {table : FileTable} {fd : Nat}

/-- The loop ends after as many rounds as there are bytes left, and one more. What it has
collected is always what lies before the position. -/
theorem readPieces_spec (rounds : Nat) {position : Nat} {content : Bytes}
    (listed : table.files fd = some ⟨content, position⟩)
    (enough : content.length - position < rounds) :
    ∃ result after, readPieces kernel fd rounds table (content.take position) =
        some (result, after) ∧ FileKernel.OnlyAt fd table after ∧
      ∀ bytes, result = .ok bytes → bytes = content := by
  induction rounds generalizing table position with
  | zero => exact absurd enough (Nat.not_lt_zero _)
  | succ rounds ih =>
      rw [readPieces]
      cases ran : kernel.doRead table fd tempLength with
      | mk answer next =>
          cases answer with
          | error errno =>
              exact ⟨_, _, rfl, FileKernel.doRead_error ran, nofun⟩
          | ok bytes =>
              obtain ⟨moved, read, _, only, progress⟩ := FileKernel.doRead_ok listed ran
              dsimp only at moved read progress
              by_cases nothing : bytes.length = 0
              · have ended : content.length ≤ position := by
                  apply Nat.le_of_not_lt
                  intro more
                  exact progress (by decide) more (List.length_eq_zero_iff.mp nothing)
                refine ⟨_, _, if_pos nothing, only, ?_⟩
                intro collected same
                cases same
                exact List.take_of_length_le ended
              · have collected : content.take position ++ bytes =
                    content.take (position + bytes.length) := by
                  rw [List.take_add, ← read]
                have inside : position < content.length := by
                  apply Nat.lt_of_not_le
                  intro ended
                  rw [List.drop_of_length_le ended, List.take_nil] at read
                  exact nothing (read ▸ rfl)
                obtain ⟨result, after, finished, rest, whole⟩ := ih moved (by omega)
                refine ⟨result, after, ?_, only.trans rest, whole⟩
                rw [← finished, ← collected]
                exact if_neg nothing

theorem readSized_spec {content : Bytes} (listed : table.files fd = some ⟨content, 0⟩) :
    FileKernel.OnlyAt fd table (readSized kernel table fd content.length).2 ∧
      ∀ bytes, (readSized kernel table fd content.length).1 = .ok bytes → bytes = content := by
  rw [readSized]
  cases ran : kernel.doRead table fd content.length with
  | mk answer next =>
      cases answer with
      | error errno => exact ⟨FileKernel.doRead_error ran, nofun⟩
      | ok bytes =>
          obtain ⟨_, read, _, only, _⟩ := FileKernel.doRead_ok listed ran
          by_cases short : bytes.length ≠ content.length
          · simp only [if_pos short]
            exact ⟨only, nofun⟩
          · simp only [if_neg short]
            refine ⟨only, ?_⟩
            intro all same
            cases same
            rw [not_ne_iff.mp short, List.drop_zero, List.take_length] at read
            exact read

theorem readOpened_spec {rounds : Nat} {content : Bytes}
    (listed : table.files fd = some ⟨content, 0⟩) (enough : content.length < rounds) :
    ∃ result after, readOpened kernel rounds table fd = some (result, after) ∧
      FileKernel.OnlyAt fd table after ∧ ∀ bytes, result = .ok bytes → bytes = content := by
  have piecewise {moved : FileTable} (only : FileKernel.OnlyAt fd table moved)
      (start : moved.files fd = some ⟨content, 0⟩) :
      ∃ result after, readPieces kernel fd rounds moved [] = some (result, after) ∧
        FileKernel.OnlyAt fd table after ∧ ∀ bytes, result = .ok bytes → bytes = content := by
    obtain ⟨result, after, finished, rest, whole⟩ :=
      readPieces_spec kernel rounds start (Nat.lt_of_le_of_lt (Nat.sub_le _ _) enough)
    exact ⟨result, after, finished, only.trans rest, whole⟩
  have again {moved : FileTable} (only : FileKernel.OnlyAt fd table moved)
      (start : moved.files fd = some ⟨content, 0⟩) :=
    have stays := FileKernel.doSeekStart_zero kernel start
    piecewise (only.trans stays.1) stays.2
  simp only [readOpened, FileKernel.doSeekEnd, listed]
  cases told : kernel.seekEnd content with
  | none =>
      simp only [Option.getD_none, Nat.lt_irrefl, if_false]
      exact again (.refl fd table) listed
  | some size =>
      simp only [Option.getD_some]
      have moved := FileKernel.onlyAt_moveTo table fd ⟨content, 0⟩ size
      have at_ : (FileKernel.moveTo table fd ⟨content, 0⟩ size).files fd =
          some ⟨content, size⟩ := Function.update_self ..
      cases Nat.eq_zero_or_pos size with
      | inl empty =>
          rw [if_neg (Nat.not_lt.mpr (Nat.le_of_eq empty))]
          rw [empty] at moved at_ ⊢
          exact again moved at_
      | inr positive =>
          obtain ⟨whole, seekable⟩ := kernel.sized content size told positive
          have back : kernel.doSeekStart (FileKernel.moveTo table fd ⟨content, 0⟩ size) fd =
              (true, FileKernel.moveTo (FileKernel.moveTo table fd ⟨content, 0⟩ size) fd
                ⟨content, size⟩ 0) := by
            simp only [FileKernel.doSeekStart, at_, seekable, if_true]
          rw [if_pos positive, back, whole]
          rw [whole] at moved
          have only := moved.trans (FileKernel.onlyAt_moveTo _ fd ⟨content, content.length⟩ 0)
          have start : (FileKernel.moveTo (FileKernel.moveTo table fd ⟨content, 0⟩ content.length) fd
              ⟨content, content.length⟩ 0).files fd = some ⟨content, 0⟩ := Function.update_self ..
          obtain ⟨rest, complete⟩ := readSized_spec kernel start
          exact ⟨_, _, rfl, only.trans rest, complete⟩

/-- `read_file` on any kernel: it ends, it leaves no descriptor open, and what it returns is
the whole content. -/
theorem readFile_spec (rounds : Nat) (path : Bytes)
    (enough : ∀ fd content, kernel.openFile table path = .ok (fd, content) →
      content.length < rounds) :
    ∃ result after, readFile kernel rounds table path = some (result, after) ∧
      after.files = table.files ∧ ∀ bytes, result = .ok bytes →
        ∃ fd, kernel.openFile table path = .ok (fd, bytes) := by
  rw [readFile]
  cases accepted : kernel.doOpen table path with
  | error errno => exact ⟨_, _, rfl, rfl, nofun⟩
  | ok opened =>
      obtain ⟨fd, next⟩ := opened
      obtain ⟨content, answer, listed⟩ := FileKernel.doOpen_ok accepted
      obtain ⟨result, after, finished, only, whole⟩ :=
        readOpened_spec kernel listed (enough fd content answer)
      refine ⟨result, FileKernel.doClose after fd, ?_, FileKernel.close_restores accepted only, ?_⟩
      · simp only [finished, Option.map_some]
      · intro bytes same
        rw [whole bytes same]
        exact ⟨fd, answer⟩

end Spec

end DynLinker.Registry
