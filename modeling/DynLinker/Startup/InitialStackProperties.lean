import DynLinker.Startup.InitialStack

/-! Parsing and rewriting of well-formed initial stacks. -/

set_option autoImplicit false

namespace DynLinker.Startup

open Lib

theorem takeWhile_nonnull {pointers rest : List Nat} (nonnull : ∀ pointer ∈ pointers, pointer ≠ 0) :
    (pointers ++ 0 :: rest).takeWhile (· ≠ 0) = pointers := by
  induction pointers with
  | nil => simp
  | cons head tail ih =>
      have headNonnull := nonnull head List.mem_cons_self
      simp only [List.cons_append, List.takeWhile_cons, headNonnull, ne_eq, not_false_eq_true,
        decide_true, ↓reduceIte, List.cons.injEq, true_and]
      exact ih fun pointer member => nonnull pointer (List.mem_cons_of_mem _ member)

/-- What the vector records, pair by pair. -/
def auxOf (auxv : List (Nat × Nat)) : AuxValues :=
  auxv.foldl (fun aux pair => aux.record pair.1 pair.2) .empty

/-- Recording keeps the last pair of a kind. -/
theorem foldl_auxRecord {target : Nat} (auxv : List (Nat × Nat)) {field : AuxValues → Nat}
    (recorded : ∀ aux kind value, field (AuxValues.record aux kind value) =
      if kind = target then value else field aux) (aux : AuxValues) :
    field (auxv.foldl (fun aux pair => aux.record pair.1 pair.2) aux) =
      ((auxv.filter fun pair => pair.1 = target).getLast?.map Prod.snd).getD (field aux) := by
  induction auxv generalizing aux with
  | nil => rfl
  | cons pair rest ih =>
      rw [List.foldl_cons, ih, recorded]
      by_cases same : pair.1 = target
      · simp [same, List.getLast?_cons]
      · simp [same]

/-- With at most one pair of a kind the first one is the last one. -/
theorem head?_eq_getLast? {Item : Type} {items : List Item} (once : items.length ≤ 1) :
    items.head? = items.getLast? := by
  match items, once with
  | [], _ => rfl
  | [_], _ => rfl

theorem parseAuxv_auxvWords {auxv : List (Nat × Nat)} {nullValue : Nat} {above : List Nat}
    (nonnull : ∀ pair ∈ auxv, pair.1 ≠ atNull) (aux : AuxValues) :
    parseAuxv aux (StackImage.auxvWords auxv nullValue ++ above) =
      auxv.foldl (fun aux pair => aux.record pair.1 pair.2) aux := by
  induction auxv generalizing aux with
  | nil => simp [StackImage.auxvWords, parseAuxv]
  | cons pair rest ih =>
      have kindNonnull := nonnull pair List.mem_cons_self
      have recursive := ih (fun other member => nonnull other (List.mem_cons_of_mem _ member))
        (aux.record pair.1 pair.2)
      simp only [StackImage.auxvWords, List.flatMap_cons, List.cons_append, List.nil_append,
        List.append_assoc, parseAuxv, kindNonnull, ↓reduceIte, List.foldl_cons] at recursive ⊢
      exact recursive

theorem auxvLength_auxvWords {auxv : List (Nat × Nat)} {nullValue : Nat} {above : List Nat}
    (nonnull : ∀ pair ∈ auxv, pair.1 ≠ atNull) :
    auxvLength (StackImage.auxvWords auxv nullValue ++ above) =
      (StackImage.auxvWords auxv nullValue).length := by
  induction auxv with
  | nil => simp [StackImage.auxvWords, auxvLength]
  | cons pair rest ih =>
      have kindNonnull := nonnull pair List.mem_cons_self
      have recursive := ih fun other member => nonnull other (List.mem_cons_of_mem _ member)
      simp only [StackImage.auxvWords, List.flatMap_cons, List.cons_append, List.nil_append,
        List.append_assoc, auxvLength, kindNonnull, ↓reduceIte, List.length_cons] at recursive ⊢
      rw [recursive]
      omega

namespace StackImage

variable (image : StackImage)

theorem drop_envp : image.words.drop (image.argv.length + 2) =
    image.envp ++ 0 :: (auxvWords image.auxv image.nullValue ++ image.above) := by
  have split : image.argv.length + 2 = (image.argv.length + 1) + 1 := rfl
  rw [words, split, List.drop_succ_cons, List.drop_append]
  simp

theorem pointersAt_envp : pointersAt image.words (image.argv.length + 2) = image.envp := by
  rw [pointersAt, drop_envp]
  exact takeWhile_nonnull image.envpNonnull

theorem drop_auxv : image.words.drop (image.argv.length + 2 + image.envp.length + 1) =
    auxvWords image.auxv image.nullValue ++ image.above := by
  rw [Nat.add_assoc, ← List.drop_drop, drop_envp, List.drop_append]
  simp

/-- `InitialStack::parse` reads back the parts of a well-formed stack. -/
theorem parse_words : InitialStack.parse image.words = {
    words := image.words
    process := {
      argc := image.argv.length
      argv := 1
      envp := image.argv.length + 2
      auxv := image.argv.length + 2 + image.envp.length + 1
      execPath := 0
    }
    aux := auxOf image.auxv } := by
  have argc : image.words.getD 0 0 = image.argv.length := rfl
  simp only [InitialStack.parse, argc, pointersAt_envp, drop_auxv, auxOf,
    parseAuxv_auxvWords image.auxvNonnull]

end StackImage

/-! ## Moving the program down -/

namespace InitialStack

theorem copyWords_length (words : List Nat) (dst src count : Nat) :
    (copyWords words dst src count).length = words.length := by
  induction count with
  | zero => rfl
  | succ count ih => simpa [copyWords] using ih

/-- The copy moves down, so no word is overwritten before it is read. -/
theorem copyWords_getElem? (words : List Nat) {dst src : Nat} (down : dst ≤ src) (count : Nat)
    (inside : src + count ≤ words.length) (index : Nat) :
    (copyWords words dst src count)[index]? =
      if dst ≤ index ∧ index < dst + count then words[src + (index - dst)]? else words[index]? := by
  induction count generalizing index with
  | zero =>
      rw [if_neg (by omega)]
      rfl
  | succ count ih =>
      have recursive := ih (by omega)
      have length := copyWords_length words dst src count
      simp only [copyWords]
      by_cases last : index = dst + count
      · subst index
        have source : src + count < words.length := by omega
        have read : (copyWords words dst src count)[src + count]? = words[src + count]? := by
          rw [recursive, if_neg (by omega)]
        rw [List.getElem?_set_self (by omega), if_pos (by omega), List.getD_eq_getElem?_getD, read,
          List.getElem?_eq_getElem source, Nat.add_sub_cancel_left,
          List.getElem?_eq_getElem source]
        rfl
      · rw [List.getElem?_set_ne (by omega), recursive]
        by_cases copied : dst ≤ index ∧ index < dst + count
        · rw [if_pos copied, if_pos (by omega)]
        · rw [if_neg copied, if_neg (by omega)]

theorem copyWords_eq (words : List Nat) {dst src : Nat} (down : dst ≤ src) (count : Nat)
    (inside : src + count ≤ words.length) :
    copyWords words dst src count =
      words.take dst ++ ((words.drop src).take count ++ words.drop (dst + count)) := by
  apply List.ext_getElem?
  intro index
  rw [copyWords_getElem? words down count inside]
  have takeLength : (words.take dst).length = dst := by
    rw [List.length_take]
    omega
  have middleLength : ((words.drop src).take count).length = count := by
    rw [List.length_take, List.length_drop]
    omega
  by_cases before : index < dst
  · rw [if_neg (by omega), List.getElem?_append_left (by omega), List.getElem?_take_of_lt before]
  · rw [List.getElem?_append_right (by omega), takeLength]
    by_cases copied : index < dst + count
    · rw [if_pos (by omega), List.getElem?_append_left (by omega),
        List.getElem?_take_of_lt (by omega), List.getElem?_drop]
    · rw [if_neg (by omega), List.getElem?_append_right (by omega), middleLength,
        List.getElem?_drop]
      congr 1
      omega

end InitialStack

namespace StackImage

/-- The arguments that the selected program sees. -/
def programArgv (argv : List Nat) (program : DirectProgram) : List Nat :=
  match argv.drop program.argvIndex with
  | [] => []
  | first :: rest => (if program.argv0 ≠ 0 then program.argv0 else first) :: rest

theorem programArgv_nonnull {argv : List Nat} (program : DirectProgram)
    (nonnull : ∀ pointer ∈ argv, pointer ≠ 0) :
    ∀ pointer ∈ programArgv argv program, pointer ≠ 0 := by
  intro pointer member
  unfold programArgv at member
  split at member
  · cases member
  · next first rest selected =>
      have firstMember : first ∈ argv := List.mem_of_mem_drop (selected ▸ List.mem_cons_self)
      rcases List.mem_cons.mp member with rfl | member
      · split
        · next given => exact given
        · exact nonnull first firstMember
      · exact nonnull pointer
          (List.mem_of_mem_drop (selected ▸ List.mem_cons_of_mem _ member))

/-- The image after the move; `stale` is what the move leaves above it. -/
def forProgram (image : StackImage) (program : DirectProgram) (stale : List Nat) : StackImage where
  argv := programArgv image.argv program
  envp := image.envp
  auxv := image.auxv
  nullValue := image.nullValue
  above := stale
  argvNonnull := programArgv_nonnull program image.argvNonnull
  envpNonnull := image.envpNonnull
  auxvNonnull := image.auxvNonnull

variable (image : StackImage)

theorem programArgv_length (argv : List Nat) (program : DirectProgram) :
    (programArgv argv program).length = argv.length - program.argvIndex := by
  unfold programArgv
  split
  · next selected => rw [← List.length_drop, selected]
  · next first rest selected =>
      rw [← List.length_drop, selected]
      rfl

/-- A rewritten stack is again a well-formed image, with the same environment and
auxiliary vector. -/
theorem rewriteForProgram_words (program : DirectProgram)
    (inside : program.argvIndex < image.argv.length) :
    ∃ stale, ((InitialStack.parse image.words).rewriteForProgram program).1 =
      (image.forProgram program stale).words := by
  obtain ⟨first, rest, selected⟩ :
      ∃ first rest, image.argv.drop program.argvIndex = first :: rest := by
    cases selected : image.argv.drop program.argvIndex with
    | nil =>
        have empty := List.length_drop (i := program.argvIndex) (l := image.argv)
        rw [selected, List.length_nil] at empty
        omega
    | cons first rest => exact ⟨first, rest, rfl⟩
  have restLength : rest.length + 1 = image.argv.length - program.argvIndex := by
    rw [← List.length_drop, selected, List.length_cons]
  let tail := 0 :: (image.envp ++ 0 :: auxvWords image.auxv image.nullValue)
  have body : image.words =
      image.argv.length :: (image.argv ++ (tail ++ image.above)) := by
    simp [words, tail]
  have stop : image.argv.length + 2 + image.envp.length + 1 +
      (auxvWords image.auxv image.nullValue).length = 1 + image.argv.length + tail.length := by
    simp only [tail, List.length_cons, List.length_append]
    omega
  have dropped : image.words.drop (1 + program.argvIndex) =
      (first :: rest) ++ (tail ++ image.above) := by
    rw [body, Nat.add_comm, List.drop_succ_cons, List.drop_append_of_le_length (by omega),
      selected]
  have length : image.words.length = 1 + image.argv.length + tail.length + image.above.length := by
    rw [body]
    simp only [List.length_cons, List.length_append]
    omega
  have taken : ((first :: rest) ++ (tail ++ image.above)).take
      (1 + image.argv.length + tail.length - (1 + program.argvIndex)) =
        (first :: rest) ++ tail := by
    rw [← List.append_assoc]
    apply List.take_left'
    simp only [List.length_cons, List.length_append]
    omega
  refine ⟨image.words.drop (1 + (1 + image.argv.length + tail.length -
    (1 + program.argvIndex))), ?_⟩
  rw [parse_words]
  simp only [InitialStack.rewriteForProgram, drop_auxv,
    auxvLength_auxvWords image.auxvNonnull, stop]
  rw [InitialStack.copyWords_eq _ (by omega) _ (by omega), dropped, taken]
  have head : image.words.take 1 = [image.argv.length] := rfl
  rw [head]
  simp only [words, forProgram, programArgv, selected]
  split
  · simp [tail, restLength]
  · simp [tail, restLength]

/-- A direct invocation leaves the environment pointers as they were. -/
theorem rewriteForProgram_envp (program : DirectProgram)
    (inside : program.argvIndex < image.argv.length) :
    pointersAt ((InitialStack.parse image.words).rewriteForProgram program).1
        ((InitialStack.parse image.words).rewriteForProgram program).2.envp = image.envp := by
  obtain ⟨stale, rewritten⟩ := image.rewriteForProgram_words program inside
  have envp : ((InitialStack.parse image.words).rewriteForProgram program).2.envp =
      (image.forProgram program stale).argv.length + 2 := by
    rw [parse_words]
    simp only [InitialStack.rewriteForProgram, forProgram, programArgv_length]
  rw [rewritten, envp, pointersAt_envp]
  rfl

end StackImage

end DynLinker.Startup
