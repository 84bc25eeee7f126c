import DynLinker.Startup.InitialStackProperties

/-! The stack that a directly executed program gets: what `rewrite_for_program` and
`patch_auxv` make of a well-formed initial stack is again one, and nothing above the old
one is written. -/

set_option autoImplicit false

namespace DynLinker.Startup

open Lib

/-- Every pair keeps its kind and gets the value that the patch says. -/
def AuxPatch.apply (patch : AuxPatch) (auxv : List (Nat × Nat)) : List (Nat × Nat) :=
  auxv.map fun pair => (pair.1, patch.value pair.1 pair.2)

theorem auxvPairs_auxvWords {auxv : List (Nat × Nat)} {nullValue : Nat} {above : List Nat}
    (nonnull : ∀ pair ∈ auxv, pair.1 ≠ atNull) :
    auxvPairs (StackImage.auxvWords auxv nullValue ++ above) = auxv := by
  induction auxv with
  | nil => simp [StackImage.auxvWords, auxvPairs]
  | cons pair rest ih =>
      have kindNonnull := nonnull pair List.mem_cons_self
      have recursive := ih fun other member => nonnull other (List.mem_cons_of_mem _ member)
      simp only [StackImage.auxvWords, List.flatMap_cons, List.cons_append, List.nil_append,
        List.append_assoc, auxvPairs, kindNonnull, ↓reduceIte] at recursive ⊢
      rw [recursive]

theorem patchPairs_auxvWords {auxv : List (Nat × Nat)} {nullValue : Nat} {above : List Nat}
    (nonnull : ∀ pair ∈ auxv, pair.1 ≠ atNull) (patch : AuxPatch) :
    patchPairs patch (StackImage.auxvWords auxv nullValue ++ above) =
      StackImage.auxvWords (patch.apply auxv) nullValue ++ above := by
  induction auxv with
  | nil => simp [StackImage.auxvWords, patchPairs, AuxPatch.apply]
  | cons pair rest ih =>
      have kindNonnull := nonnull pair List.mem_cons_self
      have recursive := ih fun other member => nonnull other (List.mem_cons_of_mem _ member)
      simp only [StackImage.auxvWords, AuxPatch.apply, List.map_cons, List.flatMap_cons,
        List.cons_append, List.nil_append, List.append_assoc, patchPairs, kindNonnull,
        ↓reduceIte] at recursive ⊢
      rw [recursive]

theorem auxvWords_length (auxv : List (Nat × Nat)) (nullValue : Nat) :
    (StackImage.auxvWords auxv nullValue).length = 2 * auxv.length + 2 := by
  induction auxv with
  | nil => rfl
  | cons pair rest ih =>
      simp only [StackImage.auxvWords, List.flatMap_cons, List.length_append, List.length_cons]
        at ih ⊢
      simp only [List.length_nil] at ih ⊢
      omega

namespace StackImage

variable (image : StackImage)

/-- The words of the image itself, without what lies above. -/
def size : Nat := image.argv.length + image.envp.length + 2 * image.auxv.length + 5

/-- The image with a patched vector. -/
def patched (patch : AuxPatch) : StackImage where
  argv := image.argv
  envp := image.envp
  auxv := patch.apply image.auxv
  nullValue := image.nullValue
  above := image.above
  argvNonnull := image.argvNonnull
  envpNonnull := image.envpNonnull
  auxvNonnull pair member := by
    obtain ⟨old, present, rfl⟩ := List.mem_map.mp member
    exact image.auxvNonnull old present

theorem words_length : image.words.length = image.size + image.above.length := by
  simp only [words, List.length_cons, List.length_append, auxvWords_length, size]
  omega

theorem patched_size (patch : AuxPatch) : (image.patched patch).size = image.size := by
  simp [size, patched, AuxPatch.apply]

theorem drop_size : image.words.drop image.size = image.above := by
  have front : image.words = (image.argv.length :: (image.argv ++ 0 :: (image.envp ++ 0 ::
      auxvWords image.auxv image.nullValue))) ++ image.above := by
    simp [words]
  rw [front]
  refine List.drop_left' ?_
  simp only [List.length_cons, List.length_append, auxvWords_length, size]
  omega

theorem patched_drop (patch : AuxPatch) {start : Nat} (beyond : image.size ≤ start) :
    (image.patched patch).words.drop start = image.words.drop start := by
  obtain ⟨more, rfl⟩ := Nat.exists_eq_add_of_le beyond
  have mine := (image.patched patch).drop_size
  rw [patched_size] at mine
  rw [← List.drop_drop, ← List.drop_drop, mine, drop_size]
  rfl

theorem patched_length (patch : AuxPatch) :
    (image.patched patch).words.length = image.words.length := by
  rw [words_length, words_length, patched_size]
  rfl

theorem patchAuxv_words (patch : AuxPatch) :
    patchAuxv image.words (image.argv.length + 2 + image.envp.length + 1) patch =
      (image.patched patch).words := by
  have front : image.words = (image.argv.length :: (image.argv ++ 0 :: (image.envp ++ [0]))) ++
      (auxvWords image.auxv image.nullValue ++ image.above) := by
    simp [words]
  have length : (image.argv.length :: (image.argv ++ 0 :: (image.envp ++ [0]))).length =
      image.argv.length + 2 + image.envp.length + 1 := by
    simp only [List.length_cons, List.length_append, List.length_nil]
    omega
  rw [patchAuxv, drop_auxv, patchPairs_auxvWords image.auxvNonnull, front, List.take_left' length]
  simp [words, patched]

theorem pointersAt_argv : pointersAt image.words 1 = image.argv := by
  rw [pointersAt, words, List.drop_succ_cons, List.drop_zero]
  exact takeWhile_nonnull image.argvNonnull

theorem auxvPairs_words :
    auxvPairs (image.words.drop (image.argv.length + 2 + image.envp.length + 1)) = image.auxv := by
  rw [drop_auxv]
  exact auxvPairs_auxvWords image.auxvNonnull

/-- The words after the copy loop. The old image ends where the copied words do. -/
def moved (program : DirectProgram) : List Nat :=
  InitialStack.copyWords image.words 1 (1 + program.argvIndex)
    (image.size - (1 + program.argvIndex))

theorem rewriteForProgram_moved (program : DirectProgram) :
    (InitialStack.parse image.words).rewriteForProgram program =
      let argc := image.argv.length - program.argvIndex
      let moved := (image.moved program).set 0 argc
      let rewritten := if program.argv0 ≠ 0 then moved.set 1 program.argv0 else moved
      (rewritten, ⟨argc, 1, argc + 2, argc + 2 + (pointersAt rewritten (argc + 2)).length + 1,
        moved.getD 1 0⟩) := by
  have stop : image.argv.length + 2 + image.envp.length + 1 +
      (auxvWords image.auxv image.nullValue).length = image.size := by
    rw [auxvWords_length, size]
    omega
  rw [parse_words]
  simp only [InitialStack.rewriteForProgram, drop_auxv, auxvLength_auxvWords image.auxvNonnull,
    stop, moved]

theorem moved_getElem? (program : DirectProgram) (inside : program.argvIndex < image.argv.length)
    (index : Nat) : (image.moved program)[index]? =
      if 1 ≤ index ∧ index < image.size - program.argvIndex
      then image.words[program.argvIndex + index]? else image.words[index]? := by
  have length := image.words_length
  have below : program.argvIndex + 5 < image.size + 5 := by
    rw [size]
    omega
  rw [moved, InitialStack.copyWords_getElem? _ (by omega) _ (by rw [size] at *; omega)]
  by_cases copied : 1 ≤ index ∧ index < image.size - program.argvIndex
  · rw [if_pos (by omega), if_pos copied]
    congr 1
    omega
  · rw [if_neg (by omega), if_neg copied]

theorem rewriteForProgram_length (program : DirectProgram) :
    ((InitialStack.parse image.words).rewriteForProgram program).1.length = image.words.length := by
  have copied : (image.moved program).length = image.words.length :=
    InitialStack.copyWords_length _ _ _ _
  rw [rewriteForProgram_moved]
  simp only
  split
  · rw [List.length_set, List.length_set, copied]
  · rw [List.length_set, copied]

/-- Nothing above the old image is written. -/
theorem rewriteForProgram_above (program : DirectProgram)
    (inside : program.argvIndex < image.argv.length) :
    ((InitialStack.parse image.words).rewriteForProgram program).1.drop image.size =
      image.above := by
  rw [rewriteForProgram_moved, ← drop_size]
  have beyond : ∀ index, (image.moved program)[image.size + index]? =
      image.words[image.size + index]? := by
    intro index
    rw [moved_getElem? image program inside, if_neg (by omega)]
  have positive : 2 ≤ image.size := by
    rw [size]
    omega
  apply List.ext_getElem?
  intro index
  simp only [List.getElem?_drop]
  split
  · rw [List.getElem?_set_ne (by omega), List.getElem?_set_ne (by omega), beyond]
  · rw [List.getElem?_set_ne (by omega), beyond]

theorem rewriteForProgram_execPath (program : DirectProgram)
    (inside : program.argvIndex < image.argv.length) :
    image.argv[program.argvIndex]? =
      some ((InitialStack.parse image.words).rewriteForProgram program).2.execPath := by
  have read : image.words[program.argvIndex + 1]? = image.argv[program.argvIndex]? := by
    rw [words, List.getElem?_cons_succ, List.getElem?_append_left inside]
  have first : (image.moved program)[1]? = image.argv[program.argvIndex]? := by
    rw [moved_getElem? image program inside, if_pos, read]
    rw [size]
    omega
  rw [rewriteForProgram_moved]
  simp only [List.getD_eq_getElem?_getD]
  rw [List.getElem?_set_ne (by omega), first, List.getElem?_eq_getElem inside]
  rfl

end StackImage

/-- The stack that a directly executed program finds, with what `rewrite_for_program`
returned. -/
def directStack (words : List Nat) (program : DirectProgram) (patch : AuxPatch) :
    List Nat × ProcessStack :=
  let rewritten := (InitialStack.parse words).rewriteForProgram program
  (patchAuxv rewritten.1 rewritten.2.auxv patch, rewritten.2)

/-- The pointers that `rewrite_for_program` returns are those of the moved image. -/
theorem StackImage.rewriteForProgram_process (image : StackImage) (program : DirectProgram)
    {stale : List Nat} (rewritten : ((InitialStack.parse image.words).rewriteForProgram program).1 =
      (image.forProgram program stale).words) :
    ∃ execPath, ((InitialStack.parse image.words).rewriteForProgram program).2 =
      { (InitialStack.parse (image.forProgram program stale).words).process with
        execPath := execPath } := by
  have argc : (image.forProgram program stale).argv.length =
      image.argv.length - program.argvIndex := programArgv_length _ _
  rw [rewriteForProgram_moved] at rewritten ⊢
  simp only at rewritten ⊢
  rw [rewritten, parse_words, ← argc, pointersAt_envp]
  exact ⟨_, rfl⟩

/-- Direct execution hands the program an intact stack: parsed again, it has the remaining
arguments, the same environment and the patched vector; what `rewrite_for_program` returned
says where they are; and no word above the old stack changed. -/
theorem direct_stack_intact (image : StackImage) (program : DirectProgram) (patch : AuxPatch)
    (inside : program.argvIndex < image.argv.length) (words : List Nat) (process : ProcessStack)
    (ran : directStack image.words program patch = (words, process)) :
    (InitialStack.parse words).process.argc = image.argv.length - program.argvIndex ∧
      pointersAt words (InitialStack.parse words).process.argv =
        StackImage.programArgv image.argv program ∧
      pointersAt words (InitialStack.parse words).process.envp = image.envp ∧
      auxvPairs (words.drop (InitialStack.parse words).process.auxv) = patch.apply image.auxv ∧
      (InitialStack.parse words).aux = auxOf (patch.apply image.auxv) ∧
      process.argc = (InitialStack.parse words).process.argc ∧
      process.argv = (InitialStack.parse words).process.argv ∧
      process.envp = (InitialStack.parse words).process.envp ∧
      process.auxv = (InitialStack.parse words).process.auxv ∧
      image.argv[program.argvIndex]? = some process.execPath ∧
      words.length = image.words.length ∧
      words.drop image.size = image.words.drop image.size := by
  obtain ⟨stale, rewritten⟩ := image.rewriteForProgram_words program inside
  have exec := image.rewriteForProgram_execPath program inside
  have above := image.rewriteForProgram_above program inside
  obtain ⟨execPath, located⟩ := image.rewriteForProgram_process program rewritten
  have argc : (image.forProgram program stale).argv.length =
      image.argv.length - program.argvIndex := StackImage.programArgv_length _ _
  rw [located] at exec
  rw [rewritten] at above
  rw [directStack, Prod.mk.injEq, located, rewritten, StackImage.parse_words] at ran
  obtain ⟨stack, returned⟩ := ran
  rw [StackImage.patchAuxv_words] at stack
  subst stack returned
  have smaller : (image.forProgram program stale).size ≤ image.size := by
    rw [StackImage.size, StackImage.size, argc]
    change _ + image.envp.length + 2 * image.auxv.length + 5 ≤ _
    omega
  rw [StackImage.parse_words]
  refine ⟨argc, ?_, ?_, ?_, rfl, rfl, rfl, rfl, rfl, exec, ?_, ?_⟩
  · exact StackImage.pointersAt_argv _
  · exact StackImage.pointersAt_envp _
  · exact StackImage.auxvPairs_words _
  · rw [StackImage.patched_length, ← rewritten, StackImage.rewriteForProgram_length]
  · rw [StackImage.patched_drop _ patch smaller, above, StackImage.drop_size]

def exampleStack : StackImage where
  argv := [0x1000, 0x1010, 0x1020]
  envp := [0x2000]
  auxv := [(atPagesz, 4096), (atPhdr, 0x40), (atExecfn, 0x1000)]
  nullValue := 0
  above := [77, 78]
  argvNonnull := by decide
  envpNonnull := by decide
  auxvNonnull := by decide

/-- The program at `argv[1]` gets its own vector and a new `argv[0]`. -/
theorem direct_stack_intact_argv0 :
    directStack exampleStack.words ⟨1, 0x1005⟩ ⟨0x7040, 9, 0x8000, 0x7100, 0x1010⟩ =
        ([2, 0x1005, 0x1020, 0, 0x2000, 0, atPagesz, 4096, atPhdr, 0x7040, atExecfn, 0x1010,
          atNull, 0, 0, 77, 78], ⟨2, 1, 4, 6, 0x1010⟩) ∧
      exampleStack.argv[1]? = some 0x1010 := by
  have ran : directStack exampleStack.words ⟨1, 0x1005⟩ ⟨0x7040, 9, 0x8000, 0x7100, 0x1010⟩ =
      ([2, 0x1005, 0x1020, 0, 0x2000, 0, atPagesz, 4096, atPhdr, 0x7040, atExecfn, 0x1010,
        atNull, 0, 0, 77, 78], ⟨2, 1, 4, 6, 0x1010⟩) := by decide
  obtain ⟨_, _, _, _, _, _, _, _, _, execPath, _⟩ :=
    direct_stack_intact exampleStack ⟨1, 0x1005⟩ ⟨0x7040, 9, 0x8000, 0x7100, 0x1010⟩ (by decide)
      _ _ ran
  exact ⟨ran, execPath⟩

end DynLinker.Startup
