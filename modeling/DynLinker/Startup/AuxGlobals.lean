import DynLinker.Lib.Words
import DynLinker.Startup.DirectExecution
import DynLinker.Startup.SearchPaths

/-! What libc finds in `_rtld_global_ro` about the process (`publish_bootstrap_state` in
`bootstrap/publish.rs`, `publish_aux` in `glibc/v2_39/mod.rs`). The fields are copies: they
are taken from the auxiliary vector before a direct invocation moves and patches it. -/

set_option autoImplicit false

namespace DynLinker.Startup

open Lib

def execPagesize : Nat := 4096
def fpuDefault : Nat := 0x037f
def x86CpuFeaturesSize : Nat := 528

/-- `RTLD_GLOBAL_RO_X86_FEATURES_OFFSET`. -/
def x86FeaturesOffset : Nat := 112

structure RtldGlobalRoAux where
  auxv : Nat
  platform : Nat
  pagesize : Nat
  minsigstacksize : Nat
  clktck : Nat
  fpucw : Nat
  hwcap : Nat
  hwcap2 : Nat
  hwcap3 : Nat
  hwcap4 : Nat
  sysinfoEhdr : Nat

/-- The fields of `_rtld_global_ro` that describe the process. The feature array is a
memory that starts at address zero. -/
structure RtldGlobalRo where
  dlPlatform : Nat
  dlPlatformlen : Nat
  dlPagesize : Nat
  dlMinsigstacksize : Nat
  dlClktck : Nat
  dlFpuControl : Nat
  dlHwcap : Nat
  dlAuxv : Nat
  dlX86CpuFeatures : ByteMemory
  dlSysinfoDso : Nat
  dlHwcap2 : Nat
  dlHwcap3 : Nat
  dlHwcap4 : Nat

namespace RtldGlobalRo

def new : RtldGlobalRo where
  dlPlatform := 0
  dlPlatformlen := 0
  dlPagesize := execPagesize
  dlMinsigstacksize := 0
  dlClktck := 0
  dlFpuControl := fpuDefault
  dlHwcap := 0
  dlAuxv := 0
  dlX86CpuFeatures := fun _ => 0
  dlSysinfoDso := 0
  dlHwcap2 := 0
  dlHwcap3 := 0
  dlHwcap4 := 0

/-- `write_x86_cpu_usize`. -/
def writeX86CpuUsize (features : ByteMemory) (offset value : Nat) : ByteMemory :=
  if x86CpuFeaturesSize < offset + 8 then features else features.writeWord 8 offset value

/-- The thresholds, with their offsets in the feature array. -/
def x86CpuDefaults : List (Nat × Nat) := [
  (0x1e0 - x86FeaturesOffset, 32 * 1024),
  (0x1e8 - x86FeaturesOffset, 1024 * 1024),
  (0x1f0 - x86FeaturesOffset, 1024 * 1024),
  (0x1f8 - x86FeaturesOffset, 1024 * 1024),
  (0x200 - x86FeaturesOffset, 1024 * 1024),
  (0x208 - x86FeaturesOffset, 1024 * 1024)]

def publishX86CpuDefaults (features : ByteMemory) : ByteMemory :=
  x86CpuDefaults.foldl (fun features entry => writeX86CpuUsize features entry.1 entry.2) features

/-- `c_strlen`. -/
def cStrlen (cstr : Nat → Bytes) (ptr : Nat) : Nat := if ptr = 0 then 0 else (cstr ptr).length

def publishAux (ro : RtldGlobalRo) (cstr : Nat → Bytes) (aux : RtldGlobalRoAux) : RtldGlobalRo :=
  { ro with
    dlPlatform := aux.platform
    dlPlatformlen := cStrlen cstr aux.platform
    dlPagesize := if aux.pagesize = 0 then execPagesize else aux.pagesize
    dlMinsigstacksize := aux.minsigstacksize
    dlClktck := aux.clktck % 2 ^ 32
    dlFpuControl := if aux.fpucw = 0 then fpuDefault else aux.fpucw % 2 ^ 16
    dlHwcap := aux.hwcap
    dlAuxv := aux.auxv
    dlSysinfoDso := aux.sysinfoEhdr
    dlHwcap2 := aux.hwcap2
    dlHwcap3 := aux.hwcap3
    dlHwcap4 := aux.hwcap4
    dlX86CpuFeatures := publishX86CpuDefaults ro.dlX86CpuFeatures }

end RtldGlobalRo

/-- The part of `publish_bootstrap_state` that fills `_rtld_global_ro`. -/
def publishBootstrapState (cstr : Nat → Bytes) (process : ProcessStack) (aux : AuxValues) :
    RtldGlobalRo :=
  RtldGlobalRo.new.publishAux cstr {
    auxv := process.auxv
    platform := aux.platform
    pagesize := aux.pagesize
    minsigstacksize := aux.minsigstacksize
    clktck := aux.clktck
    fpucw := aux.fpucw
    hwcap := aux.hwcap
    hwcap2 := aux.hwcap2
    hwcap3 := aux.hwcap3
    hwcap4 := aux.hwcap4
    sysinfoEhdr := aux.sysinfoEhdr
  }

/-- How a program starts: mapped by the kernel, or selected on the command line of the
loader, which patches the vector when the program is mapped. -/
abbrev ProgramStart : Type := Option (DirectProgram × AuxPatch)

/-- What `run` publishes in `_rtld_global_ro`. -/
def runGlobalRo (memory : ProcessMemory) (start : ProgramStart) : RtldGlobalRo :=
  let initial := InitialStack.parse memory.words
  match start with
  | none => publishBootstrapState memory.cstr initial.process initial.aux
  | some (program, _) =>
      publishBootstrapState memory.cstr (initial.rewriteForProgram program).2 initial.aux

/-- The stack that the program is entered with. -/
def finalWords (memory : ProcessMemory) (start : ProgramStart) : List Nat :=
  match start with
  | none => memory.words
  | some (program, patch) => (directStack memory.words program patch).1

/-! ## What libc reads -/

/-- `getauxval`, which searches the vector from its start. -/
def getauxval (auxv : List (Nat × Nat)) (kind : Nat) : Nat :=
  ((auxv.find? fun pair => pair.1 = kind).map Prod.snd).getD 0

/-- A published copy: the kind, the field, and what is published for a value. -/
structure AuxField where
  kind : Nat
  field : RtldGlobalRo → Nat
  convert : Nat → Nat

def auxFields : List AuxField := [
  ⟨atPlatform, RtldGlobalRo.dlPlatform, id⟩,
  ⟨atPagesz, RtldGlobalRo.dlPagesize, fun value => if value = 0 then execPagesize else value⟩,
  ⟨atMinsigstksz, RtldGlobalRo.dlMinsigstacksize, id⟩,
  ⟨atClktck, RtldGlobalRo.dlClktck, fun value => value % 2 ^ 32⟩,
  ⟨atFpucw, RtldGlobalRo.dlFpuControl,
    fun value => if value = 0 then fpuDefault else value % 2 ^ 16⟩,
  ⟨atHwcap, RtldGlobalRo.dlHwcap, id⟩,
  ⟨atHwcap2, RtldGlobalRo.dlHwcap2, id⟩,
  ⟨atHwcap3, RtldGlobalRo.dlHwcap3, id⟩,
  ⟨atHwcap4, RtldGlobalRo.dlHwcap4, id⟩,
  ⟨atSysinfoEhdr, RtldGlobalRo.dlSysinfoDso, id⟩]

/-- The fields of `AuxValues` that are published, with their kinds. -/
def publishedValues : List (Nat × (AuxValues → Nat)) := [
  (atPlatform, AuxValues.platform), (atPagesz, AuxValues.pagesize),
  (atMinsigstksz, AuxValues.minsigstacksize), (atClktck, AuxValues.clktck),
  (atFpucw, AuxValues.fpucw), (atHwcap, AuxValues.hwcap), (atHwcap2, AuxValues.hwcap2),
  (atHwcap3, AuxValues.hwcap3), (atHwcap4, AuxValues.hwcap4),
  (atSysinfoEhdr, AuxValues.sysinfoEhdr), (atSecure, AuxValues.secure)]

theorem record_published {entry : Nat × (AuxValues → Nat)} (listed : entry ∈ publishedValues)
    (aux : AuxValues) (kind value : Nat) :
    entry.2 (aux.record kind value) = if kind = entry.1 then value else entry.2 aux := by
  simp only [publishedValues, List.mem_cons, List.not_mem_nil, or_false] at listed
  by_cases same : kind = entry.1
  · rw [if_pos same, same]
    rcases listed with rfl | rfl | rfl | rfl | rfl | rfl | rfl | rfl | rfl | rfl | rfl <;> rfl
  · rw [if_neg same]
    rcases listed with rfl | rfl | rfl | rfl | rfl | rfl | rfl | rfl | rfl | rfl | rfl
    · simp only [AuxValues.record, if_neg same, apply_ite AuxValues.platform, ite_self]
    · simp only [AuxValues.record, if_neg same, apply_ite AuxValues.pagesize, ite_self]
    · simp only [AuxValues.record, if_neg same, apply_ite AuxValues.minsigstacksize, ite_self]
    · simp only [AuxValues.record, if_neg same, apply_ite AuxValues.clktck, ite_self]
    · simp only [AuxValues.record, if_neg same, apply_ite AuxValues.fpucw, ite_self]
    · simp only [AuxValues.record, if_neg same, apply_ite AuxValues.hwcap, ite_self]
    · simp only [AuxValues.record, if_neg same, apply_ite AuxValues.hwcap2, ite_self]
    · simp only [AuxValues.record, if_neg same, apply_ite AuxValues.hwcap3, ite_self]
    · simp only [AuxValues.record, if_neg same, apply_ite AuxValues.hwcap4, ite_self]
    · simp only [AuxValues.record, if_neg same, apply_ite AuxValues.sysinfoEhdr, ite_self]
    · simp only [AuxValues.record, if_neg same, apply_ite AuxValues.secure, ite_self]

theorem auxFields_published {row : AuxField} (listed : row ∈ auxFields) :
    ∃ value, (row.kind, value) ∈ publishedValues ∧ ∀ cstr process aux,
      row.field (publishBootstrapState cstr process aux) = row.convert (value aux) := by
  simp only [auxFields, List.mem_cons, List.not_mem_nil, or_false] at listed
  rcases listed with rfl | rfl | rfl | rfl | rfl | rfl | rfl | rfl | rfl | rfl
  · exact ⟨AuxValues.platform, by simp [publishedValues], fun _ _ _ => rfl⟩
  · exact ⟨AuxValues.pagesize, by simp [publishedValues], fun _ _ _ => rfl⟩
  · exact ⟨AuxValues.minsigstacksize, by simp [publishedValues], fun _ _ _ => rfl⟩
  · exact ⟨AuxValues.clktck, by simp [publishedValues], fun _ _ _ => rfl⟩
  · exact ⟨AuxValues.fpucw, by simp [publishedValues], fun _ _ _ => rfl⟩
  · exact ⟨AuxValues.hwcap, by simp [publishedValues], fun _ _ _ => rfl⟩
  · exact ⟨AuxValues.hwcap2, by simp [publishedValues], fun _ _ _ => rfl⟩
  · exact ⟨AuxValues.hwcap3, by simp [publishedValues], fun _ _ _ => rfl⟩
  · exact ⟨AuxValues.hwcap4, by simp [publishedValues], fun _ _ _ => rfl⟩
  · exact ⟨AuxValues.sysinfoEhdr, by simp [publishedValues], fun _ _ _ => rfl⟩

/-- The kinds whose value `patch_auxv` may change. -/
def patchedKinds : List Nat := [atPhdr, atPhent, atPhnum, atBase, atEntry, atExecfn]

theorem AuxPatch.value_other (patch : AuxPatch) {kind : Nat} (other : kind ∉ patchedKinds)
    (value : Nat) : patch.value kind value = value := by
  simp only [patchedKinds, List.mem_cons, List.not_mem_nil, or_false, not_or] at other
  simp [AuxPatch.value, other]

theorem publishedValues_kept {entry : Nat × (AuxValues → Nat)} (listed : entry ∈ publishedValues) :
    entry.1 ∉ patchedKinds ∧ entry.2 .empty = 0 := by
  simp only [publishedValues, List.mem_cons, List.not_mem_nil, or_false] at listed
  rcases listed with rfl | rfl | rfl | rfl | rfl | rfl | rfl | rfl | rfl | rfl | rfl <;>
    exact ⟨by decide, rfl⟩

section Vector

variable {auxv : List (Nat × Nat)} {entry : Nat × (AuxValues → Nat)}

/-- What the loader recorded is what a search finds. -/
theorem auxOf_eq_getauxval (listed : entry ∈ publishedValues)
    (once : (auxv.filter fun pair => pair.1 = entry.1).length ≤ 1) :
    entry.2 (auxOf auxv) = getauxval auxv entry.1 := by
  rw [auxOf, foldl_auxRecord auxv (record_published listed) .empty, ← head?_eq_getLast? once,
    (publishedValues_kept listed).2, List.head?_filter, getauxval]

theorem getauxval_apply (patch : AuxPatch) {kind : Nat} (other : kind ∉ patchedKinds) :
    getauxval (patch.apply auxv) kind = getauxval auxv kind := by
  induction auxv with
  | nil => rfl
  | cons pair rest ih =>
      simp only [getauxval, AuxPatch.apply, List.map_cons, List.find?_cons] at ih ⊢
      by_cases same : pair.1 = kind
      · simp [same, patch.value_other other]
      · simpa [same] using ih

end Vector

section CpuDefaults

variable {entries : List (Nat × Nat)} {features : ByteMemory}

theorem foldl_writeX86CpuUsize_apart {query : Nat}
    (apart : ∀ entry ∈ entries, Region.Apart ⟨query, 8⟩ ⟨entry.1, 8⟩) :
    (entries.foldl (fun features entry => RtldGlobalRo.writeX86CpuUsize features entry.1 entry.2)
      features).word 8 query = features.word 8 query := by
  induction entries generalizing features with
  | nil => rfl
  | cons first rest ih =>
      rw [List.foldl_cons, ih fun entry listed => apart entry (List.mem_cons_of_mem _ listed),
        RtldGlobalRo.writeX86CpuUsize]
      split
      · rfl
      · exact ByteMemory.word_writeWord_apart (apart first List.mem_cons_self)

/-- Words that lie in the array and do not overlap all read back. -/
theorem foldl_writeX86CpuUsize_word
    (fits : ∀ entry ∈ entries, entry.1 + 8 ≤ x86CpuFeaturesSize ∧ entry.2 < 256 ^ 8)
    (apart : entries.Pairwise fun left right => Region.Apart ⟨left.1, 8⟩ ⟨right.1, 8⟩) :
    ∀ entry ∈ entries,
      (entries.foldl (fun features entry => RtldGlobalRo.writeX86CpuUsize features entry.1 entry.2)
        features).word 8 entry.1 = entry.2 := by
  induction entries generalizing features with
  | nil => nofun
  | cons first rest ih =>
      obtain ⟨alone, apart⟩ := List.pairwise_cons.mp apart
      intro entry listed
      rw [List.foldl_cons]
      rcases List.mem_cons.mp listed with rfl | later
      · obtain ⟨inside, word⟩ := fits entry List.mem_cons_self
        rw [foldl_writeX86CpuUsize_apart alone, RtldGlobalRo.writeX86CpuUsize,
          if_neg (Nat.not_lt.mpr inside), ByteMemory.word_writeWord word]
      · exact ih (fun other member => fits other (List.mem_cons_of_mem _ member)) apart entry later

theorem publishX86CpuDefaults_word (features : ByteMemory) :
    ∀ entry ∈ RtldGlobalRo.x86CpuDefaults,
      (RtldGlobalRo.publishX86CpuDefaults features).word 8 entry.1 = entry.2 :=
  foldl_writeX86CpuUsize_word (by decide) (by decide)

end CpuDefaults

/-! ## The stack that the program is entered with -/

/-- The arguments that the program sees. -/
def startArgv (argv : List Nat) : ProgramStart → List Nat
  | none => argv
  | some (program, _) => StackImage.programArgv argv program

/-- The vector that the program sees. -/
def startAuxv (auxv : List (Nat × Nat)) : ProgramStart → List (Nat × Nat)
  | none => auxv
  | some (_, patch) => patch.apply auxv

theorem run_published {memory : ProcessMemory} {direct : Option DirectProgram} {fds : Descriptors}
    {globals : Globals} (ran : run memory direct fds = .ok globals) :
    globals.libcEnableSecure = (if (InitialStack.parse memory.words).aux.secure = 0 then 0 else 1) ∧
    (globals.argc, globals.argv, globals.envp) =
      match direct with
      | none =>
          let process := (InitialStack.parse memory.words).process
          (process.argc, process.argv, some process.envp)
      | some program =>
          let process := ((InitialStack.parse memory.words).rewriteForProgram program).2
          (process.argc, process.argv, some process.envp) := by
  unfold run at ran
  cases checked : checkStandardFdsIfSecure (InitialStack.parse memory.words).aux.secure fds with
  | error status =>
      simp only [checked, bind, Except.bind, reduceCtorEq] at ran
  | ok fds =>
      simp only [checked, bind, Except.bind, pure, Except.pure, Except.ok.injEq] at ran
      subst ran
      cases direct with
      | none => exact ⟨rfl, rfl⟩
      | some program => exact ⟨rfl, rfl⟩

/-- Whichever way the program starts, its stack is a well-formed image, and the loader keeps
the pointers into it. -/
theorem finalWords_image (image : StackImage) (cstr : Nat → Bytes) (start : ProgramStart)
    (inside : ∀ chosen ∈ start, chosen.1.argvIndex < image.argv.length) {fds : Descriptors}
    {globals : Globals} (ran : run ⟨image.words, cstr⟩ (start.map Prod.fst) fds = .ok globals) :
    ∃ final : StackImage, finalWords ⟨image.words, cstr⟩ start = final.words ∧
      final.argv = startArgv image.argv start ∧ final.envp = image.envp ∧
      final.auxv = startAuxv image.auxv start ∧
      globals.argc = final.argv.length ∧ globals.argv = 1 ∧
      globals.envp = some (final.argv.length + 2) ∧
      (runGlobalRo ⟨image.words, cstr⟩ start).dlAuxv =
        final.argv.length + 2 + final.envp.length + 1 := by
  have published := (run_published ran).2
  cases start with
  | none =>
      simp only [Option.map_none, image.parse_words, Prod.mk.injEq] at published
      refine ⟨image, rfl, rfl, rfl, rfl, published.1, published.2.1, published.2.2, ?_⟩
      simp only [runGlobalRo, image.parse_words]
      rfl
  | some chosen =>
      obtain ⟨program, patch⟩ := chosen
      obtain ⟨stale, rewritten⟩ :=
        image.rewriteForProgram_words program (inside (program, patch) rfl)
      obtain ⟨execPath, located⟩ := image.rewriteForProgram_process program rewritten
      rw [(image.forProgram program stale).parse_words] at located
      simp only [Option.map_some, located, Prod.mk.injEq] at published
      refine ⟨(image.forProgram program stale).patched patch, ?_, rfl, rfl, rfl, published.1,
        published.2.1, published.2.2, ?_⟩
      · simp only [finalWords, directStack, rewritten, located]
        exact StackImage.patchAuxv_words _ patch
      · simp only [runGlobalRo, located]
        rfl

theorem runGlobalRo_eq (image : StackImage) (cstr : Nat → Bytes) (start : ProgramStart) :
    ∃ process, runGlobalRo ⟨image.words, cstr⟩ start =
      publishBootstrapState cstr process (auxOf image.auxv) := by
  have parsed : (InitialStack.parse image.words).aux = auxOf image.auxv := by
    rw [image.parse_words]
  rw [← parsed]
  cases start with
  | none => exact ⟨_, rfl⟩
  | some chosen => exact ⟨_, rfl⟩

/-- What the loader publishes about the process agrees with the stack that the program is
entered with, mapped by the kernel or selected on the loader's command line: the arguments
and the environment, and every copied field with the value that a search of the vector
finds, although the copies were taken before the vector was moved and patched. -/
theorem published_globals_match_stack (image : StackImage) (cstr : Nat → Bytes)
    (start : ProgramStart) (fds : Descriptors) (globals : Globals)
    (inside : ∀ chosen ∈ start, chosen.1.argvIndex < image.argv.length)
    (ran : run ⟨image.words, cstr⟩ (start.map Prod.fst) fds = .ok globals)
    (once : ∀ entry ∈ publishedValues,
      (image.auxv.filter fun pair => pair.1 = entry.1).length ≤ 1) :
    ∃ words ro vector, finalWords ⟨image.words, cstr⟩ start = words ∧
      runGlobalRo ⟨image.words, cstr⟩ start = ro ∧ auxvPairs (words.drop ro.dlAuxv) = vector ∧
      globals.argc = (startArgv image.argv start).length ∧
      pointersAt words globals.argv = startArgv image.argv start ∧
      globals.envp.map (pointersAt words) = some image.envp ∧
      vector = startAuxv image.auxv start ∧
      (∀ row ∈ auxFields, row.field ro = row.convert (getauxval vector row.kind)) ∧
      ro.dlPlatformlen = RtldGlobalRo.cStrlen cstr (getauxval vector atPlatform) ∧
      globals.libcEnableSecure = (if getauxval vector atSecure = 0 then 0 else 1) ∧
      ∀ entry ∈ RtldGlobalRo.x86CpuDefaults, ro.dlX86CpuFeatures.word 8 entry.1 = entry.2 := by
  obtain ⟨final, entered, argv, envp, auxv, argc, argvAt, envpAt, auxvAt⟩ :=
    finalWords_image image cstr start inside ran
  have found : auxvPairs (final.words.drop (runGlobalRo ⟨image.words, cstr⟩ start).dlAuxv) =
      startAuxv image.auxv start := by
    rw [auxvAt, final.auxvPairs_words, auxv]
  -- A copied value is what a search of the final vector finds.
  have copied {entry : Nat × (AuxValues → Nat)} (listed : entry ∈ publishedValues) :
      entry.2 (auxOf image.auxv) = getauxval (startAuxv image.auxv start) entry.1 := by
    rw [auxOf_eq_getauxval listed (once _ listed)]
    cases start with
    | none => rfl
    | some chosen => exact (getauxval_apply chosen.2 (publishedValues_kept listed).1).symm
  obtain ⟨process, ro⟩ := runGlobalRo_eq image cstr start
  refine ⟨_, _, _, entered, rfl, found, ?_, ?_, ?_, rfl, ?_, ?_, ?_, ?_⟩
  · rw [argc, argv]
  · rw [argvAt, final.pointersAt_argv, argv]
  · rw [envpAt, Option.map_some, final.pointersAt_envp, envp]
  · intro row listed
    obtain ⟨value, published, field⟩ := auxFields_published listed
    rw [ro, field]
    exact congrArg row.convert (copied published)
  · have platform := @copied (atPlatform, AuxValues.platform) (by simp [publishedValues])
    rw [ro, ← platform]
    rfl
  · have secure := @copied (atSecure, AuxValues.secure) (by simp [publishedValues])
    rw [(run_published ran).1, image.parse_words, ← secure]
  · rw [ro]
    exact publishX86CpuDefaults_word _

/-- The program at `argv[1]` of `exampleStack`, whose page size is that of the vector. -/
theorem published_globals_match_stack_direct :
    ∃ words ro, finalWords ⟨exampleStack.words, fun _ => []⟩
        (some (⟨1, 0x1005⟩, ⟨0x7040, 9, 0x8000, 0x7100, 0x1010⟩)) = words ∧
      runGlobalRo ⟨exampleStack.words, fun _ => []⟩
        (some (⟨1, 0x1005⟩, ⟨0x7040, 9, 0x8000, 0x7100, 0x1010⟩)) = ro ∧
      pointersAt words 1 = [0x1005, 0x1020] ∧ ro.dlPagesize = 4096 ∧ ro.dlFpuControl = 0x037f := by
  have ran : run ⟨exampleStack.words, fun _ => []⟩ (some ⟨1, 0x1005⟩)
      ⟨fun _ => true, fun _ => none⟩ = .ok _ := rfl
  obtain ⟨words, ro, vector, entered, published, _, _, argv, _, same, fields, _⟩ :=
    published_globals_match_stack exampleStack (fun _ => [])
      (some (⟨1, 0x1005⟩, ⟨0x7040, 9, 0x8000, 0x7100, 0x1010⟩)) _ _ (by decide) ran (by decide)
  have pagesize := fields ⟨atPagesz, RtldGlobalRo.dlPagesize,
    fun value => if value = 0 then execPagesize else value⟩ (by simp [auxFields])
  have fpucw := fields ⟨atFpucw, RtldGlobalRo.dlFpuControl,
    fun value => if value = 0 then fpuDefault else value % 2 ^ 16⟩ (by simp [auxFields])
  rw [same] at pagesize fpucw
  exact ⟨words, ro, entered, published, argv, pagesize, fpucw⟩

end DynLinker.Startup
