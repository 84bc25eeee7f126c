import DynLinker.Lib.Words
import DynLinker.Startup.SearchPaths

/-! `RTLD_DI_SERINFO` (`symbols/serinfo.rs`): the search directories, written into a buffer
of the caller as a header, a table of pointers and the strings that they point to. -/

set_option autoImplicit false

namespace DynLinker.Api

open Lib Startup

/-- A string literal with its NUL. -/
def terminated (text : String) : Bytes := ascii text ++ [0]

def platformLibraryPaths : Arch → List Bytes
  | .x86_64 => [terminated "/lib/x86_64-linux-gnu", terminated "/usr/lib/x86_64-linux-gnu"]
  | .aarch64 => [terminated "/lib/aarch64-linux-gnu", terminated "/usr/lib/aarch64-linux-gnu"]
  | .riscv64 => [terminated "/lib/riscv64-linux-gnu", terminated "/usr/lib/riscv64-linux-gnu"]
  | .other => []

def defaultLibraryPaths (arch : Arch) : List Bytes :=
  platformLibraryPaths arch ++
    [terminated "/lib", terminated "/usr/lib", terminated "/lib64", terminated "/usr/lib64"]

/-- `size_of::<DlSerinfo>()`: a `usize`, a `c_uint` and four bytes of padding. -/
def serinfoSize : Nat := 16
/-- `size_of::<DlSerpath>()`: a pointer, a `c_uint` and four bytes of padding. -/
def serpathSize : Nat := 16

def stringsSize (paths : List Bytes) : Nat := (paths.map List.length).sum

def serinfoTotal (paths : List Bytes) : Nat :=
  serinfoSize + paths.length * serpathSize + stringsSize paths

/-- A `DlSerpath` at an address; what its padding becomes is not specified. -/
def writeSerpath (memory : ByteMemory) (entry name : Nat) (padding : UInt8) : ByteMemory :=
  ((memory.writeWord 8 entry name).writeWord 4 (entry + 8) 0).write (entry + 12)
    (List.replicate 4 padding)

/-- The loop over the paths, from this index and this place for strings on. -/
def writePaths (padding : Nat → UInt8) (serpath : Nat) (memory : ByteMemory) (index name : Nat) :
    List Bytes → ByteMemory
  | [] => memory
  | path :: rest =>
      let copied := memory.write name path
      let listed := writeSerpath copied (serpath + index * serpathSize) name (padding index)
      writePaths padding serpath listed (index + 1) (name + path.length) rest

/-- `_dl_rtld_di_serinfo`. -/
def dlRtldDiSerinfo (arch : Arch) (padding : Nat → UInt8) (memory : ByteMemory) (serinfo : Nat)
    (counting : Bool) : ByteMemory :=
  if serinfo = 0 then memory
  else
    let paths := defaultLibraryPaths arch
    let sized := (memory.writeWord 8 serinfo (serinfoTotal paths)).writeWord 4 (serinfo + 8)
      paths.length
    if counting then sized
    else
      let serpath := serinfo + serinfoSize
      writePaths padding serpath sized 0 (serpath + paths.length * serpathSize) paths

/-! ## What the caller reads -/

def dlsSize (memory : ByteMemory) (serinfo : Nat) : Nat := memory.word 8 serinfo

def dlsCnt (memory : ByteMemory) (serinfo : Nat) : Nat := memory.word 4 (serinfo + 8)

def dlsName (memory : ByteMemory) (serinfo index : Nat) : Nat :=
  memory.word 8 (serinfo + serinfoSize + index * serpathSize)

def dlsFlags (memory : ByteMemory) (serinfo index : Nat) : Nat :=
  memory.word 4 (serinfo + serinfoSize + index * serpathSize + 8)

/-- The C string at an address, read no further than the end of the buffer. -/
def dlsString (memory : ByteMemory) (serinfo index : Nat) : Bytes :=
  let name := dlsName memory serinfo index
  untilNul (memory.slice name (serinfo + dlsSize memory serinfo - name))

def dlsPaths (memory : ByteMemory) (serinfo : Nat) : List Bytes :=
  (List.range (dlsCnt memory serinfo)).map (dlsString memory serinfo)

/-- The directories among the entries of a search path. -/
def fixedDirs (entries : List SearchEntry) : List Bytes :=
  entries.filterMap fun
    | .fixedDir path => some path
    | _ => none

/-! ## The loop -/

/-- The entries from an index on name the paths, one string behind the other. -/
def Listed (memory : ByteMemory) (serpath : Nat) : Nat → Nat → List Bytes → Prop
  | _, _, [] => True
  | index, name, path :: rest =>
      memory.word 8 (serpath + index * serpathSize) = name ∧
        memory.word 4 (serpath + index * serpathSize + 8) = 0 ∧
        memory.Holds name path ∧
        Listed memory serpath (index + 1) (name + path.length) rest

/-- So many entries of the table, from an index on. -/
def tableFrom (serpath index count : Nat) : Region :=
  ⟨serpath + index * serpathSize, count * serpathSize⟩

section Loop

variable {memory after : ByteMemory} {serpath index name : Nat} {path : Bytes} {paths : List Bytes}

theorem stringsSize_cons : stringsSize (path :: paths) = path.length + stringsSize paths := by
  rw [stringsSize, List.map_cons, List.sum_cons, stringsSize]

theorem words_of_entry {count : Nat} (positive : 0 < count)
    (table : after.Agree memory (tableFrom serpath index count)) :
    after.word 8 (serpath + index * serpathSize) = memory.word 8 (serpath + index * serpathSize) ∧
      after.word 4 (serpath + index * serpathSize + 8) =
        memory.word 4 (serpath + index * serpathSize + 8) := by
  refine ⟨ByteMemory.word_congr (table.inside ?_), ByteMemory.word_congr (table.inside ?_)⟩
  · simp only [Region.Inside, tableFrom, serpathSize]
    omega
  · simp only [Region.Inside, tableFrom, serpathSize]
    omega

theorem Listed.frame (listed : Listed memory serpath index name paths)
    (table : after.Agree memory (tableFrom serpath index paths.length))
    (strings : after.Agree memory ⟨name, stringsSize paths⟩) :
    Listed after serpath index name paths := by
  induction paths generalizing index name with
  | nil => trivial
  | cons path rest ih =>
      obtain ⟨pointer, flags, held, later⟩ := listed
      rw [stringsSize_cons] at strings
      obtain ⟨samePointer, sameFlags⟩ := words_of_entry (Nat.succ_pos _) table
      refine ⟨samePointer.trans pointer, sameFlags.trans flags, ?_, ih later ?_ ?_⟩
      · apply held.of_agree
        apply strings.inside
        simp only [Region.Inside]
        omega
      · apply table.inside
        simp only [Region.Inside, tableFrom, serpathSize, List.length_cons]
        omega
      · apply strings.inside
        simp only [Region.Inside]
        omega

theorem writeSerpath_within (memory : ByteMemory) (entry name : Nat) (padding : UInt8) :
    memory.Within (writeSerpath memory entry name padding) [⟨entry, serpathSize⟩] := by
  have named : memory.Within (memory.writeWord 8 entry name) [⟨entry, serpathSize⟩] := by
    apply ByteMemory.Within.writeWord List.mem_cons_self
    simp only [Region.Inside, serpathSize]
    omega
  have flagged : (memory.writeWord 8 entry name).Within
      ((memory.writeWord 8 entry name).writeWord 4 (entry + 8) 0) [⟨entry, serpathSize⟩] := by
    apply ByteMemory.Within.writeWord List.mem_cons_self
    simp only [Region.Inside, serpathSize]
    omega
  refine (named.trans flagged).trans ?_
  apply ByteMemory.Within.write List.mem_cons_self
  simp only [Region.Inside, serpathSize, List.length_replicate]
  omega

theorem writeSerpath_words (memory : ByteMemory) (entry : Nat) (padding : UInt8)
    (fits : name < 2 ^ 64) :
    (writeSerpath memory entry name padding).word 8 entry = name ∧
      (writeSerpath memory entry name padding).word 4 (entry + 8) = 0 := by
  have pad {size query : Nat} (below : query + size ≤ entry + 12) :
      (writeSerpath memory entry name padding).word size query =
        ((memory.writeWord 8 entry name).writeWord 4 (entry + 8) 0).word size query := by
    apply ByteMemory.word_congr
    apply ByteMemory.write_apart
    simp only [Region.Apart]
    omega
  refine ⟨?_, ?_⟩
  · rw [pad (by omega), ByteMemory.word_writeWord_apart (.inl (Nat.le_refl _)),
      ByteMemory.word_writeWord fits]
  · rw [pad (by omega), ByteMemory.word_writeWord (by decide)]

theorem writeEntry_spec (memory : ByteMemory) (entry name : Nat) (path : Bytes) (padding : UInt8)
    (behind : entry + serpathSize ≤ name) (fits : name < 2 ^ 64) :
    memory.Within (writeSerpath (memory.write name path) entry name padding)
        [⟨entry, serpathSize⟩, ⟨name, path.length⟩] ∧
      (writeSerpath (memory.write name path) entry name padding).word 8 entry = name ∧
      (writeSerpath (memory.write name path) entry name padding).word 4 (entry + 8) = 0 ∧
      (writeSerpath (memory.write name path) entry name padding).Holds name path := by
  have copying : memory.Within (memory.write name path) [⟨name, path.length⟩] :=
    .write List.mem_cons_self ⟨Nat.le_refl _, Nat.le_refl _⟩
  have listing := writeSerpath_within (memory.write name path) entry name padding
  obtain ⟨pointer, flags⟩ := writeSerpath_words (memory.write name path) entry padding fits
  refine ⟨?_, pointer, flags, ?_⟩
  · have copied := copying.mono fun _ strings => List.mem_cons_of_mem ⟨entry, serpathSize⟩ strings
    refine copied.trans (listing.mono fun _ table => ?_)
    rw [List.mem_singleton.mp table]
    exact List.mem_cons_self
  · apply (ByteMemory.holds_write memory name path).of_agree
    apply listing.agree
    intro table listed
    rw [List.mem_singleton.mp listed]
    exact .inr behind

/-- The loop writes the rest of the table and the rest of the strings, and nothing else. -/
theorem writePaths_spec (padding : Nat → UInt8) (serpath : Nat) (memory : ByteMemory)
    (index name : Nat)
    (behind : serpath + (index + paths.length) * serpathSize ≤ name)
    (bounded : name + stringsSize paths ≤ 2 ^ 64) (filled : ∀ path ∈ paths, path ≠ []) :
    memory.Within (writePaths padding serpath memory index name paths)
        [tableFrom serpath index paths.length, ⟨name, stringsSize paths⟩] ∧
      Listed (writePaths padding serpath memory index name paths) serpath index name paths := by
  induction paths generalizing memory index name with
  | nil => exact ⟨.refl _ _, trivial⟩
  | cons path rest ih =>
      have present := List.length_pos_of_ne_nil (filled path List.mem_cons_self)
      rw [stringsSize_cons] at bounded ⊢
      simp only [serpathSize, List.length_cons] at behind
      have entryBehind : serpath + index * serpathSize + serpathSize ≤ name := by
        simp only [serpathSize]
        omega
      have restBehind : serpath + (index + 1 + rest.length) * serpathSize ≤ name + path.length := by
        simp only [serpathSize]
        omega
      have fits : name < 2 ^ 64 := by
        omega
      obtain ⟨within, pointer, flags, held⟩ := writeEntry_spec memory
        (serpath + index * serpathSize) name path (padding index) entryBehind fits
      rw [writePaths]
      generalize writeSerpath (memory.write name path) (serpath + index * serpathSize) name
        (padding index) = turned at within pointer flags held ⊢
      obtain ⟨continuing, later⟩ := ih turned (index + 1) (name + path.length) restBehind
        (by omega) fun other remaining => filled other (List.mem_cons_of_mem _ remaining)
      have entry : Region.Apart (tableFrom serpath index 1)
          (tableFrom serpath (index + 1) rest.length) := by
        simp only [Region.Apart, tableFrom, serpathSize]
        omega
      have table : Region.Apart (tableFrom serpath index 1) ⟨name + path.length, stringsSize rest⟩ := by
        simp only [Region.Apart, tableFrom, serpathSize] at *
        omega
      have string : Region.Apart ⟨name, path.length⟩ (tableFrom serpath (index + 1) rest.length) := by
        simp only [Region.Apart, tableFrom, serpathSize] at *
        omega
      have strings : Region.Apart ⟨name, path.length⟩ ⟨name + path.length, stringsSize rest⟩ :=
        .inl (Nat.le_refl _)
      obtain ⟨samePointer, sameFlags⟩ := words_of_entry Nat.one_pos
        (continuing.agree (List.forall_mem_cons.mpr ⟨entry, List.forall_mem_singleton.mpr table⟩))
      refine ⟨(within.widen ?_).trans (continuing.widen ?_), samePointer.trans pointer,
        sameFlags.trans flags, held.of_agree (continuing.agree
          (List.forall_mem_cons.mpr ⟨string, List.forall_mem_singleton.mpr strings⟩)), later⟩
      · refine List.forall_mem_cons.mpr ⟨⟨_, List.mem_cons_self, ?_⟩,
          List.forall_mem_singleton.mpr ⟨_, List.mem_cons_of_mem _ List.mem_cons_self, ?_⟩⟩
        · simp only [Region.Inside, tableFrom, serpathSize, List.length_cons]
          omega
        · simp only [Region.Inside]
          omega
      · refine List.forall_mem_cons.mpr ⟨⟨_, List.mem_cons_self, ?_⟩,
          List.forall_mem_singleton.mpr ⟨_, List.mem_cons_of_mem _ List.mem_cons_self, ?_⟩⟩
        · simp only [Region.Inside, tableFrom, serpathSize, List.length_cons]
          omega
        · simp only [Region.Inside]
          omega

/-- Every entry points to its own string, behind the strings before it. -/
theorem Listed.entry (listed : Listed memory serpath index name paths) {i : Nat}
    (found : paths[i]? = some path) :
    memory.word 8 (serpath + (index + i) * serpathSize) = name + stringsSize (paths.take i) ∧
      memory.word 4 (serpath + (index + i) * serpathSize + 8) = 0 ∧
      memory.Holds (name + stringsSize (paths.take i)) path := by
  induction paths generalizing index name i with
  | nil => cases found
  | cons first rest ih =>
      obtain ⟨pointer, flags, held, later⟩ := listed
      cases i with
      | zero =>
          cases found
          exact ⟨pointer, flags, held⟩
      | succ i =>
          rw [List.take_succ_cons, stringsSize_cons, ← Nat.add_assoc, ← Nat.add_assoc,
            Nat.add_right_comm]
          exact ih later found

theorem stringsSize_take {i : Nat} (found : paths[i]? = some path) :
    stringsSize (paths.take i) + path.length ≤ stringsSize paths := by
  induction paths generalizing i with
  | nil => cases found
  | cons first rest ih =>
      rw [stringsSize_cons]
      cases i with
      | zero =>
          cases found
          rw [List.take_zero, stringsSize, List.map_nil, List.sum_nil]
          omega
      | succ i =>
          have later := ih found
          rw [List.take_succ_cons, stringsSize_cons]
          omega

end Loop

/-! ## Strings -/

theorem untilNul_slice {memory : ByteMemory} {address length : Nat} {text : Bytes}
    (held : memory.Holds address (text ++ [0])) (noNul : 0 ∉ text) (room : text.length < length) :
    untilNul (memory.slice address length) = text := by
  induction text generalizing address length with
  | nil =>
      obtain ⟨more, rfl⟩ := Nat.exists_eq_add_of_lt room
      have stop := (ByteMemory.holds_cons.mp held).1
      rw [ByteMemory.slice_succ, stop]
      rfl
  | cons byte rest ih =>
      obtain ⟨more, rfl⟩ := Nat.exists_eq_add_of_lt room
      obtain ⟨here, later⟩ := ByteMemory.holds_cons.mp held
      rw [List.mem_cons, not_or] at noNul
      have next : untilNul (memory.slice (address + 1) ((byte :: rest).length + more)) = rest :=
        ih later noNul.2 (Nat.lt_of_lt_of_le (Nat.lt_succ_self _) (Nat.le_add_right _ _))
      have kept : byte ≠ 0 := Ne.symm noNul.1
      rw [untilNul] at next
      rw [ByteMemory.slice_succ, here, untilNul, List.takeWhile_cons_of_pos (by simpa using kept),
        next]

/-- The strings are the fixed directories that every search ends with. -/
theorem defaultLibraryPaths_eq (arch : Arch) :
    defaultLibraryPaths arch = (fixedDirs (searchPaths arch [])).map (· ++ [0]) := by
  cases arch <;> rfl

theorem fixedDirs_noNul (arch : Arch) : ∀ dir ∈ fixedDirs (searchPaths arch []), 0 ∉ dir := by
  cases arch <;> decide +kernel

theorem fixedDirs_searchPaths (arch : Arch) (environment : List Bytes) :
    fixedDirs (searchPaths arch environment) =
      libraryPathDirs environment ++ fixedDirs (searchPaths arch []) := by
  have dirs (paths : List Bytes) : fixedDirs (paths.map .fixedDir) = paths := by
    induction paths with
    | nil => rfl
    | cons path rest ih => exact congrArg (path :: ·) ih
  have none : libraryPathDirs [] = [] := rfl
  simp only [fixedDirs] at dirs
  simp [fixedDirs, searchPaths, List.filterMap_append, dirs, none]

/-! ## The two calls -/

theorem filled_paths (arch : Arch) : ∀ path ∈ defaultLibraryPaths arch, path ≠ [] := by
  rw [defaultLibraryPaths_eq]
  intro path listed
  obtain ⟨dir, _, rfl⟩ := List.mem_map.mp listed
  exact List.append_ne_nil_of_right_ne_nil _ (List.cons_ne_nil _ _)

theorem sizes_small (arch : Arch) :
    serinfoTotal (defaultLibraryPaths arch) < 2 ^ 64 ∧
      (defaultLibraryPaths arch).length < 2 ^ 32 := by
  cases arch <;> decide +kernel

section Calls

variable (arch : Arch) (padding : Nat → UInt8) (memory : ByteMemory) (serinfo : Nat)

/-- The two words in front. -/
def sized (paths : List Bytes) (memory : ByteMemory) (serinfo : Nat) : ByteMemory :=
  (memory.writeWord 8 serinfo (serinfoTotal paths)).writeWord 4 (serinfo + 8) paths.length

theorem sized_within (paths : List Bytes) :
    memory.Within (sized paths memory serinfo) [⟨serinfo, 12⟩] := by
  have first : memory.Within (memory.writeWord 8 serinfo (serinfoTotal paths)) [⟨serinfo, 12⟩] := by
    apply ByteMemory.Within.writeWord List.mem_cons_self
    simp only [Region.Inside]
    omega
  apply first.trans
  apply ByteMemory.Within.writeWord List.mem_cons_self
  simp only [Region.Inside]
  omega

theorem sized_words :
    dlsSize (sized (defaultLibraryPaths arch) memory serinfo) serinfo =
        serinfoTotal (defaultLibraryPaths arch) ∧
      dlsCnt (sized (defaultLibraryPaths arch) memory serinfo) serinfo =
        (defaultLibraryPaths arch).length := by
  obtain ⟨size, count⟩ := sizes_small arch
  rw [dlsSize, dlsCnt, sized]
  refine ⟨?_, ByteMemory.word_writeWord count⟩
  rw [ByteMemory.word_writeWord_apart (.inl (Nat.le_refl _)), ByteMemory.word_writeWord size]

theorem counting_spec (placed : serinfo ≠ 0) :
    memory.Within (dlRtldDiSerinfo arch padding memory serinfo true) [⟨serinfo, 12⟩] ∧
      dlsSize (dlRtldDiSerinfo arch padding memory serinfo true) serinfo =
        serinfoTotal (defaultLibraryPaths arch) ∧
      dlsCnt (dlRtldDiSerinfo arch padding memory serinfo true) serinfo =
        (defaultLibraryPaths arch).length := by
  rw [dlRtldDiSerinfo, if_neg placed]
  exact ⟨sized_within memory serinfo _, sized_words arch memory serinfo⟩

theorem filling_spec (placed : serinfo ≠ 0)
    (room : serinfo + serinfoTotal (defaultLibraryPaths arch) ≤ 2 ^ 64) :
    memory.Within (dlRtldDiSerinfo arch padding memory serinfo false)
        [⟨serinfo, serinfoTotal (defaultLibraryPaths arch)⟩] ∧
      dlsSize (dlRtldDiSerinfo arch padding memory serinfo false) serinfo =
        serinfoTotal (defaultLibraryPaths arch) ∧
      dlsCnt (dlRtldDiSerinfo arch padding memory serinfo false) serinfo =
        (defaultLibraryPaths arch).length ∧
      Listed (dlRtldDiSerinfo arch padding memory serinfo false) (serinfo + serinfoSize) 0
        (serinfo + serinfoSize + (defaultLibraryPaths arch).length * serpathSize)
        (defaultLibraryPaths arch) := by
  have filled : dlRtldDiSerinfo arch padding memory serinfo false =
      writePaths padding (serinfo + serinfoSize) (sized (defaultLibraryPaths arch) memory serinfo) 0
        (serinfo + serinfoSize + (defaultLibraryPaths arch).length * serpathSize)
        (defaultLibraryPaths arch) := by
    rw [dlRtldDiSerinfo, if_neg placed]
    rfl
  obtain ⟨size, count⟩ := sized_words arch memory serinfo
  have front := sized_within memory serinfo (defaultLibraryPaths arch)
  have filledIn := filled_paths arch
  rw [filled]
  generalize defaultLibraryPaths arch = paths at *
  rw [serinfoTotal] at room
  obtain ⟨within, listed⟩ := writePaths_spec padding (serinfo + serinfoSize)
    (sized paths memory serinfo) 0 (serinfo + serinfoSize + paths.length * serpathSize)
    (by rw [Nat.zero_add]) (by omega) filledIn
  generalize writePaths padding (serinfo + serinfoSize) (sized paths memory serinfo) 0
    (serinfo + serinfoSize + paths.length * serpathSize) paths = full at *
  have kept : full.Agree (sized paths memory serinfo) ⟨serinfo, 12⟩ := by
    apply within.agree
    refine List.forall_mem_cons.mpr ⟨.inl ?_, List.forall_mem_singleton.mpr (.inl ?_)⟩
    · simp only [tableFrom, serinfoSize, serpathSize]
      omega
    · simp only [serinfoSize]
      omega
  refine ⟨(front.widen ?_).trans (within.widen ?_), ?_, ?_, listed⟩
  · refine List.forall_mem_singleton.mpr ⟨_, List.mem_cons_self, Nat.le_refl _, ?_⟩
    simp only [serinfoTotal, serinfoSize]
    omega
  · refine List.forall_mem_cons.mpr ⟨⟨_, List.mem_cons_self, ?_⟩,
      List.forall_mem_singleton.mpr ⟨_, List.mem_cons_self, ?_⟩⟩
    · simp only [Region.Inside, tableFrom, serinfoTotal, serinfoSize, serpathSize]
      omega
    · simp only [Region.Inside, serinfoTotal, serinfoSize, serpathSize]
      omega
  · rw [← size]
    exact ByteMemory.word_congr (kept.inside ⟨Nat.le_refl _, by simp only; omega⟩)
  · rw [← count]
    exact ByteMemory.word_congr (kept.inside ⟨Nat.le_add_right _ _, Nat.le_refl _⟩)

/-- What a caller finds behind an entry. -/
theorem entry_spec {full : ByteMemory} {buffer i : Nat} {dir : Bytes}
    (size : dlsSize full buffer = serinfoTotal (defaultLibraryPaths arch))
    (listed : Listed full (buffer + serinfoSize) 0
      (buffer + serinfoSize + (defaultLibraryPaths arch).length * serpathSize)
      (defaultLibraryPaths arch))
    (found : (fixedDirs (searchPaths arch []))[i]? = some dir) :
    dlsFlags full buffer i = 0 ∧ dlsString full buffer i = dir ∧
      Region.Inside ⟨dlsName full buffer i, dir.length + 1⟩
        ⟨buffer, serinfoTotal (defaultLibraryPaths arch)⟩ := by
  have noNul := fixedDirs_noNul arch dir (List.mem_of_getElem? found)
  have path : (defaultLibraryPaths arch)[i]? = some (dir ++ [0]) := by
    rw [defaultLibraryPaths_eq, List.getElem?_map, found]
    rfl
  obtain ⟨pointer, flags, held⟩ := listed.entry path
  have inside := stringsSize_take path
  rw [List.length_append, List.length_singleton] at inside
  rw [Nat.zero_add] at pointer flags
  have name : dlsName full buffer i = _ := pointer
  refine ⟨flags, ?_, ?_⟩
  · rw [dlsString, name, size]
    refine untilNul_slice held noNul ?_
    rw [serinfoTotal]
    omega
  · rw [name, serinfoTotal]
    simp only [Region.Inside]
    omega

end Calls

/-- A buffer of the size that a counting call told, anywhere and in any memory: the second
call stays within it, tells the same numbers, and leaves pointers into it to the directories
that the loader searches besides those of `LD_LIBRARY_PATH`, in the order of the search. -/
theorem serinfo_reports_search_path (arch : Arch) (padding : Nat → UInt8)
    (before memory : ByteMemory) (probe buffer : Nat) (environment : List Bytes)
    (probed : probe ≠ 0) (placed : buffer ≠ 0)
    (room : buffer + dlsSize (dlRtldDiSerinfo arch padding before probe true) probe ≤ 2 ^ 64) :
    before.Within (dlRtldDiSerinfo arch padding before probe true) [⟨probe, 12⟩] ∧
      memory.Within (dlRtldDiSerinfo arch padding memory buffer false)
        [⟨buffer, dlsSize (dlRtldDiSerinfo arch padding before probe true) probe⟩] ∧
      dlsSize (dlRtldDiSerinfo arch padding memory buffer false) buffer =
        dlsSize (dlRtldDiSerinfo arch padding before probe true) probe ∧
      dlsCnt (dlRtldDiSerinfo arch padding memory buffer false) buffer =
        dlsCnt (dlRtldDiSerinfo arch padding before probe true) probe ∧
      (∀ i, i < dlsCnt (dlRtldDiSerinfo arch padding memory buffer false) buffer →
        dlsFlags (dlRtldDiSerinfo arch padding memory buffer false) buffer i = 0 ∧
        Region.Inside ⟨dlsName (dlRtldDiSerinfo arch padding memory buffer false) buffer i,
            (dlsString (dlRtldDiSerinfo arch padding memory buffer false) buffer i).length + 1⟩
          ⟨buffer, dlsSize (dlRtldDiSerinfo arch padding memory buffer false) buffer⟩) ∧
      fixedDirs (searchPaths arch environment) = libraryPathDirs environment ++
        dlsPaths (dlRtldDiSerinfo arch padding memory buffer false) buffer := by
  obtain ⟨counted, size, count⟩ := counting_spec arch padding before probe probed
  rw [size] at room ⊢
  rw [count]
  obtain ⟨within, fullSize, fullCount, listed⟩ :=
    filling_spec arch padding memory buffer placed room
  generalize dlRtldDiSerinfo arch padding memory buffer false = full at *
  have lengths : (defaultLibraryPaths arch).length = (fixedDirs (searchPaths arch [])).length := by
    rw [defaultLibraryPaths_eq, List.length_map]
  refine ⟨counted, within, fullSize, fullCount, ?_, ?_⟩
  · intro i below
    rw [fullCount, lengths] at below
    obtain ⟨flags, string, inside⟩ :=
      entry_spec arch fullSize listed (List.getElem?_eq_getElem below)
    rw [string, fullSize]
    exact ⟨flags, inside⟩
  · rw [fixedDirs_searchPaths, dlsPaths, fullCount, lengths]
    generalize found : fixedDirs (searchPaths arch []) = dirs at *
    refine congrArg (libraryPathDirs environment ++ ·) (List.ext_getElem ?_ ?_)
    · rw [List.length_map, List.length_range]
    · intro i below _
      subst found
      obtain ⟨_, string, _⟩ := entry_spec arch fullSize listed (List.getElem?_eq_getElem below)
      rw [List.getElem_map, List.getElem_range, string]

theorem serinfo_reports_search_path_shown :
    fixedDirs (searchPaths .x86_64 [ascii "LD_LIBRARY_PATH=/opt"]) = ascii "/opt" ::
      dlsPaths (dlRtldDiSerinfo .x86_64 (fun _ => 0xaa) (fun _ => 0xff) 0x2000 false) 0x2000 := by
  have room : 0x2000 + dlsSize (dlRtldDiSerinfo .x86_64 (fun _ => 0xaa) (fun _ => 0) 0x100 true)
      0x100 ≤ 2 ^ 64 := by
    decide +kernel
  have reported := (serinfo_reports_search_path .x86_64 (fun _ => 0xaa) (fun _ => 0) (fun _ => 0xff)
    0x100 0x2000 [ascii "LD_LIBRARY_PATH=/opt"] (by decide) (by decide) room).2.2.2.2.2
  have dirs : libraryPathDirs [ascii "LD_LIBRARY_PATH=/opt"] = [ascii "/opt"] := by
    decide +kernel
  rw [reported, dirs]
  rfl

end DynLinker.Api
