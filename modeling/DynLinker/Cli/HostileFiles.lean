import DynLinker.Cli.InspectProperties

/-! The inspector on files that nobody vouches for: whatever the content, its loops end,
and this is exactly when no sum overflows and no name is printed from beyond the string
table. -/

set_option autoImplicit false

namespace DynLinker.Cli

open Lib

/-- What is expected of `--list` for any content of a file. Where the sums and products
are checked, an overflow is a panic. -/
structure Robust (file : OpenFile) (path : Bytes) : Prop where
  readsEnd : ∀ rounds length offset, length ≤ rounds →
    file.preadLoop rounds length offset = file.preadExact length offset
  printsEnd : ∀ stop cursor, (printLoop file stop (file.content.length + 1) cursor).isSome
  noOverflow : ∀ panic, (list true (some file) path).result ≠ .error panic
  inside : ∀ checks info, inspectFd checks file = .ok info → ∀ position byte,
    .read position byte ∈ (list checks (some file) path).stdout →
      info.strtabOffset ≤ position ∧ position < info.strtabOffset + info.strtabSize

/-- The addresses and names of a file that cannot mislead the inspector: the sums stay
words, and a name starts the table, is empty or ends within it. -/
structure Safe (content : Bytes) (described : Description) : Prop where
  strtabOffset : described.strtabOffset < 2 ^ 64
  ends : ∀ needed ∈ described.needed,
    described.strtabOffset + needed + described.strsz < 2 ^ 64
  names : ∀ needed ∈ described.needed, needed = 0 ∨
    untilNul (content.drop (described.strtabOffset + needed)) = [] ∨
      needed + (untilNul (content.drop (described.strtabOffset + needed))).length ≤
        described.strsz

theorem readsEnd (file : OpenFile) {rounds length : Nat} (enough : length ≤ rounds)
    (offset : Nat) : file.preadLoop rounds length offset = file.preadExact length offset := by
  rw [file.preadLoop_eq enough, OpenFile.preadExact, file.preadLoop_eq (Nat.le_refl length)]

theorem printsEnd (file : OpenFile) (stop cursor : Nat) :
    (printLoop file stop (file.content.length + 1) cursor).isSome := by
  rw [printLoop_eq file stop (by omega)]
  rfl

theorem nameAt_eq (content : Bytes) (offset limit : Nat) :
    nameAt content offset limit = (untilNul (content.drop offset)).take limit :=
  List.take_takeWhile.symm

/-- The bytes of a name that are printed lie in the table exactly if the name starts the
table, is empty or ends within it. -/
theorem name_inside_iff {content : Bytes} {table needed size : Nat} (nonempty : size ≠ 0) :
    (∀ i < (nameAt content (table + needed) size).length, needed + i < size) ↔
      needed = 0 ∨ untilNul (content.drop (table + needed)) = [] ∨
        needed + (untilNul (content.drop (table + needed))).length ≤ size := by
  rw [nameAt_eq]
  generalize untilNul (content.drop (table + needed)) = name
  rw [List.length_take, ← List.length_eq_zero_iff]
  constructor
  · intro inside
    by_cases empty : name.length = 0
    · exact .inr (.inl empty)
    · have last := inside (min size name.length - 1) (by omega)
      omega
  · rintro (start | empty | ended) i below
    · omega
    · omega
    · omega

/-- A listing that is not refused, as the description of the file has it. -/
theorem Described.list_eq {file : OpenFile} {described : Description} (checks : Bool)
    (path : Bytes) (holds : Described file.content described)
    (safe : Safe file.content described) :
    inspectFd checks file =
        .ok ⟨described.needed, described.strtabOffset, described.strsz⟩ ∧
      list checks (some file) path =
        ⟨.ok true, described.needed.flatMap (neededLine file.content
          ⟨described.needed, described.strtabOffset, described.strsz⟩) ++ [selfLine], []⟩ := by
  have inspected : inspectFd checks file =
      .ok ⟨described.needed, described.strtabOffset, described.strsz⟩ := by
    rw [holds.inspectFd_eq checks, plainAdd_of_lt checks safe.strtabOffset]
    rfl
  refine ⟨inspected, ?_⟩
  rw [list, inspect, inspected]
  exact listNeeded_eq checks file
    ⟨described.needed, described.strtabOffset, described.strsz⟩ safe.ends

/-- Where a byte of a listing comes from. -/
theorem mem_listing {content : Bytes} {info : ElfInfo} {names : List Nat} {position : Nat}
    {byte : UInt8} :
    .read position byte ∈ names.flatMap (neededLine content info) ++ [selfLine] ↔
      ∃ needed ∈ names, ∃ i, position = info.strtabOffset + needed + i ∧
        (nameAt content (info.strtabOffset + needed) info.strtabSize)[i]? = some byte := by
  have line (needed : Nat) : .read position byte ∈ neededLine content info needed ↔
      .read position byte ∈ printedFrom (info.strtabOffset + needed)
        (nameAt content (info.strtabOffset + needed) info.strtabSize) := by
    simp [neededLine, neededPrefix, neededSuffix]
  simp only [List.mem_append, List.mem_flatMap, line, mem_printedFrom, List.mem_singleton,
    selfLine, reduceCtorEq, or_false]

/-- A listing with checked sums that does not panic has no overflow. -/
theorem listNeeded_bounded {file : OpenFile} {info : ElfInfo} {names : List Nat}
    (accepted : ∀ panic, (listNeeded true file info names).result ≠ .error panic) :
    ∀ needed ∈ names, info.strtabOffset + needed + info.strtabSize < 2 ^ 64 := by
  induction names with
  | nil => exact fun needed member => nomatch member
  | cons first rest ih =>
      rw [listNeeded] at accepted
      cases printed : plainAdd true 64 info.strtabOffset first >>= fun offset =>
          printStringFromFile true file offset info.strtabSize with
      | error panic =>
          simp only [printed] at accepted
          exact absurd rfl (accepted panic)
      | ok name =>
          simp only [printed] at accepted
          obtain ⟨offset, added, read⟩ := bind_eq_ok.mp printed
          obtain ⟨bounded, wrapped⟩ := plainAdd_eq_ok.mp added
          have same : offset = info.strtabOffset + first :=
            wrapped.symm.trans (Nat.mod_eq_of_lt (bounded rfl))
          have ends : offset + info.strtabSize < 2 ^ 64 := by
            rw [printStringFromFile] at read
            cases stop : plainAdd true 64 offset info.strtabSize with
            | error panic =>
                rw [stop] at read
                cases read
            | ok stop' => exact (plainAdd_eq_ok.mp stop).1 rfl
          intro needed member
          rcases List.mem_cons.mp member with rfl | later
          · rw [← same]
            exact ends
          · exact ih accepted needed later

section Robust

variable {file : OpenFile} {path : Bytes} {described : Description}

theorem Robust.strtabOffset_lt (robust : Robust file path)
    (holds : Described file.content described) : described.strtabOffset < 2 ^ 64 := by
  by_contra large
  have overflow : plainAdd true 64 described.segment.offset
      (described.strtab - described.segment.vaddr) = .error ⟨"attempt to add with overflow"⟩ :=
    if_pos ⟨rfl, Nat.le_of_not_lt large⟩
  have panicked : inspectFd true file =
      .error (.panicked ⟨"attempt to add with overflow"⟩) := by
    rw [holds.inspectFd_eq true, overflow]
    rfl
  apply robust.noOverflow ⟨"attempt to add with overflow"⟩
  rw [list, inspect, panicked]

theorem Robust.safe (robust : Robust file path) (holds : Described file.content described) :
    Safe file.content described := by
  have start := robust.strtabOffset_lt holds
  have inspected : inspectFd true file =
      .ok ⟨described.needed, described.strtabOffset, described.strsz⟩ := by
    rw [holds.inspectFd_eq true, plainAdd_of_lt true start]
    rfl
  have listed : list true (some file) path = listNeeded true file
      ⟨described.needed, described.strtabOffset, described.strsz⟩ described.needed := by
    rw [list, inspect, inspected]
  have ends := listNeeded_bounded fun panic => listed ▸ robust.noOverflow panic
  refine ⟨start, ends, ?_⟩
  intro needed member
  apply (name_inside_iff (not_or.mp holds.named).2).mp
  intro i below
  have printed : .read (described.strtabOffset + needed + i)
      (nameAt file.content (described.strtabOffset + needed) described.strsz)[i] ∈
        (list true (some file) path).stdout := by
    rw [listed, listNeeded_eq true file _ ends]
    exact mem_listing.mpr ⟨needed, member, i, rfl, List.getElem?_eq_getElem below⟩
  have bounds : described.strtabOffset + needed + i < described.strtabOffset + described.strsz :=
    (robust.inside true _ inspected _ _ printed).2
  omega

theorem robust_of_safe
    (safe : ∀ described, Described file.content described → Safe file.content described) :
    Robust file path where
  readsEnd _ _ offset enough := readsEnd file enough offset
  printsEnd stop cursor := printsEnd file stop cursor
  noOverflow panic failed := by
    by_cases refused : ∃ error, inspectFd true file = .error (.refused error)
    · obtain ⟨error, refused⟩ := refused
      rw [list, inspect, refused] at failed
      cases failed
    · obtain ⟨described, holds⟩ := exists_described (not_exists.mp refused)
      rw [(holds.list_eq true path (safe described holds)).2] at failed
      cases failed
  inside checks info inspected position byte printed := by
    have accepted : ∀ error, inspectFd checks file ≠ .error (.refused error) := by
      intro error refused
      rw [inspected] at refused
      cases refused
    obtain ⟨described, holds⟩ := exists_described accepted
    have bounds := safe described holds
    obtain ⟨same, listed⟩ := holds.list_eq checks path bounds
    cases inspected.symm.trans same
    rw [listed] at printed
    obtain ⟨needed, member, i, rfl, found⟩ := mem_listing.mp printed
    have below := (name_inside_iff (not_or.mp holds.named).2).mpr (bounds.names needed member) i
      (List.getElem?_eq_some_iff.mp found).1
    change described.strtabOffset ≤ described.strtabOffset + needed + i ∧
      described.strtabOffset + needed + i < described.strtabOffset + described.strsz
    omega

end Robust

/-- The inspector is robust on a file exactly if it refuses the file before it uses the
string table, or the table and the names leave no room for an overflow or an overrun. -/
theorem robust_iff (file : OpenFile) (path : Bytes) :
    Robust file path ↔
      ∀ described, Described file.content described → Safe file.content described :=
  ⟨fun robust _ holds => robust.safe holds, robust_of_safe⟩

def leakyDynamic : List ElfDyn :=
  [⟨ElfDynamicTag.needed, 1⟩, ⟨ElfDynamicTag.strtab, 240⟩, ⟨ElfDynamicTag.strsz, 1⟩,
    ⟨ElfDynamicTag.null, 0⟩]

/-- A file whose needed name starts where its string table of one byte ends. -/
def leakyFile : OpenFile :=
  .whole (encodeEhdr 2 ++ ElfPhdr.encode ⟨ElfProgramType.load, 0, 0, 246⟩ ++
    ElfPhdr.encode ⟨ElfProgramType.dynamic, 176, 176, 64⟩ ++ leakyDynamic.flatMap ElfDyn.encode ++
    0 :: ascii "leak" ++ [0]) (by decide +kernel)

/-- The byte behind the table is printed. -/
theorem leakyFile_not_robust : ¬Robust leakyFile (ascii "leaky") := by
  intro robust
  have inspected : inspectFd false leakyFile = .ok ⟨[1], 240, 1⟩ := by decide +kernel
  have printed : .read 241 0x6c ∈ (list false (some leakyFile) (ascii "leaky")).stdout := by
    decide +kernel
  exact absurd (robust.inside false _ inspected 241 0x6c printed).2 (by decide)

end DynLinker.Cli
