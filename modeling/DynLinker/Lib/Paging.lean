import DynLinker.Lib.ByteMemory
import DynLinker.Lib.CopyOrder
import Mathlib.Order.Interval.Finset.Nat

/-! Memory that is mapped page by page. An access of a page that is not mapped has no
result. `Tiles` keeps account of who mapped which pages. -/

set_option autoImplicit false

namespace DynLinker.Lib

/-- The pages that a region touches. -/
def pagesOf (pageSize : Nat) (region : Region) : Finset Nat :=
  Finset.Ico (region.base / pageSize)
    ((region.base + region.size + (pageSize - 1)) / pageSize)

section Pages

variable {pageSize : Nat} {region : Region}

theorem page_mem_pagesOf (positive : 0 < pageSize) {address : Nat}
    (inside : region.Contains address) : address / pageSize ∈ pagesOf pageSize region := by
  obtain ⟨above, below⟩ := inside
  refine Finset.mem_Ico.mpr ⟨Nat.div_le_div_right above, ?_⟩
  rw [Nat.lt_iff_add_one_le, Nat.le_div_iff_mul_le positive, Nat.add_mul, Nat.one_mul]
  have whole := Nat.div_mul_le_self address pageSize
  omega

theorem pagesOf_mono {inner outer : Region} (inside : inner.Inside outer) :
    pagesOf pageSize inner ⊆ pagesOf pageSize outer := by
  obtain ⟨above, below⟩ := inside
  exact Finset.Ico_subset_Ico (Nat.div_le_div_right above) (Nat.div_le_div_right (by omega))

theorem apart_of_disjoint {left right : Region} (positive : 0 < pageSize)
    (leftSize : 0 < left.size) (rightSize : 0 < right.size)
    (disjoint : Disjoint (pagesOf pageSize left) (pagesOf pageSize right)) :
    left.Apart right := by
  by_contra overlap
  simp only [Region.Apart, not_or, Nat.not_le] at overlap
  have inLeft : left.Contains (max left.base right.base) :=
    ⟨Nat.le_max_left _ _, by omega⟩
  have inRight : right.Contains (max left.base right.base) :=
    ⟨Nat.le_max_right _ _, by omega⟩
  exact Finset.disjoint_left.mp disjoint (page_mem_pagesOf positive inLeft)
    (page_mem_pagesOf positive inRight)

end Pages

structure AddressSpace (pageSize : Nat) where
  mapped : Finset Nat
  memory : ByteMemory

namespace AddressSpace

variable {pageSize : Nat}

def read (space : AddressSpace pageSize) (address : Nat) : Option UInt8 :=
  if address / pageSize ∈ space.mapped then some (space.memory address) else none

def write (space : AddressSpace pageSize) (address : Nat) (byte : UInt8) :
    Option (AddressSpace pageSize) :=
  if address / pageSize ∈ space.mapped then
    some { space with memory := Function.update space.memory address byte }
  else none

/-- New pages are full of zeros. -/
def map (space : AddressSpace pageSize) (region : Region) : AddressSpace pageSize where
  mapped := space.mapped ∪ pagesOf pageSize region
  memory := space.memory.write region.base (List.replicate region.size 0)

def unmap (space : AddressSpace pageSize) (region : Region) : AddressSpace pageSize :=
  { space with mapped := space.mapped \ pagesOf pageSize region }

/-- Every page that the region touches is mapped. -/
def Maps (space : AddressSpace pageSize) (region : Region) : Prop :=
  pagesOf pageSize region ⊆ space.mapped

theorem Maps.page {space : AddressSpace pageSize} {region : Region} (maps : space.Maps region)
    (positive : 0 < pageSize) {address : Nat} (inside : region.Contains address) :
    address / pageSize ∈ space.mapped :=
  maps (page_mem_pagesOf positive inside)

/-- Bytes that are copied one after the other; `none` is an access that faults. -/
def copyBytes (source target : Nat) : Nat → Nat → AddressSpace pageSize →
    Option (AddressSpace pageSize)
  | 0, _, space => some space
  | left + 1, offset, space => do
      let byte ← space.read (source + offset)
      let space ← space.write (target + offset) byte
      copyBytes source target left (offset + 1) space

theorem copyBytes_eq {source target left offset : Nat} {space : AddressSpace pageSize}
    (readable : ∀ i, i < left → (source + (offset + i)) / pageSize ∈ space.mapped)
    (writable : ∀ i, i < left → (target + (offset + i)) / pageSize ∈ space.mapped) :
    copyBytes source target left offset space = some { space with
      memory := copyEach (target + ·) (source + ·) (List.range' offset left) space.memory } := by
  induction left generalizing offset space with
  | zero => rfl
  | succ left ih =>
      have here := readable 0 (Nat.succ_pos left)
      have there := writable 0 (Nat.succ_pos left)
      rw [Nat.add_zero] at here there
      have next : ∀ i, offset + 1 + i = offset + (i + 1) := fun i => by omega
      simp only [copyBytes, read, if_pos here, write, if_pos there, Option.bind_eq_bind,
        Option.bind_some]
      rw [ih]
      · rw [List.range'_succ]
        rfl
      · intro i bounded
        rw [next]
        exact readable (i + 1) (by omega)
      · intro i bounded
        rw [next]
        exact writable (i + 1) (by omega)

/-- Between regions that are apart, the target gets the source's bytes. -/
theorem copyBytes_spec {source target count : Nat} {space : AddressSpace pageSize}
    (positive : 0 < pageSize) (readable : space.Maps ⟨source, count⟩)
    (writable : space.Maps ⟨target, count⟩)
    (apart : Region.Apart ⟨source, count⟩ ⟨target, count⟩) :
    ∃ memory, copyBytes source target count 0 space = some { space with memory := memory } ∧
      memory.Holds target (space.memory.slice source count) ∧
      ∀ region, Region.Apart region ⟨target, count⟩ → memory.Agree space.memory region := by
  have inRange : ∀ {i}, i ∈ List.range' 0 count → i < count := by
    intro i member
    have bounds := List.mem_range'_1.mp member
    omega
  have copied := @copyBytes_eq pageSize source target count 0 space
    (fun i bounded => readable.page positive ⟨by simp, by simp; omega⟩)
    (fun i bounded => writable.page positive ⟨by simp, by simp; omega⟩)
  refine ⟨_, copied, ?_, ?_⟩
  · intro i byte found
    rw [ByteMemory.slice, List.getElem?_map, Option.map_eq_some_iff] at found
    obtain ⟨index, listed, rfl⟩ := found
    obtain ⟨bounded, rfl⟩ := List.getElem?_eq_some_iff.mp listed
    rw [List.getElem_range, List.length_range] at *
    have safe : CopySafe (target + ·) (source + ·) (List.range' 0 count) := by
      refine List.Pairwise.imp_of_mem ?_ List.pairwise_lt_range'
      intro earlier later first second ordered
      have before := inRange first
      have after := inRange second
      change target + earlier ≠ source + later ∧ target + earlier ≠ target + later
      simp only [Region.Apart] at apart
      omega
    exact copyEach_target safe (List.mem_range'_1.mpr ⟨Nat.zero_le _, by omega⟩) space.memory
  · intro region away query above below
    apply copyEach_other
    intro i member same
    have bounded := inRange member
    simp only [Region.Apart] at away
    omega

end AddressSpace

/-! ## Who mapped what -/

/-- The tiles and the rest are what is mapped, and no page belongs to two of them. -/
structure Tiles (whole rest : Finset Nat) (tiles : List (Finset Nat)) : Prop where
  apart : (rest :: tiles).Pairwise Disjoint
  covers : ∀ page, page ∈ whole ↔ page ∈ rest ∨ ∃ tile ∈ tiles, page ∈ tile

namespace Tiles

variable {whole rest : Finset Nat} {tiles : List (Finset Nat)}

theorem nil (pages : Finset Nat) : Tiles pages pages [] :=
  ⟨List.pairwise_singleton _ _, by simp⟩

theorem subset (tiled : Tiles whole rest tiles) {tile : Finset Nat} (member : tile ∈ tiles) :
    tile ⊆ whole :=
  fun page inside => (tiled.covers page).mpr (.inr ⟨tile, member, inside⟩)

theorem add (tiled : Tiles whole rest tiles) {tile : Finset Nat}
    (fresh : Disjoint tile whole) : Tiles (whole ∪ tile) rest (tile :: tiles) := by
  obtain ⟨fromRest, apart⟩ := List.pairwise_cons.mp tiled.apart
  have restInside : rest ⊆ whole := fun page inside => (tiled.covers page).mpr (.inl inside)
  constructor
  · refine List.pairwise_cons.mpr ⟨?_, List.pairwise_cons.mpr ⟨?_, apart⟩⟩
    · rw [List.forall_mem_cons]
      exact ⟨(fresh.mono_right restInside).symm, fromRest⟩
    · exact fun other listed => fresh.mono_right (tiled.subset listed)
  · intro page
    rw [Finset.mem_union, tiled.covers page, List.exists_mem_cons_iff, or_assoc,
      or_comm (b := page ∈ tile)]

theorem remove {tile : Finset Nat} (tiled : Tiles whole rest (tile :: tiles)) :
    Tiles (whole \ tile) rest tiles := by
  obtain ⟨fromRest, apart⟩ := List.pairwise_cons.mp tiled.apart
  obtain ⟨away, others⟩ := List.pairwise_cons.mp apart
  obtain ⟨restAway, fromRest⟩ := List.forall_mem_cons.mp fromRest
  constructor
  · exact List.pairwise_cons.mpr ⟨fromRest, others⟩
  · intro page
    rw [Finset.mem_sdiff, tiled.covers page, List.exists_mem_cons_iff]
    have notRest : page ∈ rest → page ∉ tile := fun inside =>
      Finset.disjoint_left.mp restAway inside
    have notOther : ∀ other ∈ tiles, page ∈ other → page ∉ tile :=
      fun other listed inside => Finset.disjoint_right.mp (away other listed) inside
    constructor
    · rintro ⟨inside | inside | inside, outside⟩
      · exact .inl inside
      · exact absurd inside outside
      · exact .inr inside
    · rintro (inside | ⟨other, listed, inside⟩)
      · exact ⟨.inl inside, notRest inside⟩
      · exact ⟨.inr (.inr ⟨other, listed, inside⟩), notOther other listed inside⟩

theorem perm {others : List (Finset Nat)} (tiled : Tiles whole rest tiles)
    (same : tiles.Perm others) : Tiles whole rest others where
  apart := ((same.cons rest).pairwise_iff fun away => away.symm).mp tiled.apart
  covers page := by
    rw [tiled.covers page]
    simp only [same.mem_iff]

/-- Somebody else maps further pages. -/
theorem growRest (tiled : Tiles whole rest tiles) {pages : Finset Nat}
    (fresh : Disjoint pages whole) : Tiles (whole ∪ pages) (rest ∪ pages) tiles := by
  obtain ⟨fromRest, apart⟩ := List.pairwise_cons.mp tiled.apart
  constructor
  · refine List.pairwise_cons.mpr ⟨?_, apart⟩
    intro tile listed
    exact Finset.disjoint_union_left.mpr
      ⟨fromRest tile listed, fresh.mono_right (tiled.subset listed)⟩
  · intro page
    rw [Finset.mem_union, Finset.mem_union, tiled.covers page]
    exact or_right_comm

theorem shrinkRest (tiled : Tiles whole rest tiles) {pages : Finset Nat}
    (own : pages ⊆ rest) : Tiles (whole \ pages) (rest \ pages) tiles := by
  obtain ⟨fromRest, apart⟩ := List.pairwise_cons.mp tiled.apart
  constructor
  · refine List.pairwise_cons.mpr ⟨?_, apart⟩
    exact fun tile listed => (fromRest tile listed).mono_left Finset.sdiff_subset
  · intro page
    have notOther : ∀ tile ∈ tiles, page ∈ tile → page ∉ pages := fun tile listed inside gone =>
      Finset.disjoint_right.mp (fromRest tile listed) inside (own gone)
    rw [Finset.mem_sdiff, Finset.mem_sdiff, tiled.covers page]
    constructor
    · rintro ⟨inside | inside, outside⟩
      · exact .inl ⟨inside, outside⟩
      · exact .inr inside
    · rintro (⟨inside, outside⟩ | ⟨tile, listed, inside⟩)
      · exact ⟨.inl inside, outside⟩
      · exact ⟨.inr ⟨tile, listed, inside⟩, notOther tile listed inside⟩

end Tiles

end DynLinker.Lib
