import DynLinker.Startup.Allocator
import DynLinker.Tls.LayoutProperties

/-! The allocator keeps what it is for: each block has its bytes and its own mapped pages,
nothing else is mapped, and no request of a program that keeps the contract faults. -/

set_option autoImplicit false

namespace DynLinker.Startup

open Lib Tls

/-! ## The sizes of mappings -/

section Sizes

theorem pageRoundedSize_eq {layout : Layout} (valid : ValidLayout layout) :
    pageRoundedSize layout = roundUp (max layout.size layout.align) 0x1000 := by
  obtain ⟨_, positive, bounded⟩ := Layout.fromSizeAlign_spec valid
  refine @clearLow_two_pow _ 12 _ (by decide) ?_
  have limit : isizeMax + 0x1000 < 2 ^ usizeBits := by decide
  omega

theorem pageRoundedSize_pos {layout : Layout} (valid : ValidLayout layout) :
    0 < pageRoundedSize layout := by
  obtain ⟨_, positive, _⟩ := Layout.fromSizeAlign_spec valid
  have reached := @le_roundUp (max layout.size layout.align) 0x1000 (by decide)
  rw [pageRoundedSize_eq valid]
  omega

theorem resized_valid {block : Block} {newSize : Nat} {layout : Layout}
    (accepted : Layout.fromSizeAlign (max newSize 1) block.layout.align = some layout) :
    ValidLayout (Heap.resized block newSize) ∧
      pageRoundedSize (Heap.resized block newSize) = pageRoundedSize layout := by
  obtain ⟨rfl, positive, bounded⟩ := Layout.fromSizeAlign_spec accepted
  constructor
  · rw [Layout.fromSizeAlign] at accepted
    split at accepted
    · next possible =>
        refine if_pos ⟨possible.1, ?_⟩
        change newSize + (block.layout.align - 1) ≤ isizeMax
        omega
    · cases accepted
  · have same : max (max newSize 1) block.layout.align = max newSize block.layout.align := by
      omega
    rw [pageRoundedSize, pageRoundedSize, same]
    rfl

end Sizes

/-! ## The invariant -/

namespace Block

/-- What is mapped for the block. -/
def region (block : Block) : Region := ⟨block.ptr, pageRoundedSize block.layout⟩

def span (block : Block) : Finset Nat := pagesOf 0x1000 block.region

structure Sound (block : Block) : Prop where
  nonnull : block.ptr ≠ 0
  aligned : block.ptr % 0x1000 = 0
  valid : ValidLayout block.layout

theorem Sound.inside {block : Block} (sound : block.Sound) (offset count : Nat)
    (fits : offset + count ≤ block.layout.size) :
    Region.Inside ⟨block.ptr + offset, count⟩ block.region := by
  have covered := size_le_pageRoundedSize sound.valid
  change _ ≤ (block.region).size at covered
  simp only [Region.Inside, region] at *
  omega

theorem Sound.page_mem {block : Block} (sound : block.Sound) {offset : Nat}
    (inside : offset < block.layout.size) : (block.ptr + offset) / 0x1000 ∈ block.span := by
  refine page_mem_pagesOf (by decide) ?_
  have covered := sound.inside offset 1 inside
  simp only [Region.Inside, Region.Contains] at *
  omega

theorem Sound.span_nonempty {block : Block} (sound : block.Sound) : block.span.Nonempty := by
  refine ⟨block.ptr / 0x1000, page_mem_pagesOf (by decide) ⟨Nat.le_refl _, ?_⟩⟩
  exact Nat.lt_add_of_pos_right (pageRoundedSize_pos sound.valid)

theorem Sound.apart {block other : Block} (sound : block.Sound) (otherSound : other.Sound)
    (disjoint : Disjoint block.span other.span) : block.region.Apart other.region :=
  apart_of_disjoint (by decide) (pageRoundedSize_pos sound.valid)
    (pageRoundedSize_pos otherSound.valid) disjoint

end Block

/-- The heap holds these contents, each block in pages of its own. -/
structure Represents (heap : Heap) (contents : Contents) : Prop where
  blocks : heap.live = contents.map Prod.fst
  bytes : ∀ entry ∈ contents, entry.2.length = entry.1.layout.size ∧
    heap.space.memory.Holds entry.1.ptr entry.2
  sound : ∀ block ∈ heap.live, block.Sound
  tiles : Tiles heap.space.mapped heap.foreign ((heap.live ++ heap.lost).map Block.span)

namespace Represents

variable {heap : Heap} {contents : Contents} {block : Block}

theorem disjoint (represents : Represents heap contents) :
    heap.live.Pairwise fun left right => Disjoint left.span right.span := by
  obtain ⟨_, blocks⟩ := List.pairwise_cons.mp represents.tiles.apart
  exact (List.pairwise_append.mp (List.pairwise_map.mp blocks)).1

theorem span_mapped (represents : Represents heap contents) (listed : block ∈ heap.live) :
    block.span ⊆ heap.space.mapped :=
  represents.tiles.subset (List.mem_map_of_mem (List.mem_append_left _ listed))

theorem span_disjoint (represents : Represents heap contents) {other : Block}
    (listed : block ∈ heap.live) (otherListed : other ∈ heap.live) (different : block ≠ other) :
    Disjoint block.span other.span := by
  have symmetric : Std.Symm fun left right : Block => Disjoint left.span right.span :=
    ⟨fun _ _ away => away.symm⟩
  exact represents.disjoint.forall listed otherListed different

theorem apart (represents : Represents heap contents) {other : Block}
    (listed : block ∈ heap.live) (otherListed : other ∈ heap.live) (different : block ≠ other) :
    block.region.Apart other.region :=
  (represents.sound block listed).apart (represents.sound other otherListed)
    (represents.span_disjoint listed otherListed different)

theorem mem_live (represents : Represents heap contents) {entry : Block × List UInt8}
    (member : entry ∈ contents) : entry.1 ∈ heap.live := by
  rw [represents.blocks]
  exact List.mem_map_of_mem member

theorem bytesOf_mem (represents : Represents heap contents) (listed : block ∈ heap.live) :
    (block, contents.bytesOf block) ∈ contents := by
  rw [represents.blocks] at listed
  obtain ⟨entry, member, same⟩ := List.mem_map.mp listed
  cases found : contents.find? fun entry => entry.1 = block with
  | none =>
      exact absurd (decide_eq_true same) (List.find?_eq_none.mp found entry member)
  | some first =>
      have named : first.1 = block := by simpa using List.find?_some found
      have present := List.mem_of_find?_eq_some found
      rw [Contents.bytesOf, found]
      subst named
      exact present

theorem bytes_of_agree (represents : Represents heap contents) {entry : Block × List UInt8}
    (member : entry ∈ contents) {memory : ByteMemory}
    (agree : memory.Agree heap.space.memory entry.1.region) : memory.Holds entry.1.ptr entry.2 := by
  obtain ⟨length, held⟩ := represents.bytes entry member
  refine held.of_agree (agree.inside ?_)
  rw [length]
  exact (represents.sound _ (represents.mem_live member)).inside 0 _ (by simp)

theorem nodup (represents : Represents heap contents) : heap.live.Nodup := by
  refine List.Pairwise.imp_of_mem ?_ represents.disjoint
  rintro left right listed _ away rfl
  obtain ⟨page, inside⟩ := (represents.sound left listed).span_nonempty
  exact Finset.disjoint_left.mp away inside inside

/-- The kernel maps zeros for a new block. -/
theorem add (represents : Represents heap contents) (sound : block.Sound)
    (fresh : Disjoint block.span heap.space.mapped) :
    Represents { heap with space := heap.space.map block.region, live := block :: heap.live }
      ((block, List.replicate block.layout.size 0) :: contents) where
  blocks := congrArg (block :: ·) represents.blocks
  bytes := by
    rw [List.forall_mem_cons]
    constructor
    · refine ⟨List.length_replicate, ?_⟩
      have covered := size_le_pageRoundedSize sound.valid
      have zeros := ByteMemory.holds_write heap.space.memory block.ptr
        (List.replicate (block.layout.size + (pageRoundedSize block.layout - block.layout.size)) 0)
      rw [List.replicate_add, ByteMemory.holds_append, ← List.replicate_add,
        Nat.add_sub_cancel' covered] at zeros
      exact zeros.1
    · intro entry member
      refine ⟨(represents.bytes entry member).1, represents.bytes_of_agree member ?_⟩
      apply ByteMemory.write_apart
      rw [List.length_replicate]
      have listed := represents.mem_live member
      apply (represents.sound _ listed).apart sound
      exact fresh.symm.mono_left (represents.span_mapped listed)
  sound := List.forall_mem_cons.mpr ⟨sound, represents.sound⟩
  tiles := represents.tiles.add fresh

theorem remove (represents : Represents heap contents) (listed : block ∈ heap.live)
    (refused : Bool) :
    Represents { heap.giveBack block refused with
      space := dealloc block.ptr block.layout refused heap.space } (contents.forget block) := by
  have sound := represents.sound block listed
  have positive := pageRoundedSize_pos sound.valid
  have kept : (dealloc block.ptr block.layout refused heap.space).memory = heap.space.memory := by
    rw [dealloc, Space.munmap]
    split
    · rfl
    · rfl
  have tiled := represents.tiles.perm
    (((List.perm_cons_erase listed).append_right heap.lost).map Block.span)
  constructor
  · change heap.live.erase block = (List.eraseP _ contents).map Prod.fst
    rw [represents.blocks, List.erase_eq_eraseP', List.eraseP_map]
    rfl
  · intro entry member
    rw [kept]
    exact represents.bytes entry (List.mem_of_mem_eraseP member)
  · exact fun other member => represents.sound other (List.mem_of_mem_erase member)
  · cases refused with
    | false =>
        have unmapped : dealloc block.ptr block.layout false heap.space =
            heap.space.unmap block.region :=
          if_pos ⟨sound.aligned, by omega, rfl⟩
        rw [unmapped]
        exact tiled.remove
    | true =>
        have stays : dealloc block.ptr block.layout true heap.space = heap.space :=
          if_neg fun answer => Bool.noConfusion answer.2.2
        rw [stays]
        exact tiled.perm (List.perm_middle.symm.map Block.span)

/-- A block gets other bytes, and memory changes only there. -/
theorem put (represents : Represents heap contents) (listed : block ∈ heap.live)
    {bytes : List UInt8} (length : bytes.length = block.layout.size) {memory : ByteMemory}
    (held : memory.Holds block.ptr bytes)
    (kept : ∀ region, Region.Apart region ⟨block.ptr, block.layout.size⟩ →
      memory.Agree heap.space.memory region) :
    Represents { heap with space := { heap.space with memory := memory } }
      (contents.put block bytes) where
  blocks := by
    rw [represents.blocks, Contents.put, List.map_map]
    apply List.map_congr_left
    intro entry _
    simp only [Function.comp_apply]
    split
    · next same => exact same
    · rfl
  bytes := by
    intro entry member
    obtain ⟨old, present, rfl⟩ := List.mem_map.mp member
    split
    · exact ⟨length, held⟩
    · next different =>
        refine ⟨(represents.bytes old present).1, represents.bytes_of_agree present (kept _ ?_)⟩
        have away := represents.apart (represents.mem_live present) listed different
        exact away.inside ((represents.sound block listed).inside 0 _ (by simp))
  sound := represents.sound
  tiles := represents.tiles

theorem maps (represents : Represents heap contents) (listed : block ∈ heap.live) {count : Nat}
    (fits : count ≤ block.layout.size) : heap.space.Maps ⟨block.ptr, count⟩ := by
  have inside := (represents.sound block listed).inside 0 count (by omega)
  exact (pagesOf_mono inside).trans (represents.span_mapped listed)

end Represents

/-! ## One request -/

section Serve

variable {heap : Heap} {contents : Contents} (represents : Represents heap contents)

include represents

theorem serve_alloc {layout : Layout} {answer : Option Nat}
    (allowed : heap.Allowed (.alloc layout answer)) :
    ∃ next, heap.serve (.alloc layout answer) = some next ∧
      Represents next (contents.apply (.alloc layout answer)) := by
  obtain ⟨valid, granted⟩ := allowed
  cases answer with
  | none => exact ⟨_, rfl, represents⟩
  | some ptr =>
      obtain ⟨nonnull, aligned, _, fresh⟩ := granted ptr rfl
      have sound : Block.Sound ⟨ptr, layout⟩ := ⟨nonnull, aligned, valid⟩
      exact ⟨_, congrArg some (if_neg nonnull), represents.add sound fresh⟩

theorem serve_dealloc {block : Block} (listed : block ∈ heap.live) (refused : Bool) :
    ∃ next, heap.serve (.dealloc block refused) = some next ∧
      Represents next (contents.apply (.dealloc block refused)) :=
  ⟨_, rfl, represents.remove listed refused⟩

theorem serve_store {block : Block} {offset : Nat} {byte : UInt8}
    (allowed : heap.Allowed (.store block offset byte)) :
    ∃ next, heap.serve (.store block offset byte) = some next ∧
      Represents next (contents.apply (.store block offset byte)) := by
  obtain ⟨listed, inside⟩ := allowed
  have mapped := represents.span_mapped listed ((represents.sound block listed).page_mem inside)
  obtain ⟨length, held⟩ := represents.bytes _ (represents.bytesOf_mem listed)
  simp only at length held
  have written : heap.space.write (block.ptr + offset) byte = some { heap.space with
      memory := Function.update heap.space.memory (block.ptr + offset) byte } := if_pos mapped
  refine ⟨_, by rw [Heap.serve, written]; rfl, ?_⟩
  refine represents.put listed (by rw [List.length_set, length]) ?_ ?_
  · intro i found present
    rw [List.getElem?_set] at present
    split at present
    · next same =>
        subst same
        split at present
        · cases present
          exact Function.update_self _ _ _
        · cases present
    · next different =>
        rw [Function.update_of_ne (by omega)]
        exact held i found present
  · intro region away query above below
    refine Function.update_of_ne ?_ _ _
    simp only [Region.Apart] at away
    omega

end Serve

/-! ## Moving a block -/

theorem Contents.length_fitted (bytes : List UInt8) (size : Nat) :
    (fitted bytes size).length = size := by
  rw [fitted, List.length_append, List.length_take, List.length_replicate]
  omega

namespace Represents

variable {heap : Heap} {contents : Contents} {block moved : Block}

/-- The copy puts the old bytes over the first zeros. -/
theorem holds_fitted {before after : ByteMemory} {source target size : Nat} {bytes : List UInt8}
    (read : before.Holds source bytes) (zeros : before.Holds target (List.replicate size 0))
    (copied : after.Holds target (before.slice source (min bytes.length size)))
    (kept : ∀ region, Region.Apart region ⟨target, min bytes.length size⟩ →
      after.Agree before region) : after.Holds target (Contents.fitted bytes size) := by
  have taken : before.slice source (min bytes.length size) = bytes.take size := by
    rw [← List.take_append_drop size bytes, ByteMemory.holds_append] at read
    have length : (bytes.take size).length = min bytes.length size := by
      rw [List.length_take, Nat.min_comm]
    rw [← length]
    exact read.1.slice
  rw [Contents.fitted, ByteMemory.holds_append]
  refine ⟨taken ▸ copied, ?_⟩
  have length : (bytes.take size).length = min size bytes.length := List.length_take
  have split : size = (bytes.take size).length + (size - bytes.length) := by omega
  rw [split, List.replicate_add, ByteMemory.holds_append, List.length_replicate] at zeros
  refine zeros.2.of_agree (kept _ ?_)
  rw [List.length_replicate]
  right
  change target + min bytes.length size ≤ target + (bytes.take size).length
  omega

theorem not_live (represents : Represents heap contents) (sound : moved.Sound)
    (fresh : Disjoint moved.span heap.space.mapped) : moved ∉ heap.live := by
  intro listed
  obtain ⟨page, inside⟩ := sound.span_nonempty
  exact Finset.disjoint_left.mp fresh inside (represents.span_mapped listed inside)

/-- The new block is mapped, the bytes that fit are copied, and the old block is given back. -/
theorem move (represents : Represents heap contents) (listed : block ∈ heap.live)
    (sound : moved.Sound) (fresh : Disjoint moved.span heap.space.mapped) (refused : Bool) :
    ∃ space, (heap.space.map moved.region).copyBytes block.ptr moved.ptr
        (min block.layout.size moved.layout.size) 0 = some space ∧
      Represents { heap.giveBack block refused with
        space := dealloc block.ptr block.layout refused space
        live := moved :: heap.live.erase block }
        ((moved, Contents.fitted (contents.bytesOf block) moved.layout.size) ::
          contents.forget block) := by
  have grown := represents.add sound fresh
  have different : moved ≠ block := fun same => represents.not_live sound fresh (same ▸ listed)
  have stays : block ∈ moved :: heap.live := List.mem_cons_of_mem _ listed
  have first : moved ∈ moved :: heap.live := List.mem_cons_self
  obtain ⟨length, read⟩ := grown.bytes _
    (List.mem_cons_of_mem _ (represents.bytesOf_mem listed))
  obtain ⟨_, zeros⟩ := grown.bytes _ List.mem_cons_self
  simp only at length read zeros
  have inMoved := sound.inside 0 (min block.layout.size moved.layout.size) (by omega)
  have inBlock := (represents.sound block listed).inside 0
    (min block.layout.size moved.layout.size) (by omega)
  have apart := ((grown.apart stays first different.symm).inside inMoved).symm.inside inBlock
  obtain ⟨memory, copied, held, kept⟩ := AddressSpace.copyBytes_spec (by decide)
    (grown.maps stays (Nat.min_le_left _ _)) (grown.maps first (Nat.min_le_right _ _)) apart.symm
  refine ⟨_, copied, ?_⟩
  rw [← length] at held kept
  have filled := grown.put first (Contents.length_fitted (contents.bytesOf block) moved.layout.size)
    (holds_fitted read zeros held kept) fun region away =>
      kept region (away.inside ⟨Nat.le_refl _, Nat.add_le_add_left (Nat.min_le_right _ _) _⟩)
  have put : Contents.put ((moved, List.replicate moved.layout.size 0) :: contents) moved
      (Contents.fitted (contents.bytesOf block) moved.layout.size) =
        (moved, Contents.fitted (contents.bytesOf block) moved.layout.size) :: contents := by
    have others : ∀ entry ∈ contents, entry.1 ≠ moved := fun entry member same =>
      represents.not_live sound fresh (same ▸ represents.mem_live member)
    have kept : contents.map (fun entry => if entry.1 = moved then
        (moved, Contents.fitted (contents.bytesOf block) moved.layout.size) else entry) = contents.map id :=
      List.map_congr_left fun entry member => if_neg (others entry member)
    rw [Contents.put, List.map_cons, if_pos rfl, kept, List.map_id]
  rw [put] at filled
  have removed := filled.remove stays refused
  have erased : (moved :: heap.live).erase block = moved :: heap.live.erase block :=
    List.erase_cons_tail (by simpa using different)
  have forgotten : Contents.forget ((moved, Contents.fitted (contents.bytesOf block) moved.layout.size) ::
      contents) block = (moved, Contents.fitted (contents.bytesOf block) moved.layout.size) ::
        contents.forget block :=
    List.eraseP_cons_of_neg (by simpa using different)
  rw [Heap.giveBack, erased, forgotten] at removed
  exact removed

end Represents

/-! ## Every request -/

section Runs

variable {heap : Heap} {contents : Contents}

/-- Without a layout for the new size, or memory for it, the block stays what it is. -/
theorem serve_realloc_null {block : Block} {newSize : Nat} {answer : Option Nat} (refused : Bool)
    (null : Layout.fromSizeAlign (max newSize 1) block.layout.align = none ∨ answer = none) :
    heap.serve (.realloc block newSize answer refused) = some heap ∧
      contents.apply (.realloc block newSize answer refused) = contents := by
  have given : realloc block.ptr block.layout newSize answer refused heap.space =
      some (0, heap.space) := by
    unfold realloc
    cases accepted : Layout.fromSizeAlign (max newSize 1) block.layout.align with
    | none => rfl
    | some layout =>
        rw [accepted] at null
        cases null.resolve_left (Option.some_ne_none _)
        rfl
  refine ⟨by rw [Heap.serve, given]; rfl, ?_⟩
  change contents.move block newSize _ answer = contents
  rcases null with unaccepted | rfl
  · rw [unaccepted]
    rfl
  · cases Layout.fromSizeAlign (max newSize 1) block.layout.align with
    | none => rfl
    | some layout => rfl

theorem serve_realloc (represents : Represents heap contents) {block : Block} {newSize : Nat}
    {answer : Option Nat} {refused : Bool}
    (allowed : heap.Allowed (.realloc block newSize answer refused)) :
    ∃ next, heap.serve (.realloc block newSize answer refused) = some next ∧
      Represents next (contents.apply (.realloc block newSize answer refused)) := by
  obtain ⟨listed, granted⟩ := allowed
  cases accepted : Layout.fromSizeAlign (max newSize 1) block.layout.align with
  | none =>
      obtain ⟨served, same⟩ := serve_realloc_null refused (.inl accepted)
      exact ⟨heap, served, same ▸ represents⟩
  | some layout =>
      cases answer with
      | none =>
          obtain ⟨served, same⟩ := serve_realloc_null refused (.inr rfl)
          exact ⟨heap, served, same ▸ represents⟩
      | some ptr =>
          obtain ⟨nonnull, aligned, _, fresh⟩ := granted layout accepted ptr rfl
          obtain ⟨valid, same⟩ := resized_valid accepted
          have sound : Block.Sound ⟨ptr, Heap.resized block newSize⟩ :=
            ⟨nonnull, aligned, valid⟩
          rw [← same] at fresh
          obtain ⟨space, copied, moved⟩ := represents.move listed sound fresh refused
          have mapped : alloc layout (some ptr) heap.space = (ptr, heap.space.map
              (Block.region ⟨ptr, Heap.resized block newSize⟩)) := by
            rw [Block.region, same]
            rfl
          have given : realloc block.ptr block.layout newSize (some ptr) refused heap.space =
              some (ptr, dealloc block.ptr block.layout refused space) := by
            unfold realloc
            rw [accepted]
            simp only [mapped, if_neg nonnull]
            exact congrArg
              (· >>= fun space => some (ptr, dealloc block.ptr block.layout refused space)) copied
          have served : heap.serve (.realloc block newSize (some ptr) refused) =
              some { heap.giveBack block refused with
                space := dealloc block.ptr block.layout refused space
                live := ⟨ptr, Heap.resized block newSize⟩ :: heap.live.erase block } := by
            rw [Heap.serve, given]
            simp only [Option.bind_eq_bind, Option.bind_some, if_neg nonnull, Heap.keep]
            rfl
          refine ⟨_, served, ?_⟩
          change Represents _ (contents.move block newSize _ _)
          rw [accepted]
          exact moved

theorem serve_represents (represents : Represents heap contents) {request : Request}
    (allowed : heap.Allowed request) :
    ∃ next, heap.serve request = some next ∧ Represents next (contents.apply request) := by
  cases request with
  | alloc layout answer => exact serve_alloc represents allowed
  | dealloc block refused => exact serve_dealloc represents allowed refused
  | realloc block newSize answer refused => exact serve_realloc represents allowed
  | store block offset byte => exact serve_store represents allowed
  | mapOther pages =>
      exact ⟨_, rfl, { represents with tiles := represents.tiles.growRest allowed }⟩
  | unmapOther pages =>
      exact ⟨_, rfl, { represents with tiles := represents.tiles.shrinkRest allowed }⟩

theorem represents_of_run {start : Heap} {requests : List Request}
    (initial : Heap.system.initial start) (run : Heap.system.Run start requests heap) :
    Represents heap (Contents.after requests) := by
  induction run with
  | refl =>
      obtain ⟨nothing, complete, alone⟩ := initial
      refine ⟨nothing, by simp [Contents.after], by simp [nothing], ?_⟩
      rw [nothing, complete, alone]
      exact .nil _
  | snoc _ step ih =>
      obtain ⟨allowed, served⟩ := step
      obtain ⟨next, accepted, represents⟩ := serve_represents ih allowed
      rw [served] at accepted
      cases accepted
      rw [Contents.after, List.foldl_append]
      exact represents

theorem serve_lost {request : Request} {next : Heap} (served : heap.serve request = some next)
    {block : Block} (listed : block ∈ next.lost) : block ∈ heap.lost ∨ request.Loses block := by
  have back {given : Block} {refused : Bool} (lost : block ∈ (heap.giveBack given refused).lost) :
      block ∈ heap.lost ∨ (refused = true ∧ block = given) := by
    cases refused with
    | false => exact .inl lost
    | true => exact (List.mem_cons.mp lost).symm.imp_right fun same => ⟨rfl, same⟩
  have kept (before : Heap) (ptr : Nat) (layout : Layout) (space : Space) :
      (before.keep ptr layout space).lost = before.lost := by
    rw [Heap.keep]
    split
    · rfl
    · rfl
  cases request with
  | alloc layout answer =>
      cases served
      rw [kept] at listed
      exact .inl listed
  | dealloc given refused =>
      cases served
      refine (back listed).imp_right ?_
      rintro ⟨rfl, rfl⟩
      exact .dealloc block
  | realloc given newSize answer refused =>
      obtain ⟨⟨ptr, space⟩, _, chosen⟩ := Option.bind_eq_some_iff.mp served
      dsimp only at chosen
      split at chosen
      · cases chosen
        exact .inl listed
      · cases chosen
        rw [kept] at listed
        refine (back listed).imp_right ?_
        rintro ⟨rfl, rfl⟩
        exact .realloc block newSize answer
  | store given offset byte =>
      obtain ⟨space, _, chosen⟩ := Option.bind_eq_some_iff.mp served
      cases chosen
      exact .inl listed
  | mapOther pages =>
      cases served
      exact .inl listed
  | unmapOther pages =>
      cases served
      exact .inl listed

theorem lost_of_run {start : Heap} {requests : List Request} (initial : Heap.system.initial start)
    (run : Heap.system.Run start requests heap) :
    ∀ block ∈ heap.lost, ∃ request ∈ requests, request.Loses block := by
  induction run with
  | refl =>
      obtain ⟨_, complete, _⟩ := initial
      simp [complete]
  | snoc _ step ih =>
      intro block listed
      rcases serve_lost step.2 listed with before | now
      · obtain ⟨request, asked, loses⟩ := ih block before
        exact ⟨request, List.mem_append_left _ asked, loses⟩
      · exact ⟨_, List.mem_append_right _ (List.mem_singleton_self _), now⟩

end Runs

/-- Pages are aligned for every layout that does not ask for more than a page. -/
theorem Block.Sound.align_dvd {block : Block} (sound : block.Sound)
    (small : block.layout.align ≤ 0x1000) : block.layout.align ∣ block.ptr := by
  have valid := sound.valid
  rw [ValidLayout, Layout.fromSizeAlign] at valid
  split at valid
  · next possible =>
      obtain ⟨⟨low, _, power⟩, _⟩ := possible
      rw [power] at small ⊢
      have bounded : low ≤ 12 := (Nat.pow_le_pow_iff_right (by decide)).mp small
      exact (Nat.pow_dvd_pow 2 bounded).trans (Nat.dvd_of_mod_eq_zero sound.aligned)
  · cases valid

/-- After every run of requests, whatever the kernel answered, each live block holds the
bytes that its requests gave it, in mapped pages of its own; besides what others mapped,
nothing else is mapped than blocks that the kernel refused to unmap; and every request that
the contract allows is served without a fault. -/
theorem allocator_keeps_blocks (start heap : Heap) (requests : List Request)
    (initial : Heap.system.initial start) (run : Heap.system.Run start requests heap) :
    heap.live = (Contents.after requests).map Prod.fst ∧
      (∀ entry ∈ Contents.after requests, entry.2.length = entry.1.layout.size ∧
        ∀ i byte, entry.2[i]? = some byte → heap.space.read (entry.1.ptr + i) = some byte) ∧
      (heap.live.Pairwise fun left right =>
        Disjoint left.span right.span ∧ left.region.Apart right.region) ∧
      (∀ page, page ∈ heap.space.mapped ↔
        page ∈ heap.foreign ∨ ∃ block ∈ heap.live ++ heap.lost, page ∈ block.span) ∧
      (∀ block ∈ heap.lost, ∃ request ∈ requests, request.Loses block) ∧
      (∀ block ∈ heap.live, block.layout.align ≤ 0x1000 → block.layout.align ∣ block.ptr) ∧
      ∀ request, heap.Allowed request → ∃ next, heap.serve request = some next := by
  have represents := represents_of_run initial run
  refine ⟨represents.blocks, ?_, ?_, ?_, lost_of_run initial run, ?_, ?_⟩
  · intro entry member
    obtain ⟨length, held⟩ := represents.bytes entry member
    refine ⟨length, fun i byte found => ?_⟩
    have listed := represents.mem_live member
    have inside : i < entry.1.layout.size := length ▸ (List.getElem?_eq_some_iff.mp found).1
    have mapped := represents.span_mapped listed
      ((represents.sound _ listed).page_mem inside)
    rw [AddressSpace.read, if_pos mapped, held i byte found]
  · refine List.Pairwise.imp_of_mem ?_ represents.disjoint
    intro left right leftListed rightListed away
    exact ⟨away, (represents.sound left leftListed).apart (represents.sound right rightListed) away⟩
  · intro page
    rw [represents.tiles.covers page]
    simp only [List.mem_map, exists_exists_and_eq_and]
  · exact fun block listed small => (represents.sound block listed).align_dvd small
  · intro request allowed
    obtain ⟨next, served, _⟩ := serve_represents represents allowed
    exact ⟨next, served⟩

/-- A block that is written and then grown over a page, and one that stays mapped after it
was given back; another request is refused. -/
def growRequests : List Request := [
  .alloc ⟨3, 1⟩ (some 0x10000),
  .store ⟨0x10000, ⟨3, 1⟩⟩ 1 0x42,
  .mapOther {3},
  .alloc ⟨8, 8⟩ (some 0x11000),
  .dealloc ⟨0x11000, ⟨8, 8⟩⟩ true,
  .realloc ⟨0x10000, ⟨3, 1⟩⟩ 0x1001 (some 0x20000) false,
  .alloc ⟨8, 8⟩ none]

def serveAllowed (heap : Heap) (request : Request) : Option Heap :=
  if heap.Allowed request then heap.serve request else none

def emptyHeap : Heap := ⟨⟨∅, fun _ => 7⟩, [], [], ∅⟩

theorem allocator_keeps_blocks_grown :
    ∃ heap, Heap.system.Run emptyHeap growRequests heap ∧
      heap.live = [⟨0x20000, ⟨0x1001, 1⟩⟩] ∧ heap.lost = [⟨0x11000, ⟨8, 8⟩⟩] ∧
      heap.space.read 0x20001 = some 0x42 := by
  have evaluated : (TransitionSystem.runLabels serveAllowed emptyHeap growRequests).map
      (·.lost) = some [⟨0x11000, ⟨8, 8⟩⟩] := by
    decide +kernel
  obtain ⟨heap, ran, lost⟩ := Option.map_eq_some_iff.mp evaluated
  have run : Heap.system.Run emptyHeap growRequests heap := by
    refine TransitionSystem.Run.refl.runLabels ?_ ran
    intro before request next served
    exact Option.ite_none_right_eq_some.mp served
  have keeps := allocator_keeps_blocks emptyHeap heap growRequests ⟨rfl, rfl, rfl⟩ run
  have contents : (Contents.after growRequests).map Prod.fst = [⟨0x20000, ⟨0x1001, 1⟩⟩] := by
    decide +kernel
  have first : (Contents.after growRequests).head?.map (fun entry =>
      (entry.1.ptr, entry.2[1]?)) = some (0x20000, some 0x42) := by
    decide +kernel
  obtain ⟨entry, found, read⟩ := Option.map_eq_some_iff.mp first
  obtain ⟨ptr, byte⟩ := Prod.mk.inj read
  have held := (keeps.2.1 entry (List.mem_of_mem_head? found)).2 1 0x42 byte
  rw [ptr] at held
  exact ⟨heap, run, keeps.1.trans contents, lost, held⟩

end DynLinker.Startup
