import Mathlib.Data.List.Perm.Basic

/-! The calls of an allocator that a program makes, and the blocks that they leave
allocated. A call that gives back a block that is not allocated has no meaning. -/

set_option autoImplicit false

namespace DynLinker.Lib

universe u

inductive HeapCall (Block : Type u) where
  | alloc (block : Block)
  | dealloc (block : Block)
deriving DecidableEq

variable {Block : Type u} [DecidableEq Block]

def HeapCall.apply (allocated : List Block) : HeapCall Block → Option (List Block)
  | .alloc block => some (allocated ++ [block])
  | .dealloc block => if block ∈ allocated then some (allocated.erase block) else none

/-- The blocks that are allocated after the calls. -/
def replay (allocated : List Block) (calls : List (HeapCall Block)) : Option (List Block) :=
  calls.foldlM HeapCall.apply allocated

theorem replay_append (allocated : List Block) (early late : List (HeapCall Block)) :
    replay allocated (early ++ late) = (replay allocated early).bind fun middle =>
      replay middle late :=
  List.foldlM_append

theorem replay_alloc (allocated : List Block) (block : Block) :
    replay allocated [.alloc block] = some (allocated ++ [block]) :=
  rfl

/-- Giving back some of the allocated blocks leaves the others. -/
theorem replay_deallocs {freed allocated rest : List Block}
    (split : allocated.Perm (freed ++ rest)) :
    ∃ left, replay allocated (freed.map .dealloc) = some left ∧ left.Perm rest := by
  induction freed generalizing allocated with
  | nil => exact ⟨allocated, rfl, split⟩
  | cons block others ih =>
      have listed : block ∈ allocated := split.mem_iff.mpr List.mem_cons_self
      have erased : (allocated.erase block).Perm (others ++ rest) := by
        have both := split.erase block
        rwa [List.cons_append, List.erase_cons_head] at both
      obtain ⟨left, replayed, same⟩ := ih erased
      refine ⟨left, ?_, same⟩
      rw [List.map_cons, replay, List.foldlM_cons, HeapCall.apply, if_pos listed]
      exact replayed

/-- A block that is given back at once leaves what was there before. -/
theorem replay_alloc_dealloc (allocated : List Block) (block : Block) :
    ∃ left, replay allocated [.alloc block, .dealloc block] = some left ∧ left.Perm allocated := by
  have split : (allocated ++ [block]).Perm ([block] ++ allocated) :=
    List.perm_append_singleton block allocated
  exact replay_deallocs split

end DynLinker.Lib
