import DynLinker.Lib.Paging
import DynLinker.Lib.TransitionSystem
import DynLinker.Tls.Layout

/-! The allocator of the replacement loader (`runtime.rs`): every block is a mapping of its
own, and `realloc` copies into a new one. The kernel chooses where it maps, or refuses. -/

set_option autoImplicit false

namespace DynLinker.Startup

open Lib Tls

abbrev Space : Type := AddressSpace 0x1000

/-- The end of the addresses that a program can map. -/
def userSpaceEnd : Nat := 0x7ffffffff000

namespace Space

/-- `mmap` of private anonymous memory; the answer is the kernel's. -/
def mmap (space : Space) (size : Nat) : Option Nat → Option Nat × Space
  | none => (none, space)
  | some address => (some address, space.map ⟨address, size⟩)

/-- The kernel maps whole pages that are free, and never the first one. -/
def Grants (space : Space) (size : Nat) (answer : Option Nat) : Prop :=
  ∀ address ∈ answer, address ≠ 0 ∧ address % 0x1000 = 0 ∧ address + size ≤ userSpaceEnd ∧
    Disjoint (pagesOf 0x1000 ⟨address, size⟩) space.mapped

instance (space : Space) (size : Nat) (answer : Option Nat) :
    Decidable (space.Grants size answer) :=
  inferInstanceAs (Decidable (∀ address ∈ answer, _))

/-- `munmap`: an address inside a page or an empty length is refused, and the kernel may
refuse otherwise, for a mapping that it would have to split. -/
def munmap (space : Space) (address size : Nat) (refused : Bool) : Space :=
  if address % 0x1000 = 0 ∧ size ≠ 0 ∧ refused = false then space.unmap ⟨address, size⟩
  else space

end Space

/-- `alloc`; zero is the null pointer. -/
def alloc (layout : Layout) (answer : Option Nat) (space : Space) : Nat × Space :=
  let size := pageRoundedSize layout
  match space.mmap size answer with
  | (some ptr, space) => (ptr, space)
  | (none, space) => (0, space)

/-- `dealloc` does not look at the kernel's answer. -/
def dealloc (ptr : Nat) (layout : Layout) (refused : Bool) (space : Space) : Space :=
  space.munmap ptr (pageRoundedSize layout) refused

/-- `realloc`; `none` is an access that faults. -/
def realloc (ptr : Nat) (layout : Layout) (newSize : Nat) (answer : Option Nat) (refused : Bool)
    (space : Space) : Option (Nat × Space) :=
  match Layout.fromSizeAlign (max newSize 1) layout.align with
  | none => some (0, space)
  | some newLayout => do
      let (newPtr, space) := alloc newLayout answer space
      if newPtr = 0 then return (0, space)
      let copyLen := min layout.size newSize
      let space ← space.copyBytes ptr newPtr copyLen 0
      return (newPtr, dealloc ptr layout refused space)

/-! ## A program over the allocator -/

structure Block where
  ptr : Nat
  layout : Layout
deriving DecidableEq

/-- The blocks that the program was given and did not give back, those that it gave back
and the kernel did not unmap, and the pages that were not mapped by the allocator. -/
structure Heap where
  space : Space
  live : List Block
  lost : List Block
  foreign : Finset Nat

/-- What the program asks for, with the kernel's answers where it is asked. -/
inductive Request where
  | alloc (layout : Layout) (answer : Option Nat)
  | dealloc (block : Block) (refused : Bool)
  | realloc (block : Block) (newSize : Nat) (answer : Option Nat) (refused : Bool)
  | store (block : Block) (offset : Nat) (byte : UInt8)
  | mapOther (pages : Finset Nat)
  | unmapOther (pages : Finset Nat)

/-- The layout is one that `Layout::from_size_align` returns. -/
def ValidLayout (layout : Layout) : Prop :=
  Layout.fromSizeAlign layout.size layout.align = some layout

instance (layout : Layout) : Decidable (ValidLayout layout) :=
  inferInstanceAs (Decidable (_ = _))

namespace Heap

/-- The new size of a block, where it is one. -/
def resized (block : Block) (newSize : Nat) : Layout := ⟨newSize, block.layout.align⟩

/-- What the contract of an allocator lets a program ask for, and what the kernel may
answer. -/
def Allowed (heap : Heap) : Request → Prop
  | .alloc layout answer => ValidLayout layout ∧
      heap.space.Grants (pageRoundedSize layout) answer
  | .dealloc block _ => block ∈ heap.live
  | .realloc block newSize answer _ => block ∈ heap.live ∧
      ∀ layout ∈ Layout.fromSizeAlign (max newSize 1) block.layout.align,
        heap.space.Grants (pageRoundedSize layout) answer
  | .store block offset _ => block ∈ heap.live ∧ offset < block.layout.size
  | .mapOther pages => Disjoint pages heap.space.mapped
  | .unmapOther pages => pages ⊆ heap.foreign

instance (heap : Heap) : (request : Request) → Decidable (heap.Allowed request)
  | .alloc _ _ => inferInstanceAs (Decidable (_ ∧ _))
  | .dealloc _ _ => inferInstanceAs (Decidable (_ ∈ _))
  | .realloc _ _ _ _ => inferInstanceAs (Decidable (_ ∧ ∀ _ ∈ _, _))
  | .store _ _ _ => inferInstanceAs (Decidable (_ ∧ _))
  | .mapOther _ => inferInstanceAs (Decidable (Disjoint _ _))
  | .unmapOther pages => inferInstanceAs (Decidable (pages ⊆ heap.foreign))

/-- The program keeps what is not null. -/
def keep (heap : Heap) (ptr : Nat) (layout : Layout) (space : Space) : Heap :=
  if ptr = 0 then { heap with space := space }
  else { heap with space := space, live := ⟨ptr, layout⟩ :: heap.live }

/-- The program gives a block back. -/
def giveBack (heap : Heap) (block : Block) (refused : Bool) : Heap :=
  { heap with
    live := heap.live.erase block
    lost := if refused then block :: heap.lost else heap.lost }

/-- Serves a request; `none` is an access that faults. -/
def serve (heap : Heap) : Request → Option Heap
  | .alloc layout answer =>
      let (ptr, space) := alloc layout answer heap.space
      some (heap.keep ptr layout space)
  | .dealloc block refused =>
      let space := dealloc block.ptr block.layout refused heap.space
      some { heap.giveBack block refused with space := space }
  | .realloc block newSize answer refused => do
      let (ptr, space) ← realloc block.ptr block.layout newSize answer refused heap.space
      if ptr = 0 then return { heap with space := space }
      return (heap.giveBack block refused).keep ptr (resized block newSize) space
  | .store block offset byte => do
      let space ← heap.space.write (block.ptr + offset) byte
      return { heap with space := space }
  | .mapOther pages => some { heap with
      space := { heap.space with mapped := heap.space.mapped ∪ pages }
      foreign := heap.foreign ∪ pages }
  | .unmapOther pages => some { heap with
      space := { heap.space with mapped := heap.space.mapped \ pages }
      foreign := heap.foreign \ pages }

def system : TransitionSystem Heap Request where
  initial heap := heap.live = [] ∧ heap.lost = [] ∧ heap.space.mapped = heap.foreign
  step heap request next := heap.Allowed request ∧ heap.serve request = some next

end Heap

/-- The block is given back with this request, and the kernel does not unmap it. -/
inductive Request.Loses : Request → Block → Prop where
  | dealloc (block : Block) : Loses (.dealloc block true) block
  | realloc (block : Block) (newSize : Nat) (answer : Option Nat) :
      Loses (.realloc block newSize answer true) block

/-! ## What a heap is for -/

/-- The bytes of each block, the newest first. -/
abbrev Contents : Type := List (Block × List UInt8)

namespace Contents

def bytesOf (contents : Contents) (block : Block) : List UInt8 :=
  ((contents.find? fun entry => entry.1 = block).map (·.2)).getD []

def forget (contents : Contents) (block : Block) : Contents :=
  contents.eraseP fun entry => entry.1 = block

def put (contents : Contents) (block : Block) (bytes : List UInt8) : Contents :=
  contents.map fun entry => if entry.1 = block then (block, bytes) else entry

/-- What a block of one size holds after it has become one of another size. -/
def fitted (bytes : List UInt8) (size : Nat) : List UInt8 :=
  bytes.take size ++ List.replicate (size - bytes.length) 0

/-- The block moves if there is a layout for it and the kernel maps one. -/
def move (contents : Contents) (block : Block) (newSize : Nat) :
    Option Layout → Option Nat → Contents
  | some _, some ptr =>
      (⟨ptr, Heap.resized block newSize⟩, fitted (contents.bytesOf block) newSize) ::
        contents.forget block
  | _, _ => contents

/-- A new block is zero; a block that moves keeps what fits, and the rest is zero. -/
def apply (contents : Contents) : Request → Contents
  | .alloc layout (some ptr) => (⟨ptr, layout⟩, List.replicate layout.size 0) :: contents
  | .alloc _ none => contents
  | .dealloc block _ => contents.forget block
  | .realloc block newSize answer _ => contents.move block newSize
      (Layout.fromSizeAlign (max newSize 1) block.layout.align) answer
  | .store block offset byte => contents.put block ((contents.bytesOf block).set offset byte)
  | .mapOther _ => contents
  | .unmapOther _ => contents

/-- After all the requests. -/
def after (requests : List Request) : Contents := requests.foldl apply []

end Contents

end DynLinker.Startup
