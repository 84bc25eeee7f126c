import DynLinker.Lib.TransitionSystem
import DynLinker.Lib.Words
import DynLinker.Tls.BlockAccounting

/-! The thread control block as it lies in memory (`glibc/v2_39/tls.rs`): words at fixed
offsets from the thread pointer, one of them the address of the dynamic thread vector,
which `allocate_dtv` takes from the allocator and `deallocate_tcb` gives back. -/

set_option autoImplicit false

namespace DynLinker.Tls

open Lib

def tcbSelfOffset : Nat := 0x00
def tcbDtvOffset : Nat := 0x08
def tcbThreadSelfOffset : Nat := 0x10
def tcbStackGuardOffset : Nat := 0x28
def tcbPointerGuardOffset : Nat := 0x30

/-- `size_of::<DtvEntry>()`, two words. -/
def dtvEntrySize : Nat := 16

/-- `Layout::array::<DtvEntry>`. -/
def dtvLayout (slots : Nat) : Option Layout := Layout.fromSizeAlign (slots * dtvEntrySize) 8

/-- `saturating_add` of `usize`. -/
def saturatingAdd (left right : Nat) : Nat := min (left + right) (2 ^ usizeBits - 1)

/-- Memory, and what was asked of the allocator for the vectors. -/
structure TcbMemory where
  memory : ByteMemory
  calls : List (HeapCall HeapBlock)

namespace TcbMemory

/-- A `usize` or a pointer. -/
def read (state : TcbMemory) (address : Nat) : Nat := state.memory.word 8 address

def write (state : TcbMemory) (address value : Nat) : TcbMemory :=
  { state with memory := state.memory.writeWord 8 address value }

/-- `alloc_zeroed`, at the address that the allocator chose. -/
def allocZeroed (state : TcbMemory) (layout : Layout) (base : Nat) : TcbMemory where
  memory := state.memory.write base (List.replicate layout.size 0)
  calls := state.calls ++ [.alloc ⟨base, layout⟩]

def dealloc (state : TcbMemory) (base : Nat) (layout : Layout) : TcbMemory :=
  { state with calls := state.calls ++ [.dealloc ⟨base, layout⟩] }

/-- `dtv_entry`: the address of a module's entry. -/
def dtvEntry (state : TcbMemory) (tp id : Nat) : Option Nat :=
  if tp = 0 ∨ id = 0 then none
  else
    let dtv := state.read (tp + tcbDtvOffset)
    if dtv = 0 then none
    else
      let len := state.read (dtv - dtvEntrySize)
      if len < id then none else some (dtv + id * dtvEntrySize)

def dtvValue (state : TcbMemory) (tp id : Nat) : Option Nat := do
  let entry ← state.dtvEntry tp id
  let value := state.read entry
  if value = 0 then none else some value

def setDtvValue (state : TcbMemory) (tp id value toFree : Nat) : Bool × TcbMemory :=
  match state.dtvEntry tp id with
  | none => (false, state)
  | some entry => (true, (state.write entry value).write (entry + 8) toFree)

/-- The vector is given back with the layout that its own count tells. -/
def deallocateTcb (state : TcbMemory) (tp : Nat) : TcbMemory :=
  if tp = 0 then state
  else
    let dtv := state.read (tp + tcbDtvOffset)
    if dtv = 0 then state
    else
      let base := dtv - dtvEntrySize
      let slots := saturatingAdd (state.read base) 2
      let freed := match dtvLayout slots with
        | some layout => state.dealloc base layout
        | none => state
      freed.write (tp + tcbDtvOffset) 0

/-- `allocate_dtv`, with the address of the entry behind the count. -/
def allocateDtv (state : TcbMemory) (base : Nat) : Except Panic (Nat × TcbMemory) := do
  let layout ← expectSome "minimal DTV layout should be valid" (dtvLayout (dtvSlotCount + 2))
  let state := (state.allocZeroed layout base).write base dtvSlotCount
  return (base + dtvEntrySize, state)

/-- The words that `init_tcb` writes. -/
def writeTcb (state : TcbMemory) (tp dtv : Nat) : TcbMemory :=
  let state := state.write (tp + tcbSelfOffset) tp
  let state := state.write (tp + tcbDtvOffset) dtv
  let state := state.write (tp + tcbThreadSelfOffset) tp
  let state := state.write (tp + tcbStackGuardOffset) bootstrapStackGuard
  state.write (tp + tcbPointerGuardOffset) bootstrapPointerGuard

def initTcb (state : TcbMemory) (tp base : Nat) : Except Panic TcbMemory := do
  let (dtv, state) ← (state.deallocateTcb tp).allocateDtv base
  return state.writeTcb tp dtv

/-! ## The memory of the threads -/

/-- The words of the block that this code owns, from the first to the last. -/
def header (tp : Nat) : Region := ⟨tp, tcbPointerGuardOffset + 8⟩

/-- The vector of the thread, as the allocator knows it. -/
def vector (memory : ByteMemory) (tp : Nat) : List HeapBlock :=
  let dtv := memory.word 8 (tp + tcbDtvOffset)
  if dtv = 0 then [] else [⟨dtv - dtvEntrySize, ⟨(dtvSlotCount + 2) * dtvEntrySize, 8⟩⟩]

/-- All memory that belongs to a thread's control block. -/
def footprint (memory : ByteMemory) (tp : Nat) : List Region :=
  header tp :: (vector memory tp).map fun block => ⟨block.ptr, block.layout.size⟩

end TcbMemory

/-- Threads whose storage is in use, with the memory that holds their control blocks. -/
structure ControlBlocks where
  state : TcbMemory
  threads : List Nat

/-- What happens to control blocks. `storage` is zeroed memory with a thread pointer in it,
fresh from an allocator; `store` is every write of other code. -/
inductive ControlAction where
  | storage (base : Nat) (layout : Layout) (tp : Nat)
  | init (tp base : Nat)
  | set (tp id value toFree : Nat)
  | deallocate (tp : Nat)
  | retire (tp : Nat)
  | store (address : Nat) (bytes : List UInt8)
deriving DecidableEq

namespace ControlBlocks

def empty (memory : ByteMemory) : ControlBlocks := ⟨⟨memory, []⟩, []⟩

/-- A region that no control block of these threads uses. -/
def Unused (memory : ByteMemory) (threads : List Nat) (region : Region) : Prop :=
  ∀ tp ∈ threads, ∀ used ∈ TcbMemory.footprint memory tp, region.Apart used

instance (memory : ByteMemory) (threads : List Nat) (region : Region) :
    Decidable (Unused memory threads region) :=
  inferInstanceAs (Decidable (∀ tp ∈ threads, ∀ used ∈ TcbMemory.footprint memory tp, _))

/-- What the callers and the allocators see to. A new vector may lie where the thread's old
one was. -/
def Allowed (blocks : ControlBlocks) : ControlAction → Prop
  | .storage base layout tp => tp ≠ 0 ∧ tp ∉ blocks.threads ∧
      (TcbMemory.header tp).Inside ⟨base, layout.size⟩ ∧ base + layout.size ≤ 2 ^ usizeBits ∧
      Unused blocks.state.memory blocks.threads ⟨base, layout.size⟩
  | .init tp base => tp ∈ blocks.threads ∧ base ≠ 0 ∧
      base + (dtvSlotCount + 2) * dtvEntrySize ≤ 2 ^ usizeBits ∧
      Unused (blocks.state.deallocateTcb tp).memory blocks.threads
        ⟨base, (dtvSlotCount + 2) * dtvEntrySize⟩
  | .set tp _ value toFree => tp ∈ blocks.threads ∧ value < 2 ^ usizeBits ∧
      toFree < 2 ^ usizeBits
  | .deallocate tp => tp ∈ blocks.threads
  | .retire tp => tp ∈ blocks.threads
  | .store address bytes =>
      Unused blocks.state.memory blocks.threads ⟨address, bytes.length⟩

instance (blocks : ControlBlocks) (action : ControlAction) : Decidable (blocks.Allowed action) := by
  cases action <;> simp only [Allowed, Region.Inside] <;> infer_instance

def act (blocks : ControlBlocks) : ControlAction → Except Panic ControlBlocks
  | .storage base layout tp => .ok {
      state := { blocks.state with
        memory := blocks.state.memory.write base (List.replicate layout.size 0) }
      threads := tp :: blocks.threads }
  | .init tp base => do
      let state ← blocks.state.initTcb tp base
      return { blocks with state := state }
  | .set tp id value toFree =>
      .ok { blocks with state := (blocks.state.setDtvValue tp id value toFree).2 }
  | .deallocate tp => .ok { blocks with state := blocks.state.deallocateTcb tp }
  | .retire tp => .ok {
      state := blocks.state.deallocateTcb tp
      threads := blocks.threads.erase tp }
  | .store address bytes => .ok { blocks with
      state := { blocks.state with memory := blocks.state.memory.write address bytes } }

def system : TransitionSystem ControlBlocks ControlAction where
  initial blocks := ∃ memory, blocks = .empty memory
  step blocks action next := blocks.Allowed action ∧ blocks.act action = .ok next

end ControlBlocks

/-- The same on the records of the runtime. -/
def Runtime.control (runtime : Runtime) : ControlAction → Runtime
  | .storage base layout _ => runtime.allocZeroed layout base
  | .init tp _ => runtime.initTcb tp
  | .set tp id value toFree => (runtime.setDtvValue tp id value toFree).getD runtime
  | .deallocate tp => runtime.deallocateTcb tp
  | .retire tp => runtime.deallocateTcb tp
  | .store _ _ => runtime

/-- The records after these calls. -/
def Runtime.controlled (actions : List ControlAction) : Runtime :=
  actions.foldl Runtime.control .new

end DynLinker.Tls
