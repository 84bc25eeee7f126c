import DynLinker.Lib.MachineWord

/-! The layout of thread-local storage in the replacement loader (`tls.rs`): static
blocks grow downwards from the thread pointer, with the rseq area below the last one. -/

set_option autoImplicit false

namespace DynLinker.Tls

open Lib

def usizeBits : Nat := 64

def staticTlsArenaSize : Nat := 1024 * 1024
def tlsTcbSize : Nat := 2368
def tlsTcbAlign : Nat := 64
def rseqAreaSize : Nat := 32
def rseqAreaAlign : Nat := 32
def rseqCpuIdOffset : Nat := 4
/-- `(-2i32) as u32`, byte by byte. -/
def rseqCpuIdRegistrationFailed : List UInt8 := [0xfe, 0xff, 0xff, 0xff]

def alignUp (value align : Nat) : Option Nat :=
  (checkedAdd usizeBits value (align - 1)).map fun raised => clearLow usizeBits raised align

def staticModuleEnd (used memsz vaddr align : Nat) : Option Nat := do
  let firstbyte := ((2 ^ usizeBits - vaddr) % 2 ^ usizeBits) &&& (align - 1)
  let minEnd ← checkedAdd usizeBits used memsz
  let aligned ← alignUp (minEnd - firstbyte) align
  let finish ← checkedAdd usizeBits aligned firstbyte
  if finish < minEnd then checkedAdd usizeBits finish align else some finish

def staticUsedWithRseq (used : Nat) : Option Nat := do
  let aligned ← alignUp used rseqAreaAlign
  checkedAdd usizeBits aligned rseqAreaSize

def isizeMax : Nat := 2 ^ 63 - 1

def staticRseqOffset (used : Nat) : Option Int := do
  let offset ← staticUsedWithRseq used
  if offset ≤ isizeMax then some (-(offset : Int)) else none

/-- `core::alloc::Layout`. -/
structure Layout where
  size : Nat
  align : Nat
deriving DecidableEq

/-- The size, rounded up to the alignment, may not exceed `isize::MAX`. -/
def Layout.fromSizeAlign (size align : Nat) : Option Layout :=
  if (∃ low < usizeBits, align = 2 ^ low) ∧ size + (align - 1) ≤ isizeMax then some ⟨size, align⟩
  else none

/-- `page_rounded_size`: what the allocator maps for a layout. -/
def pageRoundedSize (layout : Layout) : Nat :=
  clearLow usizeBits (max layout.size layout.align + 0xfff) 0x1000

end DynLinker.Tls
