import DynLinker.Lib.Bytes
import DynLinker.Lib.TransitionSystem

/-! The pending error of a thread (`api/dlerror.rs`), in both builds: a thread-local with
the standard library, a map keyed by the thread pointer without it. -/

set_option autoImplicit false

namespace DynLinker.Api

open Lib

/-- A string without interior NUL bytes. -/
structure CString where
  bytes : Bytes
  noNul : 0 ∉ bytes
deriving DecidableEq

def questionMark : UInt8 := 0x3f

/-- `error_message`: the displayed error with every NUL replaced. -/
def errorMessage (text : Bytes) : CString where
  bytes := text.map fun byte => if byte = 0 then questionMark else byte
  noNul := by
    intro member
    obtain ⟨byte, _, replaced⟩ := List.mem_map.mp member
    split at replaced
    · cases replaced
    · next nonzero => exact nonzero replaced

structure DlErrorState where
  pending : Option CString
  returned : Option CString
deriving DecidableEq

namespace DlErrorState

def new : DlErrorState := ⟨none, none⟩

def withError (error : CString) : DlErrorState := ⟨some error, none⟩

/-- The answer is what the returned pointer points to; `none` is the null pointer. -/
def take (state : DlErrorState) : Option CString × DlErrorState :=
  (state.pending, ⟨none, state.pending⟩)

end DlErrorState

/-- A thread. Its id is never used again; its pointer is the address of its control block,
which a later thread may get. -/
structure Thread where
  id : Nat
  pointer : Nat
deriving DecidableEq

/-- The thread-local `DLERROR`, by thread. -/
abbrev StdErrors : Type := Nat → DlErrorState

namespace StdErrors

def initial : StdErrors := fun _ => .new

def clear (errors : StdErrors) (thread : Thread) : StdErrors :=
  Function.update errors thread.id .new

def set (errors : StdErrors) (thread : Thread) (text : Bytes) : StdErrors :=
  Function.update errors thread.id (.withError (errorMessage text))

def take (errors : StdErrors) (thread : Thread) : Option CString × StdErrors :=
  ((errors thread.id).take.1, Function.update errors thread.id (errors thread.id).take.2)

end StdErrors

/-- The `BTreeMap` behind the mutex, by thread pointer. -/
abbrev NoStdErrors : Type := Nat → Option DlErrorState

namespace NoStdErrors

def initial : NoStdErrors := fun _ => none

def clear (errors : NoStdErrors) (thread : Thread) : NoStdErrors :=
  Function.update errors thread.pointer none

def set (errors : NoStdErrors) (thread : Thread) (text : Bytes) : NoStdErrors :=
  Function.update errors thread.pointer (some (.withError (errorMessage text)))

/-- An entry without a pending error is removed. -/
def take (errors : NoStdErrors) (thread : Thread) : Option CString × NoStdErrors :=
  match errors thread.pointer with
  | none => (none, errors)
  | some state =>
      match state.take with
      | (none, _) => (none, Function.update errors thread.pointer none)
      | (some error, next) => (some error, Function.update errors thread.pointer (some next))

/-- What the next `dlerror` under this pointer would report. -/
def pending (errors : NoStdErrors) (pointer : Nat) : Option CString :=
  (errors pointer).bind DlErrorState.pending

end NoStdErrors

end DynLinker.Api
