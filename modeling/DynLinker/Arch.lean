import Mathlib.Logic.Basic

/-! The target architectures that the sources tell apart. -/

set_option autoImplicit false

namespace DynLinker

inductive Arch where
  | x86_64
  | aarch64
  | riscv64
  | other
deriving DecidableEq

end DynLinker
