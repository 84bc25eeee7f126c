import Mathlib.Data.List.Basic

/-! The crate's error type (`error.rs`). Errors of the ELF loader and of the
operating system are kept as the text they display. -/

set_option autoImplicit false

namespace DynLinker

inductive Error where
  | loaderError (text : String)
  | findLibError (msg : String)
  | findSymbolError (msg : String)
  | parseLdCacheError (msg : String)
  | unsupported
  | io (text : String)
deriving DecidableEq, Repr

/-- `Display for Error`. -/
def Error.display : Error → String
  | .loaderError text => text
  | .findLibError msg => msg
  | .findSymbolError msg => msg
  | .parseLdCacheError msg => msg
  | .unsupported => "unsupported"
  | .io text => "IO error: " ++ text

end DynLinker
