import ArrayHost.Heap.Basic
import ArrayHost.Console.Basic

/-!
# Fatal errors

A host function that fails ends the run. The error names the function and says what went wrong.
-/

namespace ArrayHost

/-- What went wrong in a host function. -/
inductive Fatal.Kind where
  /-- The heap refused the operation. -/
  | heap (error : Heap.Error)
  /-- The console failed. -/
  | console (error : Console.Error)
  deriving DecidableEq

/-- The text that describes what went wrong. -/
def Fatal.Kind.message : Fatal.Kind → String
  | .heap e => e.message
  | .console e => e.message

/-- The failure of a host function. -/
structure Fatal where
  /-- The name of the function. -/
  function : String
  /-- What went wrong in it. -/
  kind : Fatal.Kind
  deriving DecidableEq

/-- The text that describes the failure. -/
def Fatal.message (f : Fatal) : String :=
  "Runtime error in function " ++ f.function ++ ". " ++ f.kind.message

end ArrayHost
