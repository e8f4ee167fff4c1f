import ArrayHost.Wasm.Type

/-!
# The host interface

The functions that a module may import from the host: their names, how many 32-bit parameters each
takes, and whether it answers with a 32-bit result. `declaration` and `preamble` write the imports
as module text.
-/

namespace ArrayHost

/-- A function that the host offers. -/
structure HostFunction where
  /-- The name under which it is imported. -/
  name : String
  /-- The number of its parameters. -/
  params : Nat
  /-- Whether it has a result. -/
  returnsValue : Bool
  deriving DecidableEq

namespace HostFunction

/-- The import declaration of a function in module text. The name is not escaped. -/
def declaration (module : String) (f : HostFunction) : String :=
  let params := if f.params = 0 then "" else
    " (param" ++ String.join (List.replicate f.params " i32") ++ ")"
  let result := if f.returnsValue then " (result i32)" else ""
  "(import \"" ++ module ++ "\" \"" ++ f.name ++ "\" (func $" ++ f.name ++ params ++ result ++ "))"

/-- The type of a function: every parameter and result is a 32-bit integer. -/
def type (f : HostFunction) : Wasm.FuncType where
  params := List.replicate f.params .i32
  results := if f.returnsValue then [.i32] else []

end HostFunction

namespace Interface

/-- The module that the host functions are imported from. -/
def moduleName : String := "drac"

/-- The functions that the host offers, in the order of their declarations. -/
def functions : List HostFunction :=
  [⟨"printi", 1, true⟩, ⟨"printc", 1, true⟩, ⟨"prints", 1, true⟩, ⟨"println", 0, true⟩,
    ⟨"readi", 0, true⟩, ⟨"reads", 0, true⟩, ⟨"new", 1, true⟩, ⟨"size", 1, true⟩,
    ⟨"add", 2, true⟩, ⟨"get", 2, true⟩, ⟨"set", 3, false⟩]

/-- The function that the host offers under a name. -/
def find? (name : String) : Option HostFunction :=
  functions.find? fun f => f.name = name

/-- The declarations of all functions, one on a line. -/
def preamble : String :=
  String.join (functions.map fun f => f.declaration moduleName ++ "\n")

end Interface

end ArrayHost
