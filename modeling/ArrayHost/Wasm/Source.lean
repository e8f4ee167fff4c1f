import ArrayHost.Wasm.Code
import ArrayHost.Interface

/-!
# Module source

A module as it is written: functions and globals are referred to by name, and nothing has been
checked.

Modules are given as terms of `Source`. The parsers of the text form and of the binary form are not
part of this library: `Source.ofBytes?` knows the bytes of the empty module in both forms and no
other file, so all that the command line loads from a file is the empty module.
-/

namespace ArrayHost.Wasm

/-- What an import asks for. -/
inductive ImportKind where
  /-- A function of the given type. -/
  | func (type : FuncType)
  /-- A global, a memory or a table. -/
  | other
  deriving DecidableEq

/-- An import of a module. -/
structure Import where
  /-- The module that it is imported from. -/
  module : String
  /-- The name that it has there. -/
  name : String
  /-- What it is. -/
  kind : ImportKind
  deriving DecidableEq

namespace Source

/-- A function as it is written. -/
structure Func where
  /-- The name that code refers to it by. -/
  name : String
  /-- Its type. -/
  type : FuncType
  /-- The types of its local variables, parameters apart. -/
  locals : List ValType
  /-- Its code. -/
  body : Code String String
  deriving DecidableEq

/-- The kind of thing that an export offers. -/
inductive ExportKind where
  | func
  | global
  deriving DecidableEq

/-- An export as it is written. -/
structure Export where
  /-- The name that it is offered under. -/
  name : String
  /-- The name of what it offers. -/
  target : String
  /-- The kind of what it offers. -/
  kind : ExportKind
  deriving DecidableEq

end Source

/-- A module as it is written. -/
structure Source where
  /-- The imports, each with the name that code refers to it by, if it has one. -/
  imports : List (Import × Option String)
  /-- The names of the globals and the literals that they start with. -/
  globals : List (String × Int)
  /-- The functions. -/
  funcs : List Source.Func
  /-- The exports. -/
  exports : List Source.Export
  /-- The name of the function that runs before the module is used. -/
  start : Option String
  deriving DecidableEq

namespace Source

/-- The module that holds nothing. -/
def empty : Source := ⟨[], [], [], [], none⟩

/-- The imports of all host functions, each referred to by its own name. -/
def hostImports : List (Import × Option String) :=
  Interface.functions.map fun f => (⟨Interface.moduleName, f.name, .func f.type⟩, some f.name)

/-- The module in a file that holds module text or a binary module. Of module text, `(module)` is
known; of binary modules, the header with nothing after it. Both are the empty module. -/
def ofBytes? (bytes : List UInt8) : Option Source :=
  if bytes = [0x00, 0x61, 0x73, 0x6D, 0x01, 0x00, 0x00, 0x00] then some empty
  else if bytes = "(module)".toUTF8.toList then some empty
  else none

end Source

end ArrayHost.Wasm
