import ArrayHost.Session
import ArrayHost.Wasm.Module

/-!
# Linking

The host functions as module code sees them. A binding gives the type under which a function is
linked and makes a `Call` of the operands it is called with. A module is linked when each of its
imports is a function that a binding offers under the same name and with exactly the same type.
-/

namespace ArrayHost.Wasm

/-- A host function that is offered to modules. -/
structure Binding where
  /-- The module that it belongs to. -/
  module : String
  /-- Its name there. -/
  name : String
  /-- Its type. -/
  type : FuncType
  /-- The call that it makes of its operands, if they have the types of its parameters. -/
  call? : List Value → Option Call

namespace Binding

/-- A function without parameters. -/
def nullary (name : String) (call : Call) (results : List ValType) : Binding where
  module := Interface.moduleName
  name := name
  type := ⟨[], results⟩
  call?
    | [] => some call
    | _ => none

/-- A function of one word. -/
def unary (name : String) (call : Int32 → Call) (results : List ValType) : Binding where
  module := Interface.moduleName
  name := name
  type := ⟨[.i32], results⟩
  call?
    | [.i32 x] => some (call x)
    | _ => none

/-- A function of two words. -/
def binary (name : String) (call : Int32 → Int32 → Call) (results : List ValType) : Binding where
  module := Interface.moduleName
  name := name
  type := ⟨[.i32, .i32], results⟩
  call?
    | [.i32 x, .i32 y] => some (call x y)
    | _ => none

/-- A function of three words. -/
def ternary (name : String) (call : Int32 → Int32 → Int32 → Call) (results : List ValType) :
    Binding where
  module := Interface.moduleName
  name := name
  type := ⟨[.i32, .i32, .i32], results⟩
  call?
    | [.i32 x, .i32 y, .i32 z] => some (call x y z)
    | _ => none

/-- All functions that are offered to modules. -/
def all : List Binding :=
  [unary "printi" .printi [.i32], unary "printc" .printc [.i32], unary "prints" .prints [.i32],
    nullary "println" .println [.i32], nullary "readi" .readi [.i32],
    nullary "reads" .reads [.i32], unary "new" .new [.i32], unary "size" .size [.i32],
    binary "add" .add [.i32], binary "get" .get [.i32], ternary "set" .set []]

/-- The function that is offered under a name in a module. -/
def find? (module name : String) : Option Binding :=
  all.find? fun b => b.module = module ∧ b.name = name

end Binding

/-- The host function that an import is linked to. -/
def Import.link? (i : Import) : Option Binding := do
  let .func type := i.kind | none
  let b ← Binding.find? i.module i.name
  guard (b.type = type)
  return b

/-- The host functions that the imports of a module are linked to. -/
def Module.link? (m : Module) : Option (Array Binding) :=
  m.imports.mapM Import.link?

end ArrayHost.Wasm
