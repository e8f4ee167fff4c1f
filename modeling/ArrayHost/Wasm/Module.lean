import ArrayHost.Wasm.Source

/-!
# Valid modules

A module whose code refers to functions and globals by their places. `Module.ofSource?` in
`ArrayHost.Wasm.Validation` makes one.
-/

namespace ArrayHost.Wasm

/-- The place of a function. -/
inductive Callee where
  /-- The import with this number. -/
  | imported (i : Nat)
  /-- The module's own function with this number. -/
  | defined (i : Nat)
  deriving DecidableEq

/-- A function of a valid module. -/
structure Func where
  /-- Its type. -/
  type : FuncType
  /-- The types of its local variables, parameters apart. -/
  locals : List ValType
  /-- Its code. -/
  body : Code Callee Nat
  deriving DecidableEq

/-- A valid module. -/
structure Module where
  /-- The imports. -/
  imports : Array Import
  /-- The values that the globals start with. -/
  globals : Array Int32
  /-- The module's own functions. -/
  funcs : Array Func
  /-- The names under which functions are exported. -/
  exports : List (String × Callee)
  /-- The function that runs before the module is used. -/
  start : Option Callee
  deriving DecidableEq

/-- The type of the function at a place, if there is one. -/
def Module.funcType? (m : Module) : Callee → Option FuncType
  | .imported i =>
    match m.imports[i]? with
    | some ⟨_, _, .func type⟩ => some type
    | _ => none
  | .defined i => m.funcs[i]?.map Func.type

/-- The number of parameters of the function at a place. -/
def Module.arity (m : Module) (f : Callee) : Nat :=
  (m.funcType? f).elim 0 fun type => type.params.length

/-- The function that is exported under a name. -/
def Module.exported? (m : Module) (name : String) : Option Callee :=
  m.exports.lookup name

end ArrayHost.Wasm
