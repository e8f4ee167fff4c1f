/-!
# Types and values

The types of values, the types of functions, and the values themselves.
-/

namespace ArrayHost.Wasm

/-- The type of a value. -/
inductive ValType where
  /-- A 32-bit integer. -/
  | i32
  /-- A 64-bit integer. -/
  | i64
  /-- A 32-bit floating-point number. -/
  | f32
  /-- A 64-bit floating-point number. -/
  | f64
  /-- A vector of 128 bits. -/
  | v128
  /-- A reference to a function. -/
  | funcref
  /-- A reference to something of the host. -/
  | externref
  deriving DecidableEq

/-- The name of a type in module text. -/
def ValType.name : ValType → String
  | .i32 => "i32"
  | .i64 => "i64"
  | .f32 => "f32"
  | .f64 => "f64"
  | .v128 => "v128"
  | .funcref => "funcref"
  | .externref => "externref"

/-- The type is that of references. -/
def ValType.isReference : ValType → Bool
  | .funcref | .externref => true
  | _ => false

/-- The type of a function. -/
structure FuncType where
  /-- The types of the parameters, in order. -/
  params : List ValType
  /-- The types of the results, in order. -/
  results : List ValType
  deriving DecidableEq

/-- A value. Module code only computes with integers: it hands numbers of other kinds on by their
bits, and the only reference that it can have is the null one. -/
inductive Value where
  /-- A 32-bit integer. -/
  | i32 (x : Int32)
  /-- A 64-bit integer. -/
  | i64 (x : Int64)
  /-- The bits of a 32-bit floating-point number. -/
  | f32 (bits : UInt32)
  /-- The bits of a 64-bit floating-point number. -/
  | f64 (bits : UInt64)
  /-- A vector of 128 bits. -/
  | v128 (bits : BitVec 128)
  /-- A reference to nothing. -/
  | null
  deriving DecidableEq

/-- The value that a local variable of the given type starts with. -/
def ValType.zero : ValType → Value
  | .i32 => .i32 0
  | .i64 => .i64 0
  | .f32 => .f32 0
  | .f64 => .f64 0
  | .v128 => .v128 0
  | .funcref | .externref => .null

end ArrayHost.Wasm
