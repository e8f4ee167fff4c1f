/-!
# Arithmetic on 32-bit words

The binary operations of module code. An operation has a signed and an unsigned form where the two
differ; a comparison answers 1 or 0. Only division can fail: by zero, or when the quotient of the
signed form does not fit.
-/

namespace ArrayHost.Wasm

/-- Why module code stops with a trap. -/
inductive Trap where
  /-- Code marked as unreachable was reached. -/
  | unreachable
  /-- A division or remainder by zero. -/
  | divideByZero
  /-- The quotient of the least number and -1. -/
  | integerOverflow
  /-- Too many calls are active. -/
  | callStackExhausted
  deriving DecidableEq

/-- The text that describes a trap. -/
def Trap.message : Trap → String
  | .unreachable => "wasm trap: wasm `unreachable` instruction executed"
  | .divideByZero => "wasm trap: integer divide by zero"
  | .integerOverflow => "wasm trap: integer overflow"
  | .callStackExhausted => "wasm trap: call stack exhausted"

/-- A binary operation. -/
inductive Binary where
  | add | sub | mul | divS | divU | remS | remU
  | and | or | xor | shl | shrS | shrU
  | eq | ne | ltS | ltU | gtS | gtU | leS | leU | geS | geU
  deriving DecidableEq

/-- A truth value as a word. -/
def ofTruth (holds : Bool) : Int32 :=
  if holds then 1 else 0

/-- The value of a binary operation. Sums and products wrap, signed quotients go toward zero, and a
shift takes its amount modulo 32. -/
def Binary.eval (op : Binary) (x y : Int32) : Except Trap Int32 :=
  let ux := x.toUInt32
  let uy := y.toUInt32
  match op with
  | .add => .ok (x + y)
  | .sub => .ok (x - y)
  | .mul => .ok (x * y)
  | .divS =>
    if y = 0 then .error .divideByZero
    else if x = Int32.minValue ∧ y = -1 then .error .integerOverflow
    else .ok (x / y)
  | .divU => if y = 0 then .error .divideByZero else .ok (ux / uy).toInt32
  | .remS => if y = 0 then .error .divideByZero else .ok (x % y)
  | .remU => if y = 0 then .error .divideByZero else .ok (ux % uy).toInt32
  | .and => .ok (x &&& y)
  | .or => .ok (x ||| y)
  | .xor => .ok (x ^^^ y)
  | .shl => .ok (x <<< y)
  | .shrS => .ok (x >>> y)
  | .shrU => .ok (ux >>> uy).toInt32
  | .eq => .ok (ofTruth (x = y))
  | .ne => .ok (ofTruth (x ≠ y))
  | .ltS => .ok (ofTruth (x < y))
  | .ltU => .ok (ofTruth (ux < uy))
  | .gtS => .ok (ofTruth (y < x))
  | .gtU => .ok (ofTruth (uy < ux))
  | .leS => .ok (ofTruth (x ≤ y))
  | .leU => .ok (ofTruth (ux ≤ uy))
  | .geS => .ok (ofTruth (y ≤ x))
  | .geU => .ok (ofTruth (uy ≤ ux))

end ArrayHost.Wasm
