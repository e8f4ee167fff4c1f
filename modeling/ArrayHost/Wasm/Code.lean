import ArrayHost.Wasm.Type
import ArrayHost.Wasm.Arithmetic

/-!
# Module code

Code is a sequence of instructions in which blocks, loops and conditionals hold code of their own.
Functions and globals are referred to by `F` and `G`: by name in a module's source, by place in a
valid module.
-/

namespace ArrayHost.Wasm

/-- An instruction that only computes on locals, operands and globals. -/
inductive Instr (G : Type) where
  /-- Push a 32-bit literal. -/
  | const32 (n : Int)
  /-- Push a 64-bit literal. -/
  | const64 (n : Int)
  /-- Push a local. -/
  | localGet (i : Nat)
  /-- Pop into a local. -/
  | localSet (i : Nat)
  /-- Copy the top operand into a local. -/
  | localTee (i : Nat)
  /-- Push a global. -/
  | globalGet (g : G)
  /-- Pop into a global. -/
  | globalSet (g : G)
  /-- Pop an operand. -/
  | drop
  /-- Pop a condition and two operands, and push the first of the two if the condition is not zero
  and the second otherwise. -/
  | select
  /-- Do nothing. -/
  | nop
  /-- Replace the top operand by whether it is zero. -/
  | eqz
  /-- Replace two operands by the value of an operation on them. -/
  | binary (op : Binary)
  deriving DecidableEq

/-- A sequence of instructions. Each form but `done` holds the code that comes after it. -/
inductive Code (F G : Type) where
  /-- The end of the sequence. -/
  | done
  /-- An instruction that only computes. -/
  | instr (i : Instr G) (next : Code F G)
  /-- Call a function. -/
  | call (f : F) (next : Code F G)
  /-- Leave the enclosing labels up to the given one, counted from the innermost. -/
  | br (label : Nat) (next : Code F G)
  /-- Pop a condition, and leave as `br` does if it is not zero. -/
  | brIf (label : Nat) (next : Code F G)
  /-- Leave the function. -/
  | leave (next : Code F G)
  /-- Trap. -/
  | unreachable (next : Code F G)
  /-- Code whose label is at its end. -/
  | block (body next : Code F G)
  /-- Code whose label is at its start. -/
  | loop (body next : Code F G)
  /-- Pop a condition, and run `yes` if it is not zero and `no` otherwise. The label is at the end,
  where the results are. -/
  | cond (results : List ValType) (yes no next : Code F G)
  deriving DecidableEq

end ArrayHost.Wasm
