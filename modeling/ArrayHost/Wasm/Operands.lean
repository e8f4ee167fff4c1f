import ArrayHost.Wasm.Type

/-!
# Operand types

The types of the operands on the stack, as far as they are known. Code that cannot be reached may
take any operands, so after a branch the stack below the known operands is open: it yields operands
of unknown type without end.
-/

namespace ArrayHost.Wasm

/-- The types of the operands, the top one first. A type may be unknown. -/
structure Operands where
  /-- The types of the operands pushed since the stack was last opened. -/
  known : List (Option ValType)
  /-- Whether operands of any type lie below them. -/
  isOpen : Bool
  deriving DecidableEq

namespace Operands

/-- No operands. -/
def empty : Operands := ⟨[], false⟩

/-- Any operands, where code cannot be reached. -/
def unreachable : Operands := ⟨[], true⟩

/-- Pushes operands of the given types, the last one on top. -/
def push (s : Operands) (types : List ValType) : Operands :=
  { s with known := types.reverse.map some ++ s.known }

/-- Pops an operand of any type; the answer is its type, if that is known. -/
def popAny? (s : Operands) : Option (Option ValType × Operands) :=
  match s.known with
  | t :: known => some (t, { s with known })
  | [] => if s.isOpen then some (none, s) else none

/-- Pops an operand of type `t`. -/
def pop? (s : Operands) (t : ValType) : Option Operands :=
  s.popAny?.bind fun (found, s) => if found.getD t = t then some s else none

/-- Pops operands of the given types, of which the last is on top. -/
def popAll? (s : Operands) (types : List ValType) : Option Operands :=
  types.reverse.foldlM pop? s

/-- The operands are exactly results of the given types. -/
def yields (s : Operands) (results : List ValType) : Bool :=
  match s.popAll? results with
  | some rest => rest.known.isEmpty
  | none => false

end Operands

end ArrayHost.Wasm
