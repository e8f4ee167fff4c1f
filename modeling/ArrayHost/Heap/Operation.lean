import ArrayHost.Heap.Basic

/-!
# Operations on a heap

`Operation` lists what can be asked of a heap and `Heap.perform` carries it out: the result, the
heap afterwards and the journal entries. A sequence of operations continues after a failure.
-/

namespace ArrayHost.Heap

/-- An operation on a heap with its arguments. -/
inductive Operation where
  /-- Add an array with these contents. -/
  | allocate (contents : Array Int32)
  /-- Add an array of `n` zeroes. -/
  | allocateZeroed (n : Int32)
  /-- Check a handle. -/
  | slot (h : Int32)
  /-- Check a handle and an index into its array. -/
  | position (h i : Int32)
  /-- Read a whole array. -/
  | array (h : Int32)
  /-- Read the number of elements of an array. -/
  | length (h : Int32)
  /-- Add a value at the end of an array. -/
  | push (h x : Int32)
  /-- Read an element. -/
  | get (h i : Int32)
  /-- Overwrite an element. -/
  | set (h i x : Int32)
  deriving DecidableEq

/-- What an operation answers. -/
inductive Answer where
  /-- Nothing. -/
  | done
  /-- A handle, a length or an element. -/
  | word (value : Int32)
  /-- A position in the table. -/
  | slot (slot : Nat)
  /-- A position in the table and one in the array there. -/
  | position (slot index : Nat)
  /-- The contents of an array. -/
  | contents (contents : Array Int32)
  deriving DecidableEq

/-- Carries out an operation. -/
def perform (t : Heap) : Operation → Outcome Answer
  | .allocate contents => (t.allocate contents).map .word
  | .allocateZeroed n => (t.allocateZeroed n).map .word
  | .slot h => t.unchanged ((t.slot h).map .slot)
  | .position h i => t.unchanged ((t.position h i).map fun (s, k) => .position s k)
  | .array h => t.unchanged ((t.array h).map .contents)
  | .length h => t.unchanged ((t.length h).map .word)
  | .push h x => (t.push h x).map fun _ => .done
  | .get h i => t.unchanged ((t.get h i).map .word)
  | .set h i x => (t.set h i x).map fun _ => .done

end ArrayHost.Heap
