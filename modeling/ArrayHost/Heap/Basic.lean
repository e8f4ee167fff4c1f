import ArrayHost.Text.Numeral

/-!
# The heap

A heap is a table of integer arrays. An array is named by its handle, which is its position in the
table; arrays grow and change in place but are never removed, so a handle keeps its meaning.

The operations that only look (`array`, `slot`, `position`, `length`, `get`) return what they find.
Those that change the heap (`allocate`, `allocateZeroed`, `push`, `set`) return an `Outcome`: the
result, the heap afterwards and the journal of the change. An operation that is refused leaves the
heap as it was and journals nothing.
-/

namespace ArrayHost

/-- The arrays of one run, in the order of their handles. -/
structure Heap where
  /-- The contents of each array. -/
  arrays : Array (Array Int32)
  deriving DecidableEq

namespace Heap

/-- Why an operation on the heap was refused. -/
inductive Error where
  /-- No array has this handle. -/
  | invalidHandle (handle : Int32)
  /-- The array has no element at this index. -/
  | indexOutOfBounds (index : Int32)
  /-- An array cannot have this many elements. -/
  | negativeSize (size : Int32)
  deriving DecidableEq

/-- The text that describes an error. -/
def Error.message : Error → String
  | .invalidHandle h => "Invalid array handle: " ++ Text.wordText h
  | .indexOutOfBounds i => "Array index out of bounds: " ++ Text.wordText i
  | .negativeSize n => "Can't create a negative size array: " ++ Text.wordText n

/-- The journal of one change to a heap. -/
inductive Entry where
  /-- An array of the given length was added under the handle. -/
  | allocated (handle : Int32) (length : Nat)
  /-- A value was added at the end of an array. -/
  | pushed (handle value : Int32)
  /-- An element of an array was overwritten. -/
  | overwritten (handle index value : Int32)
  deriving DecidableEq

/-- What an operation leaves. -/
structure Outcome (α : Type) where
  /-- The answer, or why the operation was refused. -/
  result : Except Error α
  /-- The heap afterwards. -/
  heap : Heap
  /-- The journal of the operation. -/
  journal : List Entry

/-- The outcome with its answer changed by `f`. -/
def Outcome.map {α β : Type} (f : α → β) (o : Outcome α) : Outcome β :=
  ⟨o.result.map f, o.heap, o.journal⟩

/-- The heap without arrays. -/
def empty : Heap := ⟨#[]⟩

/-- The number of arrays. -/
def size (t : Heap) : Nat := t.arrays.size

/-- The element at a position given as a signed word. -/
def at? {α : Type} (xs : Array α) (i : Int32) : Option α :=
  if 0 ≤ i.toInt then xs[i.toInt.toNat]? else none

/-- The contents of the array with handle `h`. -/
def array (t : Heap) (h : Int32) : Except Error (Array Int32) :=
  match at? t.arrays h with
  | some contents => .ok contents
  | none => .error (.invalidHandle h)

/-- The position in the table that a valid handle names. -/
def slot (t : Heap) (h : Int32) : Except Error Nat :=
  (t.array h).map fun _ => h.toInt.toNat

/-- The number of elements of an array, as a word. -/
def length (t : Heap) (h : Int32) : Except Error Int32 :=
  (t.array h).map fun contents => Int32.ofNat contents.size

/-- Element `i` of an array. The handle is checked before the index. -/
def get (t : Heap) (h i : Int32) : Except Error Int32 := do
  let contents ← t.array h
  match at? contents i with
  | some x => .ok x
  | none => .error (.indexOutOfBounds i)

/-- The position in the table and the position in the array that a valid handle and a valid index
name. -/
def position (t : Heap) (h i : Int32) : Except Error (Nat × Nat) :=
  (t.get h i).map fun _ => (h.toInt.toNat, i.toInt.toNat)

/-- The outcome of an operation that changes nothing. -/
def unchanged {α : Type} (t : Heap) (result : Except Error α) : Outcome α :=
  ⟨result, t, []⟩

/-- Adds an array; the answer is its handle. -/
def allocate (t : Heap) (contents : Array Int32) : Outcome Int32 :=
  let handle := Int32.ofNat t.size
  let length := contents.size
  ⟨.ok handle, ⟨t.arrays.push contents⟩, [.allocated handle length]⟩

/-- Adds an array of `n` zeroes; the answer is its handle. -/
def allocateZeroed (t : Heap) (n : Int32) : Outcome Int32 :=
  if n.toInt < 0 then t.unchanged (.error (.negativeSize n))
  else
    -- There is room for one element more, so the first one that is added moves nothing.
    t.allocate (Array.replicate (n.toInt.toNat + 1) 0).pop

/-- Adds `x` at the end of an array. -/
def push (t : Heap) (h x : Int32) : Outcome Unit :=
  match t.slot h with
  | .error e => t.unchanged (.error e)
  | .ok s => ⟨.ok (), ⟨t.arrays.modify s (·.push x)⟩, [.pushed h x]⟩

/-- Overwrites element `i` of an array. -/
def set (t : Heap) (h i x : Int32) : Outcome Unit :=
  match t.position h i with
  | .error e => t.unchanged (.error e)
  | .ok (s, k) => ⟨.ok (), ⟨t.arrays.modify s (·.setIfInBounds k x)⟩, [.overwritten h i x]⟩

end Heap

end ArrayHost
