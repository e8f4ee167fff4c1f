import ArrayHost.Console.Basic

/-!
# Shared sinks

A growing list of output sinks. Cloning a sink makes another one that writes to the same buffer, so
a sink stands for the family of all that are connected to it by cloning; a new sink starts a family
of its own.
-/

namespace ArrayHost.Console

/-- A list of sinks over a list of buffers. -/
structure Sinks where
  /-- The bytes written to each buffer. -/
  buffers : Array (Array UInt8)
  /-- The buffer of each sink. -/
  family : Array Nat

namespace Sinks

/-- One sink with an empty buffer. -/
def start : Sinks := ⟨#[#[]], #[0]⟩

/-- Adds a sink with an empty buffer of its own; the answer is its number. -/
def add (s : Sinks) : Nat × Sinks :=
  (s.family.size, ⟨s.buffers.push #[], s.family.push s.buffers.size⟩)

/-- Adds a sink that shares the buffer of sink `k`; the answer is its number. -/
def clone? (s : Sinks) (k : Nat) : Option (Nat × Sinks) :=
  s.family[k]?.map fun b => (s.family.size, { s with family := s.family.push b })

/-- Writes bytes through sink `k`; the answer is how many it took, which is all of them. -/
def write? (s : Sinks) (k : Nat) (bytes : List UInt8) : Option (Nat × Sinks) :=
  s.family[k]?.map fun b =>
    (bytes.length, { s with buffers := s.buffers.modify b (· ++ bytes) })

/-- Writes a text through a console whose output is a clone of sink `k`. -/
def print? (s : Sinks) (k : Nat) (text : List Char) : Option Sinks := do
  let b ← s.family[k]?
  let buffer ← s.buffers[b]?
  let (_, console) := (Console.onto buffer).write text
  return { s with buffers := s.buffers.setIfInBounds b console.output.written }

/-- The bytes in the buffer of sink `k`. -/
def bytes? (s : Sinks) (k : Nat) : Option (Array UInt8) :=
  s.family[k]?.bind fun b => s.buffers[b]?

/-- The text in the buffer of sink `k`. -/
def contents? (s : Sinks) (k : Nat) : Option (List Char) :=
  (s.bytes? k).map fun bytes => Text.decode bytes.toList

/-- What can be asked of a list of sinks. -/
inductive Operation where
  /-- Add a sink with a buffer of its own. -/
  | add
  /-- Add a sink that shares the buffer of sink `k`. -/
  | clone (k : Nat)
  /-- Write bytes through sink `k`. -/
  | write (k : Nat) (bytes : List UInt8)
  /-- Write a text through a console on a clone of sink `k`. -/
  | print (k : Nat) (text : List Char)
  /-- Flush sink `k`, which has nothing to do. -/
  | flush (k : Nat)
  /-- Read the bytes in the buffer of sink `k`. -/
  | bytes (k : Nat)
  /-- Read the text in the buffer of sink `k`. -/
  | contents (k : Nat)
  deriving DecidableEq

/-- What an operation answers. -/
inductive Answer where
  /-- Nothing. -/
  | done
  /-- The number of a sink, or of bytes. -/
  | number (n : Nat)
  /-- The bytes of a buffer. -/
  | bytes (bytes : Array UInt8)
  /-- The text of a buffer. -/
  | text (text : List Char)
  deriving DecidableEq

/-- Carries out an operation. There is no answer when the list has no such sink. -/
def perform? (s : Sinks) : Operation → Option (Answer × Sinks)
  | .add =>
    let (n, s) := s.add
    some (.number n, s)
  | .clone k => (s.clone? k).map fun (n, s) => (.number n, s)
  | .write k bytes => (s.write? k bytes).map fun (n, s) => (.number n, s)
  | .print k text => (s.print? k text).map fun s => (.done, s)
  | .flush k => (s.bytes? k).map fun _ => (.done, s)
  | .bytes k => (s.bytes? k).map fun bytes => (.bytes bytes, s)
  | .contents k => (s.contents? k).map fun text => (.text text, s)

end Sinks

end ArrayHost.Console
