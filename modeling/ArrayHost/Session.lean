import ArrayHost.Heap.Basic
import ArrayHost.Console.Basic
import ArrayHost.Record
import ArrayHost.Text.CodePoint

/-!
# Sessions

A session is the state that the host functions of one run share: the heap, the console and the log.
`Call` lists the functions with their arguments, and `Session.call` carries one out. A call that
fails answers with a `Fatal` that names the function; the session afterwards holds what was done
before the failure.
-/

namespace ArrayHost

/-- A call of a host function. -/
inductive Call where
  /-- Print a number in decimal. -/
  | printi (i : Int32)
  /-- Print the character with code point `c`. -/
  | printc (c : Int32)
  /-- Print the characters of array `h`. -/
  | prints (h : Int32)
  /-- Print a newline. -/
  | println
  /-- Read the next line that holds an integer. -/
  | readi
  /-- Read a line into a new array. -/
  | reads
  /-- Make an array of `n` zeroes. -/
  | new (n : Int32)
  /-- Read the number of elements of array `h`. -/
  | size (h : Int32)
  /-- Add `x` at the end of array `h`. -/
  | add (h x : Int32)
  /-- Read element `i` of array `h`. -/
  | get (h i : Int32)
  /-- Overwrite element `i` of array `h` with `x`. -/
  | set (h i x : Int32)
  deriving DecidableEq

/-- The name of the function that is called. -/
def Call.name : Call → String
  | .printi _ => "printi"
  | .printc _ => "printc"
  | .prints _ => "prints"
  | .println => "println"
  | .readi => "readi"
  | .reads => "reads"
  | .new _ => "new"
  | .size _ => "size"
  | .add _ _ => "add"
  | .get _ _ => "get"
  | .set _ _ _ => "set"

/-- The state that the host functions of one run share. -/
structure Session where
  /-- The arrays of the run. -/
  heap : Heap
  /-- The streams of the run. -/
  console : Console
  /-- The records of the run, in order. -/
  log : Array Record
  deriving DecidableEq

namespace Session

/-- The session at the beginning of a run, on the given console. -/
def start (console : Console) : Session :=
  ⟨.empty, console, #[]⟩

/-- Adds a record to the log. -/
def report (s : Session) (record : Record) : Session :=
  { s with log := s.log.push record }

/-- Carries out an operation on the heap and journals it. -/
def change {α : Type} (s : Session) (operation : Heap → Heap.Outcome α) :
    Except Fatal.Kind α × Session :=
  match s with
  | { heap, console, log } =>
    let ⟨result, heap, journal⟩ := operation heap
    (result.mapError .heap, { heap, console, log := log ++ journal.map Record.heap })

/-- Looks something up in the heap. -/
def look {α : Type} (s : Session) (result : Except Heap.Error α) : Except Fatal.Kind α × Session :=
  (result.mapError .heap, s)

/-- Writes a text to the console. -/
def write (s : Session) (text : List Char) : Except Fatal.Kind Unit × Session :=
  match s with
  | { heap, console, log } =>
    let (result, console) := console.write text
    (result.mapError .console, { heap, console, log })

/-- Writes the characters with the given code points. Each number that has no character is reported
before anything is written. -/
def writeCodes (s : Session) (codes : List Int32) : Except Fatal.Kind Unit × Session :=
  let warnings := (Text.invalidCodes codes).map Record.invalidCodePoint
  { s with log := s.log ++ warnings }.write (codes.map Text.shownCharacter)

/-- Reads a line from the console. -/
def readLine (s : Session) : Except Fatal.Kind (List Char) × Session :=
  match s with
  | { heap, console, log } =>
    let (result, console) := console.readLine
    (result.mapError .console, { heap, console, log })

/-- A line that is read makes the unread input shorter. -/
theorem unread_readLine_lt {s : Session} {line : List Char} (h : s.readLine.1 = .ok line) :
    s.readLine.2.console.input.unread.length < s.console.input.unread.length := by
  change s.console.readLine.1.mapError _ = _ at h
  refine @Console.unread_readLine_lt s.console line ?_
  cases hline : s.console.readLine.1 with
  | error e =>
    rw [hline] at h
    cases h
  | ok l =>
    rw [hline] at h
    cases h
    rfl

/-- Reads lines until one holds an integer. The lines before it are reported and skipped. -/
def readInteger (s : Session) : Except Fatal.Kind Int32 × Session :=
  match _h : s.readLine with
  | (.error kind, after) => (.error kind, after)
  | (.ok line, after) =>
    match Text.readInteger? line with
    | some value => (.ok value, after)
    | none => readInteger (after.report (.skippedLine line))
termination_by s.console.input.unread.length
decreasing_by
  have := @unread_readLine_lt s line (by rw [_h])
  simpa [_h, report] using this

/-- Reads a line into a new array of its code points; the answer is the handle. -/
def readText (s : Session) : Except Fatal.Kind Int32 × Session :=
  match s.readLine with
  | (.error kind, s) => (.error kind, s)
  | (.ok line, s) => s.change (·.allocate (line.toArray.map Text.codePoint))

/-- Carries out a call. A function that only acts answers 0, except `set`, which answers nothing. -/
def attempt (s : Session) : Call → Except Fatal.Kind (Option Int32) × Session
  | .printi i => answer (fun _ => some 0) (s.write (Text.numeral i.toInt))
  | .printc c => answer (fun _ => some 0) (s.writeCodes [c])
  | .prints h =>
    match s.heap.array h with
    | .error e => (.error (.heap e), s)
    | .ok contents => answer (fun _ => some 0) (s.writeCodes contents.toList)
  | .println => answer (fun _ => some 0) (s.write ['\n'])
  | .readi => answer some s.readInteger
  | .reads => answer some s.readText
  | .new n => answer some (s.change (·.allocateZeroed n))
  | .size h => answer some (s.look (s.heap.length h))
  | .add h x => answer (fun _ => some 0) (s.change (·.push h x))
  | .get h i => answer some (s.look (s.heap.get h i))
  | .set h i x => answer (fun _ => none) (s.change (·.set h i x))
where
  /-- The answer of a function, from what it found. -/
  answer {α : Type} (f : α → Option Int32) (r : Except Fatal.Kind α × Session) :
      Except Fatal.Kind (Option Int32) × Session :=
    (r.1.map f, r.2)

/-- Carries out a call; a failure names the function. -/
def call (s : Session) (c : Call) : Except Fatal (Option Int32) × Session :=
  let (result, s) := s.attempt c
  (result.mapError (⟨c.name, ·⟩), s)

/-- Flushes the output. The run ends with this, and a failure is named `finish`. -/
def finish (s : Session) : Except Fatal Unit × Session :=
  match s with
  | { heap, console, log } =>
    let (result, console) := console.flush
    (result.mapError (⟨"finish", .console ·⟩), { heap, console, log })

/-- What can be done to a session from outside a run. -/
inductive Operation where
  /-- Call a host function. -/
  | call (c : Call)
  /-- Flush the output. -/
  | finish
  /-- Add an array to the heap. -/
  | allocate (contents : Array Int32)
  deriving DecidableEq

/-- Carries out an operation. The answer of `allocate` is the handle. -/
def perform (s : Session) : Operation → Except Fatal (Option Int32) × Session
  | .call c => s.call c
  | .finish =>
    let (result, s) := s.finish
    (result.map fun _ => none, s)
  | .allocate contents =>
    let (result, s) := s.change (·.allocate contents)
    ((result.map some).mapError (⟨"allocate", ·⟩), s)

end Session

end ArrayHost
