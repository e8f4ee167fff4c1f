import ArrayHost.Text.Line

/-!
# The console

A console is a pair of byte streams: input that is read a line at a time and output that is written
and flushed. Its streams may be faulty. The output may take only so many bytes in total, its flushes
may fail from some flush on, and the input may break where it would end.

Every line attempt flushes the output first, so what was written is delivered before any input is
taken. The console keeps its events, the last one first, to say what happened before what.
-/

namespace ArrayHost

namespace Console

/-- Why an operation on the console failed. -/
inductive Error where
  /-- No input is left. -/
  | endOfInput
  /-- A stream failed, for the reason that the text gives. -/
  | io (text : String)
  deriving DecidableEq

/-- The text that describes an error. -/
def Error.message : Error → String
  | .endOfInput => "Unexpected end of input"
  | .io text => "IO error: " ++ text

/-- The output takes no more bytes. -/
def sinkFull : Error := .io "sink full"

/-- The output could not be flushed. -/
def flushFailed : Error := .io "flush failed"

/-- The input broke before its end. -/
def inputBroken : Error := .io "input broken"

/-- What follows the last byte of the input. -/
inductive Ending where
  /-- The input ends. -/
  | ends
  /-- Reading fails. -/
  | breaks
  deriving DecidableEq

/-- A stream of input bytes. -/
structure Input where
  /-- The bytes that have not been taken. -/
  unread : List UInt8
  /-- What follows them. -/
  ending : Ending
  deriving DecidableEq

/-- A stream of output bytes. -/
structure Output where
  /-- The bytes that were taken, in order. -/
  written : Array UInt8
  /-- The number of bytes that the output takes in total, if it is limited. -/
  capacity : Option Nat
  /-- The number of the first flush that fails, counted from one. -/
  failingFlush : Option Nat
  /-- The number of flushes so far, failed ones included. -/
  flushes : Nat
  deriving DecidableEq

/-- Something that happened at a console. -/
inductive Event where
  /-- The output took this many bytes. -/
  | wrote (count : Nat)
  /-- The output was flushed, or failed to be. -/
  | flushed (delivered : Bool)
  /-- A line attempt took this many bytes of input. -/
  | took (count : Nat)
  deriving DecidableEq

/-- What writing bytes leaves. -/
structure Put where
  /-- Whether all bytes were taken. -/
  result : Except Error Unit
  /-- How many bytes were taken. -/
  count : Nat
  /-- The output afterwards. -/
  output : Output

/-- Writes bytes. Those that do not fit are refused, after the ones that do have been taken. -/
def Output.write (o : Output) (bytes : List UInt8) : Put :=
  let room := match o.capacity with
    | none => bytes.length
    | some n => n - o.written.size
  let output := { o with written := o.written ++ bytes.take room }
  if bytes.length ≤ room then ⟨.ok (), bytes.length, output⟩
  else ⟨.error sinkFull, room, output⟩

/-- Flushes the output. -/
def Output.flush (o : Output) : Except Error Unit × Output :=
  let flushes := o.flushes + 1
  let fails := match o.failingFlush with
    | none => false
    | some first => first ≤ flushes
  (if fails then .error flushFailed else .ok (), { o with flushes })

/-- What a line attempt leaves. -/
structure Taken where
  /-- The bytes of the line without their terminator, or why there are none. -/
  line : Except Error (List UInt8)
  /-- How many bytes were taken. -/
  count : Nat
  /-- The input afterwards. -/
  input : Input

/-- Takes the next line. A last line without a terminator is taken when the input ends, and lost
when it breaks. -/
def Input.take (i : Input) : Taken :=
  match Text.cutLine? i.unread with
  | some (line, rest) => ⟨.ok (Text.dropReturn line), line.length + 1, { i with unread := rest }⟩
  | none =>
    match i.ending with
    | .breaks => ⟨.error inputBroken, i.unread.length, { i with unread := [] }⟩
    | .ends =>
      if i.unread = [] then ⟨.error .endOfInput, 0, i⟩
      else ⟨.ok i.unread, i.unread.length, { i with unread := [] }⟩

/-- A line attempt takes bytes from the front of the input and counts them. -/
theorem Input.count_take (i : Input) :
    i.take.count + i.take.input.unread.length = i.unread.length := by
  unfold Input.take
  split
  · next line rest h =>
    simp [Text.eq_of_cutLine?_eq_some h]
    omega
  · split
    · simp
    · split <;> simp

/-- A line that is taken has at least one byte, its terminator counted. -/
theorem Input.count_take_pos {i : Input} {line : List UInt8} (h : i.take.line = .ok line) :
    0 < i.take.count := by
  unfold Input.take at h ⊢
  split
  · simp
  · split
    · simp_all
    · split
      · simp_all
      · exact List.length_pos_iff.2 ‹_›

end Console

/-- The streams of one session. -/
structure Console where
  /-- The input. -/
  input : Console.Input
  /-- The output. -/
  output : Console.Output
  /-- The events at the console, the last one first. -/
  events : List Console.Event
  deriving DecidableEq

namespace Console

/-- A console whose streams never fail, with the given input. -/
def scripted (input : List UInt8) : Console where
  input := { unread := input, ending := .ends }
  output := { written := #[], capacity := none, failingFlush := none, flushes := 0 }
  events := []

/-- A console whose streams never fail, without input, whose output goes on after the given
bytes. -/
def onto (written : Array UInt8) : Console where
  input := { unread := [], ending := .ends }
  output := { written, capacity := none, failingFlush := none, flushes := 0 }
  events := []

/-- Writes a text. -/
def write (c : Console) (text : List Char) : Except Error Unit × Console :=
  match c with
  | { input, output, events } =>
    let ⟨result, count, output⟩ := output.write (Text.encode text)
    (result, { input, output, events := .wrote count :: events })

/-- Flushes the output. -/
def flush (c : Console) : Except Error Unit × Console :=
  match c with
  | { input, output, events } =>
    let (result, output) := output.flush
    let event := Event.flushed result.isOk
    (result, { input, output, events := event :: events })

/-- Takes the next line of input and decodes it. -/
def takeLine (c : Console) : Except Error (List Char) × Console :=
  match c with
  | { input, output, events } =>
    let ⟨line, count, input⟩ := input.take
    (line.map Text.decode, { input, output, events := .took count :: events })

/-- Reads a line: flushes the output and, if that succeeds, takes the next line of input. -/
def readLine (c : Console) : Except Error (List Char) × Console :=
  match c.flush with
  | (.error e, c) => (.error e, c)
  | (.ok (), c) => c.takeLine

/-- A flush leaves the input alone. -/
@[simp]
theorem input_flush (c : Console) : c.flush.2.input = c.input := rfl

/-- The text of a line attempt is that of the bytes taken. -/
theorem fst_takeLine (c : Console) : c.takeLine.1 = c.input.take.line.map Text.decode := rfl

/-- A line attempt leaves the input after what was taken. -/
@[simp]
theorem input_takeLine (c : Console) : c.takeLine.2.input = c.input.take.input := rfl

/-- A line that is read makes the unread input shorter. -/
theorem unread_readLine_lt {c : Console} {line : List Char} (h : c.readLine.1 = .ok line) :
    c.readLine.2.input.unread.length < c.input.unread.length := by
  have hinput := c.input_flush
  unfold readLine at h ⊢
  split at h
  · simp at h
  · next d hflush =>
    rw [hflush] at hinput
    have hcount := Input.count_take d.input
    rw [fst_takeLine] at h
    cases hline : d.input.take.line with
    | error e => simp [hline, Except.map] at h
    | ok bytes =>
      have hpos := Input.count_take_pos hline
      simp only [input_takeLine, ← hinput]
      omega

end Console

end ArrayHost
