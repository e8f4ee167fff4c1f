import ArrayHost.Proofs.SessionParts
import ArrayHost.Proofs.Trace

/-!
# What is printed

Five operations print: each hands one text to the console, unless it is `prints` and its handle
names no array. `Session.printed?` is that text, and `perform_of_printed?` is all that an operation
with a text does. How much of it an output takes depends on the room that is left
(`Output.write_of_unlimited`, `Output.written_write_of_limited`).
-/

namespace ArrayHost

namespace Console.Output

variable {o : Output}

/-- A write takes some first bytes, and changes nothing else. -/
theorem output_write (o : Output) (bytes : List UInt8) :
    ∃ count, (o.write bytes).output = { o with written := o.written ++ bytes.take count } := by
  simp only [write]
  split
  · exact ⟨bytes.length, by split <;> rfl⟩
  · next n _ => exact ⟨n - o.written.size, by split <;> rfl⟩

/-- An output without a limit takes all bytes. -/
theorem write_of_unlimited (h : o.capacity = none) (bytes : List UInt8) :
    o.write bytes = ⟨.ok (), bytes.length, { o with written := o.written ++ bytes }⟩ := by
  simp [write, h]

/-- A limited output takes the bytes that there is room for. -/
theorem written_write_of_limited {n : ℕ} (h : o.capacity = some n) (bytes : List UInt8) :
    (o.write bytes).output =
      { o with written := o.written ++ bytes.take (n - o.written.size) } := by
  simp only [write, h]
  split <;> rfl

/-- A write to a limited output succeeds when there is room for all bytes. -/
theorem result_write_of_limited {n : ℕ} (h : o.capacity = some n) (bytes : List UInt8) :
    (o.write bytes).result =
      if bytes.length ≤ n - o.written.size then .ok () else .error sinkFull := by
  simp only [write, h]
  split <;> rfl

/-- A write that fails has found the sink full, and some of the bytes were not taken. -/
theorem write_of_error {bytes : List UInt8} {e : Error} (h : (o.write bytes).result = .error e) :
    e = sinkFull ∧ ∃ count < bytes.length,
      (o.write bytes).output = { o with written := o.written ++ bytes.take count } := by
  rcases Option.eq_none_or_eq_some o.capacity with hcapacity | ⟨n, hcapacity⟩
  · rw [write_of_unlimited hcapacity] at h
    cases h
  · rw [result_write_of_limited hcapacity] at h
    split at h
    · cases h
    · next hroom =>
      cases h
      have hcount : n - o.written.size < bytes.length := by omega
      exact ⟨rfl, n - o.written.size, hcount, written_write_of_limited hcapacity bytes⟩

end Console.Output

/-- A text is written by its bytes. -/
theorem Console.output_write (c : Console) (text : List Char) :
    (c.write text).2.output = (c.output.write (Text.encode text)).output := rfl

/-- A text is written when its bytes are. -/
theorem Console.fst_write (c : Console) (text : List Char) :
    (c.write text).1 = (c.output.write (Text.encode text)).result := rfl

namespace Session

/-- The name that an operation gives when it fails. -/
def Operation.name : Operation → String
  | .call c => c.name
  | .finish => "finish"
  | .allocate _ => "allocate"

/-- An operation that prints. -/
def Operation.prints : Operation → Bool
  | .call (.printi _) | .call (.printc _) | .call (.prints _) | .call .println => true
  | _ => false

/-- The text that an operation hands to the console. -/
def printed? (s : Session) : Operation → Option (List Char)
  | .call (.printi i) => some (Text.numeral i.toInt)
  | .call (.printc c) => some [Text.shownCharacter c]
  | .call (.prints h) =>
    (s.heap.array h).toOption.map fun contents => contents.toList.map Text.shownCharacter
  | .call .println => some ['\n']
  | _ => none

/-- The text that a step hands to the console. -/
def Step.printed? (st : Step) : Option (List Char) := st.before.printed? st.operation

/-- The bytes of the texts that are handed to the console in a trace, in order. -/
def printedBytes (t : List Step) : List UInt8 :=
  t.flatMap fun st => st.printed?.elim [] Text.encode

variable {s : Session} {op : Operation} {text : List Char}

/-- The text depends on the heap alone. -/
theorem printed?_congr {t : Session} (h : s.heap = t.heap) : s.printed? op = t.printed? op := by
  unfold printed?
  rw [h]

/-- The text of an array is that of its elements, if there is such an array. -/
theorem printed?_prints (s : Session) (a : Int32) : s.printed? (.call (.prints a)) =
    (s.heap.array a).toOption.map fun contents => contents.toList.map Text.shownCharacter := rfl

/-- An array that exists is printed as the characters of its elements. -/
theorem printed?_prints_of_array {a : Int32} {contents : Array Int32}
    (ha : s.heap.array a = .ok contents) :
    s.printed? (.call (.prints a)) = some (contents.toList.map Text.shownCharacter) := by
  rw [printed?_prints, ha]
  rfl

/-- Nothing is printed of an array that does not exist. -/
theorem printed?_prints_of_error {a : Int32} {e : Heap.Error} (ha : s.heap.array a = .error e) :
    s.printed? (.call (.prints a)) = none := by
  rw [printed?_prints, ha]
  rfl

/-- A text that is written to a console like that of `s`, for a function of the given name. -/
theorem write_answer {t : Session} (ht : t.console = s.console) (name : String) :
    (attempt.answer (fun _ => some 0) (t.write text)).1.mapError (Fatal.mk name) =
      ((s.console.write text).1.map fun _ => some 0).mapError (fun e => ⟨name, .console e⟩) ∧
    (t.write text).2.heap = t.heap ∧ (t.write text).2.console = (s.console.write text).2 := by
  rw [attempt.answer, fst_write, console_write, ht]
  cases (s.console.write text).1 <;> exact ⟨rfl, rfl, rfl⟩

/-- An operation with a text writes it and does nothing else but report on the log. -/
theorem perform_of_printed? (h : s.printed? op = some text) :
    (s.perform op).1 = ((s.console.write text).1.map fun _ => some 0).mapError
      (fun e => ⟨op.name, .console e⟩) ∧
    (s.perform op).2.heap = s.heap ∧
    (s.perform op).2.console = (s.console.write text).2 := by
  cases op with
  | finish | allocate => cases h
  | call c =>
    rw [perform, fst_call, snd_call]
    cases c with
    | printi i =>
      cases h
      exact write_answer rfl "printi"
    | println =>
      cases h
      exact write_answer rfl "println"
    -- Warnings are put on the log before the characters of codes are written.
    | printc c =>
      cases h
      exact write_answer (t := { s with log := _ }) rfl "printc"
    | prints a =>
      cases ha : s.heap.array a with
      | error e =>
        rw [printed?_prints_of_error ha] at h
        cases h
      | ok contents =>
        rw [printed?_prints_of_array ha] at h
        cases h
        simp only [attempt, ha]
        exact write_answer (t := { s with log := _ }) rfl "prints"
    | readi | reads | new | size | add | get | set => cases h

/-- An operation with a text fails only when its write does. -/
theorem write_of_perform_error (h : s.printed? op = some text) {fatal : Fatal}
    (hfails : (s.perform op).1 = .error fatal) :
    ∃ e, (s.console.write text).1 = .error e ∧ fatal = ⟨op.name, .console e⟩ := by
  rw [(perform_of_printed? h).1] at hfails
  cases hwrite : (s.console.write text).1 with
  | ok =>
    rw [hwrite] at hfails
    cases hfails
  | error e =>
    rw [hwrite] at hfails
    cases hfails
    exact ⟨e, rfl, rfl⟩

/-- On an output without a limit, a print succeeds and all bytes of its text are taken. -/
theorem perform_of_unlimited (hcapacity : s.console.output.capacity = none)
    (h : s.printed? op = some text) : (s.perform op).1 = .ok (some 0) ∧
      (s.perform op).2.console.output = { s.console.output with
        written := s.console.output.written ++ Text.encode text } := by
  obtain ⟨hanswer, -, hconsole⟩ := perform_of_printed? h
  have hwrite := Console.Output.write_of_unlimited hcapacity (Text.encode text)
  rw [hanswer, hconsole, Console.fst_write, Console.output_write, hwrite]
  exact ⟨rfl, rfl⟩

/-- On a limited output, a print succeeds when there is room for its text. Else it fails in its own
name, and the bytes that there is room for are taken. -/
theorem perform_of_limited {n : ℕ} (hcapacity : s.console.output.capacity = some n)
    (h : s.printed? op = some text) :
    (s.perform op).1 = (if (Text.encode text).length ≤ n - s.console.output.written.size
      then .ok (some 0) else .error ⟨op.name, .console Console.sinkFull⟩) ∧
    (s.perform op).2.console.output = { s.console.output with
      written := s.console.output.written ++
        (Text.encode text).take (n - s.console.output.written.size) } := by
  obtain ⟨hanswer, -, hconsole⟩ := perform_of_printed? h
  rw [hanswer, hconsole, Console.fst_write, Console.output_write,
    Console.Output.result_write_of_limited hcapacity,
    Console.Output.written_write_of_limited hcapacity]
  refine ⟨?_, rfl⟩
  split <;> rfl

end Session

end ArrayHost
