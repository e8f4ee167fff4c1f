import Mathlib.Data.List.Induction
import ArrayHost.Proofs.ConsoleLines
import ArrayHost.Proofs.SessionParts
import ArrayHost.Proofs.Trace

/-!
# Which lines are read

Two functions read lines: `reads` takes the next one, and `readi` goes on to the first that holds an
integer. On an output whose flushes do not fail, what each of them does is a matter of the lines
that the input still holds (`readLine_ok`, `searches`). No other operation touches the input, so
every step takes lines from the front (`Step.takes`), and the lines read in a whole sequence are the
first lines of the input (`position_trace`, `line_accounting`).
-/

namespace ArrayHost

/-- The lines up to the first that holds an integer, that one included. -/
def Text.throughInteger : List (List Char) → List (List Char)
  | [] => []
  | line :: rest => if (readInteger? line).isSome then [line] else line :: throughInteger rest

namespace Session

/-- The lines that a search for an integer reads. -/
def searched (s : Session) : List (List Char) :=
  match _h : s.readLine with
  | (.error _, _) => []
  | (.ok line, after) =>
    match Text.readInteger? line with
    | some _ => [line]
    | none => line :: searched (after.report (.skippedLine line))
termination_by s.console.input.unread.length
decreasing_by
  have := @unread_readLine_lt s line (by rw [_h])
  simpa [_h, report] using this

namespace Step

/-- The lines that a step reads, in order. -/
def linesRead (st : Step) : List (List Char) :=
  match st.operation with
  | .call .reads => st.before.readLine.1.toOption.toList
  | .call .readi => st.before.searched
  | _ => []

/-- A step is a call that reads lines, and fails. -/
def runsOut (st : Step) : Bool :=
  match st.operation, st.answer with
  | .call .reads, .error _ | .call .readi, .error _ => true
  | _, _ => false

/-- `reads` reads the line that its attempt delivers. -/
theorem linesRead_reads_of_ok {s : Session} {line : List Char} (h : s.readLine.1 = .ok line) :
    linesRead ⟨s, .call .reads⟩ = [line] := by
  simp [linesRead, h, Except.toOption]

/-- `reads` reads no line when its attempt fails. -/
theorem linesRead_reads_of_error {s : Session} {kind : Fatal.Kind}
    (h : s.readLine.1 = .error kind) : linesRead ⟨s, .call .reads⟩ = [] := by
  simp [linesRead, h, Except.toOption]

end Step

section

variable {s : Session}

/-- A line that is read is the next one, and what comes after it is left. -/
theorem readLine_ok (h : s.console.output.failingFlush = none) {line : List Char}
    (hline : s.readLine.1 = .ok line) : s.console.lines = line :: s.readLine.2.console.lines ∧
      s.readLine.2.console.input =
        { s.console.input with unread := Text.afterLines 1 s.console.input.unread } := by
  rcases Console.readLine_cases h with ⟨line', hread, hlines, hinput⟩ | ⟨hread, -⟩
  · rw [fst_readLine, hread] at hline
    cases hline
    exact ⟨hlines, hinput⟩
  · rw [fst_readLine, hread] at hline
    cases hline

/-- No line is read where none is left. The attempt fails as the input ends, and leaves nothing. -/
theorem readLine_error (h : s.console.output.failingFlush = none) {kind : Fatal.Kind}
    (hline : s.readLine.1 = .error kind) : kind = .console s.console.input.ending.error ∧
      s.console.lines = [] ∧ s.readLine.2.console.lines = [] ∧
      s.readLine.2.console.input = { s.console.input with unread := [] } := by
  rcases Console.readLine_cases h with ⟨line, hread, -⟩ | ⟨hread, hlines, hmore, hinput⟩
  · rw [fst_readLine, hread] at hline
    cases hline
  · rw [fst_readLine, hread] at hline
    cases hline
    exact ⟨rfl, hlines, hmore, hinput⟩

/-- A line attempt makes one flush. -/
theorem output_readLine (h : s.console.output.failingFlush = none) : s.readLine.2.console.output =
    { s.console.output with flushes := s.console.output.flushes + 1 } := by
  rw [console_readLine, Console.readLine_of_none h]

/-- What a search for an integer does, by the lines that are left. -/
structure Searches (s : Session) : Prop where
  /-- It reads through the first line that holds an integer. -/
  searched : s.searched = Text.throughInteger s.console.lines
  /-- The lines after those are left. -/
  lines : s.console.lines = s.searched ++ s.readInteger.2.console.lines
  /-- It answers with that integer. If there is none, it fails as the input ends. -/
  answer : s.readInteger.1 = match s.console.lines.findSome? Text.readInteger? with
    | some value => .ok value
    | none => .error (.console s.console.input.ending.error)
  /-- The bytes after those lines are left, or none if there is no integer. -/
  input : s.readInteger.2.console.input = { s.console.input with
    unread := if s.readInteger.1.isOk then
      Text.afterLines s.searched.length s.console.input.unread else [] }
  /-- No line is left if there is no integer. -/
  exhausted : s.readInteger.1.isOk = false → s.readInteger.2.console.lines = []
  /-- There is a flush for each line, and one for the attempt that fails if there is no integer. -/
  output : s.readInteger.2.console.output = { s.console.output with
    flushes := s.console.output.flushes + s.searched.length +
      if s.readInteger.1.isOk then 0 else 1 }

/-- A search reads no line where none is read. -/
theorem searched_of_error {kind : Fatal.Kind} (h : s.readLine.1 = .error kind) :
    s.searched = [] := by
  rw [searched]
  split
  · rfl
  · next h' => simp_all

/-- A search ends with a line that holds an integer. -/
theorem searched_of_some {line : List Char} {value : Int32} (h : s.readLine.1 = .ok line)
    (hv : Text.readInteger? line = some value) : s.searched = [line] := by
  rw [searched]
  split
  · next h' => simp_all
  · next h' => simp_all

/-- A search goes on after a line that holds no integer. -/
theorem searched_of_none {line : List Char} (h : s.readLine.1 = .ok line)
    (hv : Text.readInteger? line = none) :
    s.searched = line :: (s.readLine.2.report (.skippedLine line)).searched := by
  rw [searched]
  split
  · next h' => simp_all
  · next h' => simp_all

/-- A search ends where no line is read. -/
theorem Searches.of_error (h : s.console.output.failingFlush = none) {kind : Fatal.Kind}
    (hline : s.readLine.1 = .error kind) : s.Searches := by
  obtain ⟨rfl, hlines, hmore, hinput⟩ := readLine_error h hline
  have hresult := readInteger_of_error s hline
  have hsearched := searched_of_error hline
  constructor
  · rw [hsearched, hlines]
    rfl
  · rw [hsearched, hlines, hresult, hmore]
    rfl
  · rw [hresult, hlines]
    rfl
  · rw [hresult, hinput]
    rfl
  · exact fun _ => by rw [hresult, hmore]
  · rw [hresult, hsearched, output_readLine h]
    rfl

/-- A search ends with a line that holds an integer. -/
theorem Searches.of_some (h : s.console.output.failingFlush = none) {line : List Char}
    {value : Int32} (hline : s.readLine.1 = .ok line)
    (hvalue : Text.readInteger? line = some value) : s.Searches := by
  obtain ⟨hlines, hinput⟩ := readLine_ok h hline
  have hresult := readInteger_of_some s hline hvalue
  have hsearched := searched_of_some hline hvalue
  constructor
  · rw [hsearched, hlines]
    simp [Text.throughInteger, hvalue]
  · rw [hsearched, hlines, hresult]
    rfl
  · rw [hresult, hlines]
    simp [hvalue]
  · rw [hresult, hinput, hsearched]
    rfl
  · exact fun hfail => by simp [hresult, Except.isOk, Except.toBool] at hfail
  · rw [hresult, hsearched, output_readLine h]
    rfl

/-- A search skips a line that holds no integer, and goes on after it. -/
theorem Searches.of_none (h : s.console.output.failingFlush = none) {line : List Char}
    (hline : s.readLine.1 = .ok line) (hvalue : Text.readInteger? line = none)
    (hrest : (s.readLine.2.report (.skippedLine line)).Searches) : s.Searches := by
  obtain ⟨hlines, hinput⟩ := readLine_ok h hline
  have hresult := readInteger_of_none s hline hvalue
  have hsearched := searched_of_none hline hvalue
  obtain ⟨rsearched, rlines, ranswer, rinput, rexhausted, routput⟩ := hrest
  rw [console_report] at rsearched rlines ranswer rinput routput
  constructor
  · rw [hsearched, rsearched, hlines]
    simp [Text.throughInteger, hvalue]
  · rw [hsearched, hlines, hresult, rlines]
    rfl
  · rw [hresult, ranswer, hlines, hinput]
    simp [hvalue]
  · rw [hresult, rinput, hinput, hsearched, List.length_cons, Nat.add_comm, Text.afterLines_add]
  · rw [hresult]
    exact rexhausted
  · rw [hresult, routput, output_readLine h, hsearched, List.length_cons]
    simp only [Console.Output.mk.injEq, true_and]
    omega

/-- Searches do what the lines that are left say. -/
theorem searches (h : s.console.output.failingFlush = none) : s.Searches := by
  -- The induction follows the search from line to line.
  induction s using readInteger.induct with
  | case1 s kind after hread => exact .of_error h (by rw [hread])
  | case2 s line after hread value hvalue => exact .of_some h (by rw [hread]) hvalue
  | case3 s line after hread hvalue ih =>
    obtain rfl : s.readLine.2 = after := by rw [hread]
    have hrest := ih (by rw [console_report, output_readLine h]; exact h)
    exact .of_none h (by rw [hread]) hvalue hrest

end

/-- What a step does to the input: it takes the lines that it reads from the front. -/
structure Step.Takes (st : Step) : Prop where
  /-- Flushes do not begin to fail. -/
  failingFlush : st.after.console.output.failingFlush = none
  /-- The lines after those that are read are left. -/
  lines : st.before.console.lines = st.linesRead ++ st.after.console.lines
  /-- The bytes after those lines are left, or none after a failed attempt. -/
  input : st.after.console.input = { st.before.console.input with
    unread := if st.runsOut then [] else
      Text.afterLines st.linesRead.length st.before.console.input.unread }
  /-- No line is left after a failed attempt. -/
  exhausted : st.runsOut = true → st.after.console.lines = []

/-- A step that reads no lines leaves the input alone. -/
theorem Step.takes_of_not_readsLines {st : Step} (h : st.before.console.output.failingFlush = none)
    (hop : st.operation.readsLines = false) : st.Takes := by
  obtain ⟨hinput, hflush⟩ := st.before.console_perform_of_not_readsLines hop
  have hread : st.linesRead = [] := by
    unfold linesRead
    split <;> simp_all [Operation.readsLines]
  have hout : st.runsOut = false := by
    unfold runsOut
    split <;> simp_all [Operation.readsLines]
  refine ⟨hflush.trans h, ?_, ?_, by simp [hout]⟩
  · rw [hread, List.nil_append]
    exact Console.lines_congr h (hflush.trans h) hinput.symm
  · rw [hread, hout]
    exact hinput

/-- `readi` answers as the search does. -/
theorem Step.answer_readi (s : Session) : Step.answer ⟨s, .call .readi⟩ =
    (s.readInteger.1.map some).mapError (⟨"readi", ·⟩) := rfl

/-- A call that searches for an integer fails when the search does. -/
theorem Step.runsOut_readi (s : Session) :
    Step.runsOut ⟨s, .call .readi⟩ = !s.readInteger.1.isOk := by
  rw [runsOut, answer_readi]
  cases s.readInteger.1 <;> rfl

/-- A search takes the lines that it reads from the front. -/
theorem Step.takes_readi {s : Session} (h : s.console.output.failingFlush = none) :
    Step.Takes ⟨s, .call .readi⟩ := by
  obtain ⟨-, hlines, -, hinput, hexhausted, houtput⟩ := searches h
  have hafter : Step.after ⟨s, .call .readi⟩ = s.readInteger.2 := rfl
  refine ⟨by rw [hafter, houtput]; exact h, hlines, ?_, ?_⟩
  · rw [hafter, hinput, runsOut_readi]
    cases s.readInteger.1.isOk <;> rfl
  · rw [runsOut_readi, hafter]
    intro hout
    exact hexhausted (by simpa using hout)

/-- A single attempt takes the next line. -/
theorem Step.takes_reads {s : Session} (h : s.console.output.failingFlush = none) :
    Step.Takes ⟨s, .call .reads⟩ := by
  have houtput := output_readLine h
  cases hline : s.readLine.1 with
  | ok line =>
    obtain ⟨hlines, hinput⟩ := readLine_ok h hline
    have hperform := perform_reads_of_line hline
    have hafter : (Step.after ⟨s, .call .reads⟩).console = s.readLine.2.console := by
      rw [after, hperform]
      rfl
    have hread := linesRead_reads_of_ok hline
    have hout : runsOut ⟨s, .call .reads⟩ = false := by simp [runsOut, answer, hperform]
    rw [← hafter] at houtput hlines hinput
    exact ⟨by rw [houtput]; exact h, by rw [hread]; exact hlines,
      by rw [hread, hout]; exact hinput, by simp [hout]⟩
  | error kind =>
    obtain ⟨-, hlines, hmore, hinput⟩ := readLine_error h hline
    have hperform := perform_reads_of_error hline
    have hafter : Step.after ⟨s, .call .reads⟩ = s.readLine.2 := by rw [after, hperform]
    have hread := linesRead_reads_of_error hline
    have hout : runsOut ⟨s, .call .reads⟩ = true := by simp [runsOut, answer, hperform]
    rw [← hafter] at houtput hmore hinput
    exact ⟨by rw [houtput]; exact h, by rw [hread, hmore]; exact hlines,
      by rw [hout]; exact hinput, fun _ => hmore⟩

/-- Every step takes lines from the front. -/
theorem Step.takes {st : Step} (h : st.before.console.output.failingFlush = none) : st.Takes := by
  by_cases hop : st.operation.readsLines = false
  · exact takes_of_not_readsLines h hop
  -- Two operations are left: `readi` is a search, and `reads` a single attempt.
  obtain ⟨s, op⟩ := st
  cases op with
  | finish | allocate => simp [Operation.readsLines] at hop
  | call c =>
    cases c with
    | printi | printc | prints | println | new | size | add | get | set =>
      simp [Operation.readsLines] at hop
    | readi => exact takes_readi h
    | reads => exact takes_reads h

/-- The lines that are read in a trace, in order. -/
def linesRead (t : List Step) : List (List Char) := t.flatMap Step.linesRead

/-- How far the input has been read after a trace. -/
structure Position (input : Console.Input) (t : List Step) (s : Session) : Prop where
  /-- Flushes do not fail. -/
  failingFlush : s.console.output.failingFlush = none
  /-- The lines of the input are those that were read and those that are left. -/
  lines : (Console.faultless input).lines = linesRead t ++ s.console.lines
  /-- The bytes after the lines that were read are left, or none after a failed attempt. -/
  input : s.console.input = { input with
    unread := if t.any Step.runsOut then [] else
      Text.afterLines (linesRead t).length input.unread }
  /-- No line is left after a failed attempt. -/
  exhausted : t.any Step.runsOut = true → s.console.lines = []

/-- The position after one more step. -/
theorem Position.concat {input : Console.Input} {t : List Step} {st : Step}
    (h : Position input t st.before) : Position input (t ++ [st]) st.after := by
  have htakes := Step.takes h.failingFlush
  have hread : linesRead (t ++ [st]) = linesRead t ++ st.linesRead := by simp [linesRead]
  have hany : (t ++ [st]).any Step.runsOut = (t.any Step.runsOut || st.runsOut) := by simp
  refine ⟨htakes.failingFlush, ?_, ?_, ?_⟩
  · rw [h.lines, htakes.lines, hread, List.append_assoc]
  · rw [htakes.input, h.input, hread, hany, List.length_append, Text.afterLines_add]
    cases t.any Step.runsOut <;> cases st.runsOut <;> simp
  · intro hfail
    rw [hany, Bool.or_eq_true] at hfail
    rcases hfail with hfail | hfail
    -- After an earlier failed attempt there was no line that the last step could have taken.
    · have hnil := h.exhausted hfail
      rw [htakes.lines, List.append_eq_nil_iff] at hnil
      exact hnil.2
    · exact htakes.exhausted hfail

/-- The position after a sequence of operations on a fresh session whose streams do not fail before
the input ends. -/
theorem position_trace (input : Console.Input) (ops : List Operation) :
    Position input ((Session.start (.faultless input)).trace ops)
      ((Session.start (.faultless input)).performAll ops) := by
  induction ops using List.reverseRecOn with
  | nil => exact ⟨rfl, rfl, rfl, fun h => by simp [trace] at h⟩
  | append_singleton ops op ih =>
    rw [trace_concat, performAll_concat]
    exact ih.concat

/-- The number of flushes of a session so far. -/
abbrev flushes (s : Session) : ℕ := s.console.output.flushes

/-- Which lines have been read after a trace, and what a session in that state does when it is asked
for more. `lines` are the lines that the input can deliver. -/
structure LineAccount (lines : List (List Char)) (bytes : List UInt8) (ending : Console.Ending)
    (t : List Step) (s : Session) : Prop where
  /-- The lines that were read are the first ones. -/
  read : linesRead t = lines.take (linesRead t).length
  /-- What follows them is unread, but a failed attempt on an input that breaks leaves nothing. -/
  unread : s.console.input = ⟨match ending with
    | .ends => Text.afterLines (linesRead t).length bytes
    | .breaks => if t.any Step.runsOut then [] else Text.afterLines (linesRead t).length bytes,
    ending⟩
  /-- An attempt fails only when all lines have been read. -/
  exhausted : t.any Step.runsOut = true → lines.length = (linesRead t).length
  /-- `reads` takes the next line and puts its code points into a new array. -/
  reads_line : ∀ line, lines[(linesRead t).length]? = some line →
    Step.linesRead ⟨s, .call .reads⟩ = [line] ∧
    Step.answer ⟨s, .call .reads⟩ = .ok (some (Int32.ofNat s.heap.size)) ∧
    (Step.after ⟨s, .call .reads⟩).heap.arrays =
      s.heap.arrays.push (line.map Text.codePoint).toArray
  /-- `reads` fails as the input ends when there is no next line. -/
  reads_end : lines.length ≤ (linesRead t).length →
    Step.linesRead ⟨s, .call .reads⟩ = [] ∧
    Step.answer ⟨s, .call .reads⟩ = .error ⟨"reads", .console ending.error⟩
  /-- Both fail after an attempt has failed. -/
  fails_again : t.any Step.runsOut = true →
    Step.answer ⟨s, .call .reads⟩ = .error ⟨"reads", .console ending.error⟩ ∧
    Step.answer ⟨s, .call .readi⟩ = .error ⟨"readi", .console ending.error⟩
  /-- `reads` flushes once. -/
  reads_flushes : (Step.after ⟨s, .call .reads⟩).flushes = s.flushes + 1
  /-- `readi` reads through the first line that holds an integer. -/
  readi_lines : Step.linesRead ⟨s, .call .readi⟩ =
    Text.throughInteger (lines.drop (linesRead t).length)
  /-- `readi` answers with that integer, and fails as the input ends when there is none. -/
  readi_answer : Step.answer ⟨s, .call .readi⟩ =
    match (lines.drop (linesRead t).length).findSome? Text.readInteger? with
    | some value => .ok (some value)
    | none => .error ⟨"readi", .console ending.error⟩
  /-- `readi` flushes once for each line that it tries, the failed try at the end included. -/
  readi_flushes : (Step.after ⟨s, .call .readi⟩).flushes =
    s.flushes + (Step.linesRead ⟨s, .call .readi⟩).length +
      if (Step.answer ⟨s, .call .readi⟩).isOk then 0 else 1

section

variable {s : Session}

/-- `reads` takes the next line and puts its code points into a new array. -/
theorem reads_of_cons (h : s.console.output.failingFlush = none) {line : List Char}
    {rest : List (List Char)} (hlines : s.console.lines = line :: rest) :
    Step.linesRead ⟨s, .call .reads⟩ = [line] ∧
      Step.answer ⟨s, .call .reads⟩ = .ok (some (Int32.ofNat s.heap.size)) ∧
      (Step.after ⟨s, .call .reads⟩).heap.arrays =
        s.heap.arrays.push (line.map Text.codePoint).toArray := by
  cases hread : s.readLine.1 with
  | error kind =>
    obtain ⟨-, hnil, -⟩ := readLine_error h hread
    simp [hnil] at hlines
  | ok line' =>
    obtain ⟨hcons, -⟩ := readLine_ok h hread
    obtain rfl : line = line' := by simpa [hlines] using congrArg List.head? hcons
    have hperform := perform_reads_of_line hread
    refine ⟨Step.linesRead_reads_of_ok hread, by rw [Step.answer, hperform], ?_⟩
    rw [Step.after, hperform]
    rfl

/-- `reads` fails as the input ends when no line is left. -/
theorem reads_of_nil (h : s.console.output.failingFlush = none) (hlines : s.console.lines = []) :
    Step.linesRead ⟨s, .call .reads⟩ = [] ∧ Step.answer ⟨s, .call .reads⟩ =
      .error ⟨"reads", .console s.console.input.ending.error⟩ := by
  cases hread : s.readLine.1 with
  | error kind =>
    obtain ⟨rfl, -⟩ := readLine_error h hread
    exact ⟨Step.linesRead_reads_of_error hread, by rw [Step.answer, perform_reads_of_error hread]⟩
  | ok line =>
    obtain ⟨hcons, -⟩ := readLine_ok h hread
    simp [hlines] at hcons

/-- `reads` flushes once, whether there is a line or not. -/
theorem flushes_reads (h : s.console.output.failingFlush = none) :
    (Step.after ⟨s, .call .reads⟩).flushes = s.flushes + 1 := by
  have houtput := congrArg Console.Output.flushes (output_readLine h)
  cases hread : s.readLine.1 with
  | error kind =>
    rw [Step.after, perform_reads_of_error hread]
    exact houtput
  | ok line =>
    rw [Step.after, perform_reads_of_line hread]
    exact houtput

/-- `readi` flushes once for each line that it tries. -/
theorem flushes_readi (h : s.console.output.failingFlush = none) :
    (Step.after ⟨s, .call .readi⟩).flushes =
      s.flushes + (Step.linesRead ⟨s, .call .readi⟩).length +
        if (Step.answer ⟨s, .call .readi⟩).isOk then 0 else 1 := by
  have hisOk : (Step.answer ⟨s, .call .readi⟩).isOk = s.readInteger.1.isOk := by
    rw [Step.answer_readi]
    cases s.readInteger.1 <;> rfl
  rw [hisOk]
  exact congrArg Console.Output.flushes (searches h).output

end

/-- The bytes that are left in an input that ends. Where a failed attempt has left none, the lines
of the input were all its bytes. -/
theorem Position.unread_of_ends {bytes : List UInt8} {t : List Step} {s : Session}
    (h : Position ⟨bytes, .ends⟩ t s) :
    s.console.input = ⟨Text.afterLines (linesRead t).length bytes, .ends⟩ := by
  rw [h.input]
  split
  · next hfail =>
    have hall : Text.afterLines (Console.faultless ⟨bytes, .ends⟩).lines.length bytes = [] :=
      Console.afterLines_length_lines rfl rfl
    rw [h.lines, h.exhausted hfail, List.append_nil] at hall
    rw [hall]
  · rfl

/-- A position gives the account of the lines. -/
theorem Position.lineAccount {bytes : List UInt8} {ending : Console.Ending} {t : List Step}
    {s : Session} (h : Position ⟨bytes, ending⟩ t s) :
    LineAccount (Console.faultless ⟨bytes, ending⟩).lines bytes ending t s := by
  have hending : s.console.input.ending = ending := by rw [h.input]
  -- The lines that the session can still deliver are those after the ones that were read.
  have hrest : (Console.faultless ⟨bytes, ending⟩).lines.drop (linesRead t).length =
      s.console.lines := by
    rw [h.lines, List.drop_left]
  have hsearch := searches h.failingFlush
  have hnone (hlines : s.console.lines = []) := reads_of_nil h.failingFlush hlines
  rw [hending] at hnone
  constructor
  case read => rw [h.lines, List.take_left]
  case unread =>
    cases ending with
    | breaks => exact h.input
    | ends => exact h.unread_of_ends
  case exhausted =>
    intro hfail
    rw [h.lines, h.exhausted hfail, List.append_nil]
  case reads_line =>
    intro line hline
    rw [← List.head?_drop, hrest, List.head?_eq_some_iff] at hline
    obtain ⟨rest, hlines⟩ := hline
    exact reads_of_cons h.failingFlush hlines
  case reads_end =>
    intro hle
    exact hnone (by rw [← hrest, List.drop_eq_nil_of_le hle])
  case fails_again =>
    intro hfail
    have hnil := h.exhausted hfail
    refine ⟨(hnone hnil).2, ?_⟩
    rw [Step.answer_readi, hsearch.answer, hnil, hending]
    rfl
  case reads_flushes => exact flushes_reads h.failingFlush
  case readi_lines =>
    rw [hrest]
    exact hsearch.searched
  case readi_answer =>
    rw [hrest, Step.answer_readi, hsearch.answer, hending]
    split <;> rfl
  case readi_flushes => exact flushes_readi h.failingFlush

/-- Which lines are read. In every sequence of operations on a fresh session whose output never
fails, the lines that are read are the first lines of the input, and what follows them is unread;
`reads` takes the next line, `readi` goes on to the first that holds an integer, and both fail when
there are no more, and from then on. The lines of an input that ends are those that reading it
delivers; of an input that breaks, those of them that have a terminator. -/
theorem line_accounting (bytes : List UInt8) (ending : Console.Ending) (ops : List Operation) :
    let s := Session.start (.faultless ⟨bytes, ending⟩)
    let lines := (Console.scripted bytes).lines
    LineAccount
      (match ending with
        | .ends => lines
        | .breaks => lines.take (bytes.count Text.newline))
      bytes ending (s.trace ops) (s.performAll ops) := by
  intro s lines
  have h := (position_trace ⟨bytes, ending⟩ ops).lineAccount
  cases ending with
  | ends => exact h
  | breaks =>
    rw [Console.lines_breaks] at h
    exact h

end Session

end ArrayHost
