import ArrayHost.Proofs.LineAccounting
import ArrayHost.Proofs.Printing

/-!
# Flushes

The two functions that read lines make a flush for each attempt and write nothing; no other function
flushes (`output_perform_of_readsLines`, `flushes_call_of_not_readsLines`). So when the flushes of a
session begin to fail, nothing else changes before the first of them. `Session.failingFrom` puts an
output in place whose flushes fail from a given one on, and `UntilFlush` compares what is done there
with what is done on an output whose flushes do not fail. They are the same until that flush is
made; a call that makes it is one that reads, and stops there (`BeforeFlush.call`).
-/

namespace ArrayHost

namespace Console

/-- Which flushes fail makes no difference to a write. -/
theorem Output.write_with_failingFlush (o : Output) (first : Option ℕ) (bytes : List UInt8) :
    { o with failingFlush := first }.write bytes =
      { o.write bytes with
        output := { (o.write bytes).output with failingFlush := first } } := by
  unfold write
  dsimp only
  split <;> split <;> rfl

/-- Where the flush fails, a line attempt takes nothing. -/
theorem readLine_of_flush_error {c : Console} {e : Error} (h : c.flush.1 = .error e) :
    c.readLine = (.error e, c.flush.2) := by
  have hflush : c.flush = (.error e, c.flush.2) := by rw [← h]
  rw [readLine, hflush]

/-- Where the flush succeeds, a line attempt takes the next line of the input. -/
theorem readLine_of_flush_ok {c : Console} (h : c.flush.1 = .ok ()) :
    c.readLine = c.flush.2.takeLine := by
  have hflush : c.flush = (.ok (), c.flush.2) := by rw [← h]
  rw [readLine, hflush]

/-- A line attempt makes one flush and writes nothing, whether the flush succeeds or not. -/
theorem output_readLine (c : Console) :
    c.readLine.2.output = { c.output with flushes := c.output.flushes + 1 } := by
  cases hflush : c.flush.1 with
  | error e =>
    rw [readLine_of_flush_error hflush]
    rfl
  | ok =>
    rw [readLine_of_flush_ok hflush]
    rfl

/-- A flush fails when it does not come before the first one to fail. -/
theorem flush_of_le {c : Console} {k : ℕ} (hfails : c.output.failingFlush = some k)
    (h : k ≤ c.output.flushes + 1) : c.flush = (.error flushFailed,
      { c with
        output := { c.output with flushes := c.output.flushes + 1 }
        events := .flushed false :: c.events }) := by
  simp [flush, Output.flush, hfails, h, Except.isOk, Except.toBool]

/-- A flush succeeds when it comes before the first one to fail. -/
theorem flush_of_lt {c : Console} {k : ℕ} (hfails : c.output.failingFlush = some k)
    (h : c.output.flushes + 1 < k) : c.flush = (.ok (),
      { c with
        output := { c.output with flushes := c.output.flushes + 1 }
        events := .flushed true :: c.events }) := by
  have hlt : ¬ k ≤ c.output.flushes + 1 := by omega
  simp [flush, Output.flush, hfails, hlt, Except.isOk, Except.toBool]

end Console

namespace Session

section

variable (s : Session)

/-- A search for an integer makes at least one flush and writes nothing. -/
theorem output_readInteger : ∃ m, 0 < m ∧ s.readInteger.2.console.output =
    { s.console.output with flushes := s.console.output.flushes + m } := by
  fun_induction readInteger s with
  | case1 s kind after h =>
    have houtput := s.console.output_readLine
    rw [← s.console_readLine, h] at houtput
    exact ⟨1, by omega, houtput⟩
  | case2 s line after h value hv =>
    have houtput := s.console.output_readLine
    rw [← s.console_readLine, h] at houtput
    exact ⟨1, by omega, houtput⟩
  | case3 s line after h hv ih =>
    have houtput := s.console.output_readLine
    rw [← s.console_readLine, h] at houtput
    obtain ⟨m, -, hm⟩ := ih
    refine ⟨m + 1, by omega, ?_⟩
    rw [hm, console_report, houtput]
    simp only [Console.Output.mk.injEq, true_and]
    omega

/-- Reading a line into a new array makes one flush and writes nothing. -/
theorem output_readText : s.readText.2.console.output =
    { s.console.output with flushes := s.console.output.flushes + 1 } := by
  have houtput := s.console.output_readLine
  rw [← s.console_readLine] at houtput
  unfold readText
  split
  · next h => rw [← houtput, h]
  · next h =>
    rw [console_change, ← houtput, h]

/-- An operation that reads lines makes at least one flush and writes nothing. -/
theorem output_perform_of_readsLines {op : Operation} (h : op.readsLines = true) :
    ∃ m, 0 < m ∧ (s.perform op).2.console.output =
      { s.console.output with flushes := s.console.output.flushes + m } := by
  cases op with
  | finish | allocate => cases h
  | call c =>
    cases c with
    | readi => exact s.output_readInteger
    | reads => exact ⟨1, by omega, s.output_readText⟩
    | printi | printc | prints | println | new | size | add | get | set => cases h

/-- A call that reads no lines makes no flush. -/
theorem flushes_call_of_not_readsLines {c : Call} (h : (Operation.call c).readsLines = false) :
    (s.call c).2.flushes = s.flushes := by
  have hwrite (text : List Char) : (s.console.write text).2.output.flushes = s.flushes := by
    obtain ⟨count, houtput⟩ := s.console.output.output_write (Text.encode text)
    rw [Console.output_write, houtput]
  cases c with
  | printi | printc | println => exact hwrite _
  | prints a =>
    simp only [call, attempt]
    split
    · rfl
    · exact hwrite _
  | readi | reads => cases h
  | new | size | add | get | set => rfl

end

/-- The session on an output whose flushes fail from number `k` on. -/
def failingFrom (s : Session) (k : ℕ) : Session :=
  { s with console.output.failingFlush := some k }

/-- The flushes of a session do not fail, and number `k` has not been made. -/
structure BeforeFlush (k : ℕ) (s : Session) : Prop where
  /-- Flushes do not fail. -/
  failingFlush : s.console.output.failingFlush = none
  /-- There were fewer than `k` of them. -/
  flushes_lt : s.flushes < k

/-- Number `k` was the last flush of the session `t` and failed. Nothing was written and no array
was changed since the session was `s`. -/
structure StoppedAt (k : ℕ) (s t : Session) : Prop where
  /-- No array was changed. -/
  heap : t.heap = s.heap
  /-- Nothing was written. -/
  output : t.console.output = { s.console.output with failingFlush := some k, flushes := k }

/-- What is done to the session `s` when its flushes do not fail leads to `r`, and to `r'` when they
fail from number `k` on: to the same unless that flush is made, and to a stop at it otherwise. -/
inductive UntilFlush {ε α : Type} (k : ℕ) (failure : ε) (s : Session)
    (r r' : Except ε α × Session) : Prop where
  /-- Flush number `k` is not made. -/
  | agrees (hbefore : r.2.BeforeFlush k) (heq : r' = (r.1, r.2.failingFrom k))
  /-- Flush number `k` is made. -/
  | stops (hmade : k ≤ r.2.flushes) (hfails : r'.1 = .error failure) (hstop : s.StoppedAt k r'.2)

section

variable {s : Session} {k : ℕ}

/-- Which flushes fail makes no difference to a write. -/
theorem write_failingFrom (s : Session) (k : ℕ) (text : List Char) :
    (s.failingFrom k).write text = ((s.write text).1, (s.write text).2.failingFrom k) := by
  simp only [write, Console.write, failingFrom, Console.Output.write_with_failingFlush]

/-- Which flushes fail makes no difference to a write of codes. -/
theorem writeCodes_failingFrom (s : Session) (k : ℕ) (codes : List Int32) :
    (s.failingFrom k).writeCodes codes =
      ((s.writeCodes codes).1, (s.writeCodes codes).2.failingFrom k) :=
  -- The warnings are on the log before anything is written.
  write_failingFrom
    { s with log := s.log ++ (Text.invalidCodes codes).map Record.invalidCodePoint } k
    (codes.map Text.shownCharacter)

/-- Which flushes fail makes no difference to a change of the heap. -/
theorem change_failingFrom {α : Type} (s : Session) (k : ℕ) (operation : Heap → Heap.Outcome α) :
    (s.failingFrom k).change operation =
      ((s.change operation).1, (s.change operation).2.failingFrom k) := rfl

/-- Which flushes fail makes no difference to a call that reads no lines. -/
theorem call_failingFrom (k : ℕ) {c : Call} (h : (Operation.call c).readsLines = false) :
    (s.failingFrom k).call c = ((s.call c).1, (s.call c).2.failingFrom k) := by
  have hanswer {α : Type} (f : α → Option Int32) (r : Except Fatal.Kind α × Session) :
      attempt.answer f (r.1, r.2.failingFrom k) =
        ((attempt.answer f r).1, (attempt.answer f r).2.failingFrom k) := rfl
  have hattempt :
      (s.failingFrom k).attempt c = ((s.attempt c).1, (s.attempt c).2.failingFrom k) := by
    cases c with
    | printi | println =>
      show attempt.answer _ ((s.failingFrom k).write _) = _
      rw [write_failingFrom]
      exact hanswer _ (s.write _)
    | printc c =>
      show attempt.answer _ ((s.failingFrom k).writeCodes _) = _
      rw [writeCodes_failingFrom]
      exact hanswer _ (s.writeCodes _)
    | prints a =>
      have hheap : (s.failingFrom k).heap = s.heap := rfl
      simp only [attempt, hheap]
      cases s.heap.array a with
      | error e => rfl
      | ok contents =>
        show attempt.answer _ ((s.failingFrom k).writeCodes _) = _
        rw [writeCodes_failingFrom]
        exact hanswer _ (s.writeCodes _)
    | readi | reads => cases h
    | new | add | set =>
      show attempt.answer _ ((s.failingFrom k).change _) = _
      rw [change_failingFrom]
      exact hanswer _ (s.change _)
    | size | get => rfl
  rw [call, hattempt]
  rfl

/-- The answer of a function is that of what it does. -/
theorem UntilFlush.answer {α : Type} {kind : Fatal.Kind} {r r' : Except Fatal.Kind α × Session}
    (h : UntilFlush k kind s r r') (f : α → Option Int32) (name : String) :
    UntilFlush k (Fatal.mk name kind) s
      ((attempt.answer f r).1.mapError (Fatal.mk name), (attempt.answer f r).2)
      ((attempt.answer f r').1.mapError (Fatal.mk name), (attempt.answer f r').2) := by
  rcases h with ⟨hbefore, rfl⟩ | ⟨hmade, hfails, hstop⟩
  · exact .agrees hbefore rfl
  · refine .stops hmade ?_ hstop
    simp only [attempt.answer, hfails]
    rfl

/-- A line is read from the console, and the rest of the session is left alone. -/
theorem readLine_eq (s : Session) : s.readLine =
    (s.console.readLine.1.mapError .console, { s with console := s.console.readLine.2 }) := rfl

/-- A flush at the end succeeds when flushes do not fail. -/
theorem finish_of_none (h : s.console.output.failingFlush = none) : s.finish = (.ok (),
    { s with console :=
      { s.console with
        output := { s.console.output with flushes := s.flushes + 1 }
        events := .flushed true :: s.console.events } }) := by
  simp only [finish, Console.flush_of_none h, mapError_ok]

/-- A flush at the end goes the same way when only later flushes fail. -/
theorem finish_failingFrom_of_lt (h : s.console.output.failingFlush = none)
    (hlt : s.flushes + 1 < k) :
    (s.failingFrom k).finish = (.ok (), s.finish.2.failingFrom k) := by
  have hflush := Console.flush_of_lt (c := (s.failingFrom k).console) rfl hlt
  rw [finish_of_none h]
  simp only [finish, hflush, mapError_ok]
  rfl

/-- A flush at the end fails when it does not come before the first one to fail. -/
theorem finish_of_le (h : s.console.output.failingFlush = some k) (hle : k ≤ s.flushes + 1) :
    s.finish = (.error ⟨"finish", .console Console.flushFailed⟩,
      { s with console :=
        { s.console with
          output := { s.console.output with flushes := s.flushes + 1 }
          events := .flushed false :: s.console.events } }) := by
  simp only [finish, Console.flush_of_le h hle, mapError_error]

/-- A search for an integer stops where its first attempt does. -/
theorem readInteger_of_stops {kind : Fatal.Kind} (hmade : k ≤ s.readLine.2.flushes)
    (hfails : (s.failingFrom k).readLine.1 = .error kind)
    (hstop : s.StoppedAt k (s.failingFrom k).readLine.2) :
    UntilFlush k kind s s.readInteger (s.failingFrom k).readInteger := by
  obtain ⟨m, hm, houtput⟩ := s.output_readInteger
  have hfirst : s.readLine.2.flushes = s.flushes + 1 := by
    rw [flushes, console_readLine, Console.output_readLine]
  have hlast : s.readInteger.2.flushes = s.flushes + m := by rw [flushes, houtput]
  rw [readInteger_of_error (s.failingFrom k) hfails]
  exact .stops (by omega) rfl hstop

namespace BeforeFlush

/-- A line attempt makes the flush if it is the next one, and else goes the same way. -/
theorem readLine (h : s.BeforeFlush k) :
    UntilFlush k (.console Console.flushFailed) s s.readLine (s.failingFrom k).readLine := by
  have hflush := Console.flush_of_none h.failingFlush
  have hread := Console.readLine_of_flush_ok (congrArg Prod.fst hflush)
  rw [hflush] at hread
  have hlt := h.flushes_lt
  by_cases hk : s.flushes + 1 < k
  · have hflush := Console.flush_of_lt (c := (s.failingFrom k).console) rfl hk
    have hread' := Console.readLine_of_flush_ok (congrArg Prod.fst hflush)
    rw [hflush] at hread'
    rw [readLine_eq s, readLine_eq (s.failingFrom k), hread, hread']
    exact .agrees ⟨h.failingFlush, hk⟩ rfl
  · obtain rfl : k = s.flushes + 1 := by omega
    have hflush := Console.flush_of_le (c := (s.failingFrom (s.flushes + 1)).console) rfl (by rfl)
    have hread' := Console.readLine_of_flush_error (congrArg Prod.fst hflush)
    rw [hflush] at hread'
    rw [readLine_eq s, readLine_eq (s.failingFrom _), hread, hread']
    exact .stops (by rfl) rfl ⟨rfl, rfl⟩

/-- A search for an integer goes the same way until the attempt that makes the flush. -/
theorem readInteger (h : s.BeforeFlush k) :
    UntilFlush k (.console Console.flushFailed) s s.readInteger (s.failingFrom k).readInteger := by
  -- The induction follows the search on `s` from line to line.
  induction s using readInteger.induct with
  | case1 s kind after hread =>
    have hresult := readInteger_of_error s (by rw [hread])
    rcases h.readLine with ⟨hbefore, heq⟩ | ⟨hmade, hfails, hstop⟩
    · rw [hresult, readInteger_of_error (s.failingFrom k) (by rw [heq, hread]), heq]
      exact .agrees hbefore rfl
    · exact readInteger_of_stops hmade hfails hstop
  | case2 s line after hread value hvalue =>
    have hresult := readInteger_of_some s (by rw [hread]) hvalue
    rcases h.readLine with ⟨hbefore, heq⟩ | ⟨hmade, hfails, hstop⟩
    · rw [hresult, readInteger_of_some (s.failingFrom k) (by rw [heq, hread]) hvalue, heq]
      exact .agrees hbefore rfl
    · exact readInteger_of_stops hmade hfails hstop
  | case3 s line after hread hvalue ih =>
    have hresult := readInteger_of_none s (by rw [hread]) hvalue
    rcases h.readLine with ⟨hbefore, heq⟩ | ⟨hmade, hfails, hstop⟩
    · obtain rfl : s.readLine.2 = after := by rw [hread]
      have hrest := ih ⟨hbefore.failingFlush, hbefore.flushes_lt⟩
      rw [hresult, readInteger_of_none (s.failingFrom k) (by rw [heq, hread]) hvalue, heq]
      rcases hrest with ⟨hend, hrest⟩ | ⟨hmade, hfails, hstop⟩
      · exact .agrees hend hrest
      -- The attempts before the one that stops wrote nothing.
      · refine .stops hmade hfails ⟨hstop.heap, hstop.output.trans ?_⟩
        rw [console_report, console_readLine, Console.output_readLine]
    · exact readInteger_of_stops hmade hfails hstop

/-- Nothing is allocated when the attempt to read a line makes the flush. -/
theorem readText (h : s.BeforeFlush k) :
    UntilFlush k (.console Console.flushFailed) s s.readText (s.failingFrom k).readText := by
  rcases h.readLine with ⟨hbefore, heq⟩ | ⟨hmade, hfails, hstop⟩
  · unfold Session.readText
    rw [heq]
    cases hs : s.readLine with
    | mk answer after =>
      rw [hs] at hbefore
      cases answer with
      | error kind => exact .agrees hbefore rfl
      | ok line => exact .agrees ⟨hbefore.failingFlush, hbefore.flushes_lt⟩ rfl
  · have hread : (s.failingFrom k).readLine =
        (.error (.console Console.flushFailed), (s.failingFrom k).readLine.2) := by rw [← hfails]
    have hresult : (s.failingFrom k).readText =
        (.error (.console Console.flushFailed), (s.failingFrom k).readLine.2) := by
      unfold Session.readText
      rw [hread]
    have hone : s.readLine.2.flushes = s.readText.2.flushes := by
      rw [flushes, flushes, output_readText, console_readLine, Console.output_readLine]
    rw [hresult]
    exact .stops (by omega) rfl hstop

/-- A call goes the same way until the flush, which only one that reads can make. -/
theorem call (h : s.BeforeFlush k) (c : Call) :
    UntilFlush k ⟨c.name, .console Console.flushFailed⟩ s (s.call c)
      ((s.failingFrom k).call c) := by
  by_cases hreads : (Operation.call c).readsLines = true
  · cases c with
    | readi => exact h.readInteger.answer some "readi"
    | reads => exact h.readText.answer some "reads"
    | printi | printc | prints | println | new | size | add | get | set => cases hreads
  · have hquiet : (Operation.call c).readsLines = false := by simpa using hreads
    have hfails := (s.console_perform_of_not_readsLines hquiet).2
    have hflushes := s.flushes_call_of_not_readsLines hquiet
    have hlt := h.flushes_lt
    exact .agrees ⟨hfails.trans h.failingFlush, by omega⟩ (call_failingFrom k hquiet)

end BeforeFlush

end

end Session

end ArrayHost
