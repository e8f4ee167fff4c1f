import Mathlib.Algebra.GroupWithZero.Nat
import ArrayHost.Proofs.Flushing

/-!
# No input is taken behind output that is not flushed

The flushes of an output may fail in any pattern. A console has at most a first flush that fails,
and an operation stops at the first of its flushes that does. So `Session.scheduled` sets that flush
anew before each operation, as a given schedule has it, and a sequence of operations under the
schedule makes flushes that fail just as it says.

`Console.Chronicle` says how a console came out of another one: by which events, in which order, and
to what effect. Its order is that a line attempt takes bytes directly after a flush that succeeded.
Each operation has a chronicle (`chronicle_perform`), and those of a sequence of operations make up
one (`chronicle_trace`). An operation that reads lines and meets a flush that fails takes nothing
after it (`Step.FailsAtFlush`).
-/

namespace ArrayHost

namespace Console

namespace Event

/-- The number of bytes that the output took. -/
def written : Event → ℕ
  | .wrote count => count
  | _ => 0

/-- The number of bytes that were taken from the input. -/
def taken : Event → ℕ
  | .took count => count
  | _ => 0

/-- The event is a flush, which may have failed. -/
def isFlush : Event → Bool
  | .flushed _ => true
  | _ => false

/-- How many of the bytes that were written wait for a flush after an event, of those that waited
before it. -/
def pending (waiting : ℕ) : Event → ℕ
  | .wrote count => waiting + count
  | .flushed true => 0
  | _ => waiting

end Event

/-- The events by which a console came out of another one, in order, under a schedule that tells
which flushes fail, counted from one. -/
structure Chronicle (fails : ℕ → Bool) (c : Console) (es : List Event) (d : Console) : Prop where
  /-- They are the events that were added. -/
  events : d.events = es.reverse ++ c.events
  /-- Bytes are taken directly after a flush that succeeded. -/
  order : ∀ before count after, es = before ++ .took count :: after →
    ∃ earlier, before = earlier ++ [.flushed true]
  /-- A flush fails when the schedule says so. -/
  schedule : ∀ before delivered after, es = before ++ .flushed delivered :: after →
    delivered = !fails (c.output.flushes + before.countP Event.isFlush + 1)
  /-- All flushes are among them. -/
  flushes : d.output.flushes = c.output.flushes + es.countP Event.isFlush
  /-- All bytes that were written are accounted for. -/
  written : ∃ bytes, d.output.written.toList = c.output.written.toList ++ bytes ∧
    bytes.length = (es.map Event.written).sum
  /-- All bytes that were taken are accounted for. -/
  taken : ∃ bytes, c.input.unread = bytes ++ d.input.unread ∧
    bytes.length = (es.map Event.taken).sum

/-- The flushes of a console follow a schedule up to the first that fails, for as many as line
attempts can make of the input that is left. -/
def FlushesBy (fails : ℕ → Bool) (c : Console) : Prop :=
  ∀ n, c.output.flushes < n → n ≤ c.output.flushes + c.input.unread.length + 1 →
    (∀ j, c.output.flushes < j → j < n → fails j = false) →
      c.output.failingFlush.any (· ≤ n) = fails n

/-- A write counts the bytes that it takes for the output. -/
theorem Output.toList_written_write (o : Output) (bytes : List UInt8) :
    ∃ taken, (o.write bytes).output.written.toList = o.written.toList ++ taken ∧
      taken.length = (o.write bytes).count := by
  simp only [write]
  split
  · exact ⟨bytes, by simp, by simp⟩
  · next n _ =>
    refine ⟨bytes.take (n - o.written.size), ?_, ?_⟩ <;> split <;> simp
    · omega
    · omega

/-- A line attempt counts the bytes that it takes from the front of the input. -/
theorem Input.unread_eq_append (i : Input) :
    ∃ bytes, i.unread = bytes ++ i.take.input.unread ∧ bytes.length = i.take.count := by
  unfold take
  split
  · next line rest h =>
    exact ⟨line ++ [Text.newline], by simp [Text.eq_of_cutLine?_eq_some h], by simp⟩
  · split
    · exact ⟨i.unread, by simp, rfl⟩
    · split
      · exact ⟨[], rfl, rfl⟩
      · exact ⟨i.unread, by simp, rfl⟩

variable {fails : ℕ → Bool} {c d e : Console} {es es' : List Event}

/-- An element of a joined list is in the first part or in the second. -/
theorem append_eq_append_cons {α : Type} {xs ys before after : List α} {x : α}
    (h : xs ++ ys = before ++ x :: after) :
    (∃ rest, xs = before ++ x :: rest) ∨ ∃ rest, before = xs ++ rest ∧ ys = rest ++ x :: after := by
  rcases List.append_eq_append_iff.1 h with ⟨rest, hbefore, hys⟩ | ⟨rest, hxs, hrest⟩
  · exact .inr ⟨rest, hbefore, hys⟩
  · cases rest with
    | nil => exact .inr ⟨[], by simpa using hxs.symm, by simpa using hrest.symm⟩
    | cons y rest =>
      obtain ⟨rfl, -⟩ : x = y ∧ _ := by simpa using hrest
      exact .inl ⟨rest, hxs⟩

namespace Chronicle

/-- Nothing happened to a console that is the same. -/
theorem nil (fails : ℕ → Bool) (c : Console) : Chronicle fails c [] c where
  events := rfl
  order before count after h := by simp at h
  schedule before delivered after h := by simp at h
  flushes := rfl
  written := ⟨[], by simp, rfl⟩
  taken := ⟨[], rfl, rfl⟩

/-- One chronicle after another. -/
theorem append (h : Chronicle fails c es d) (h' : Chronicle fails d es' e) :
    Chronicle fails c (es ++ es') e where
  events := by rw [h'.events, h.events, List.reverse_append, List.append_assoc]
  order before count after hes := by
    rcases append_eq_append_cons hes with ⟨rest, hfirst⟩ | ⟨rest, rfl, hsecond⟩
    · exact h.order before count rest hfirst
    · obtain ⟨earlier, rfl⟩ := h'.order rest count after hsecond
      exact ⟨es ++ earlier, by rw [List.append_assoc]⟩
  schedule before delivered after hes := by
    rcases append_eq_append_cons hes with ⟨rest, hfirst⟩ | ⟨rest, rfl, hsecond⟩
    · exact h.schedule before delivered rest hfirst
    · rw [h'.schedule rest delivered after hsecond, h.flushes, List.countP_append, Nat.add_assoc
        c.output.flushes]
  flushes := by rw [h'.flushes, h.flushes, List.countP_append, Nat.add_assoc]
  written := by
    obtain ⟨first, hfirst, hlength⟩ := h.written
    obtain ⟨second, hsecond, hlength'⟩ := h'.written
    refine ⟨first ++ second, ?_, ?_⟩
    · rw [hsecond, hfirst, List.append_assoc]
    · rw [List.length_append, hlength, hlength', List.map_append, List.sum_append]
  taken := by
    obtain ⟨first, hfirst, hlength⟩ := h.taken
    obtain ⟨second, hsecond, hlength'⟩ := h'.taken
    refine ⟨first ++ second, ?_, ?_⟩
    · rw [hfirst, hsecond, List.append_assoc]
    · rw [List.length_append, hlength, hlength', List.map_append, List.sum_append]

/-- Where the first flush to fail is set makes no difference to what happened. -/
theorem of_failingFlush {first : Option ℕ}
    (h : Chronicle fails { c with output.failingFlush := first } es d) : Chronicle fails c es d :=
  ⟨h.events, h.order, h.schedule, h.flushes, h.written, h.taken⟩

/-- A write takes bytes for the output. -/
theorem write (fails : ℕ → Bool) (c : Console) (text : List Char) :
    Chronicle fails c [.wrote (c.output.write (Text.encode text)).count] (c.write text).2 where
  events := rfl
  order before count after h := by simp [List.cons_eq_append_iff] at h
  schedule before delivered after h := by simp [List.cons_eq_append_iff] at h
  flushes := by
    obtain ⟨count, houtput⟩ := c.output.output_write (Text.encode text)
    rw [output_write, houtput]
    rfl
  written := c.output.toList_written_write (Text.encode text)
  taken := ⟨[], rfl, rfl⟩

end Chronicle

/-- The next flush is made as the schedule says. -/
theorem FlushesBy.flush_eq (h : c.FlushesBy fails) : c.flush =
    (if fails (c.output.flushes + 1) then .error flushFailed else .ok (),
      { c with
        output := { c.output with flushes := c.output.flushes + 1 }
        events := .flushed (!fails (c.output.flushes + 1)) :: c.events }) := by
  have hnext := h (c.output.flushes + 1) (by omega) (by omega) fun j hj hj' => by omega
  rw [← hnext]
  cases hfirst : c.output.failingFlush with
  | none => simp [flush, Output.flush, hfirst, Except.isOk, Except.toBool]
  | some first =>
    by_cases hle : first ≤ c.output.flushes + 1 <;>
      simp [flush, Output.flush, hfirst, hle, Except.isOk, Except.toBool]

/-- A flush. -/
theorem Chronicle.flush (h : c.FlushesBy fails) :
    Chronicle fails c [.flushed (!fails (c.output.flushes + 1))] c.flush.2 := by
  rw [h.flush_eq]
  refine ⟨rfl, fun before count after hes => ?_, fun before delivered after hes => ?_, rfl,
    ⟨[], by simp, rfl⟩, ⟨[], rfl, rfl⟩⟩
  · simp [List.cons_eq_append_iff] at hes
  · obtain ⟨rfl, hdelivered⟩ : before = [] ∧ _ := by
      simpa [List.cons_eq_append_iff] using hes
    simp [hdelivered.1]

/-- A line attempt takes nothing when the flush before it fails. Otherwise it takes the next line of
the input. -/
theorem Chronicle.readLine (h : c.FlushesBy fails) :
    (c.readLine.1 = .error flushFailed ∧ Chronicle fails c [.flushed false] c.readLine.2) ∨
    (fails (c.output.flushes + 1) = false ∧
      Chronicle fails c [.flushed true, .took c.input.take.count] c.readLine.2) := by
  have hflush := Chronicle.flush h
  have hresult := congrArg Prod.fst h.flush_eq
  cases hnext : fails (c.output.flushes + 1) with
  | true =>
    simp only [hnext, if_true] at hresult
    rw [readLine_of_flush_error hresult]
    rw [hnext] at hflush
    exact .inl ⟨rfl, hflush⟩
  | false =>
    simp only [hnext, Bool.false_eq_true, if_false] at hresult
    rw [readLine_of_flush_ok hresult, h.flush_eq, hnext]
    obtain ⟨bytes, hbytes, hcount⟩ := c.input.unread_eq_append
    refine .inr ⟨rfl, rfl, fun before count after hes => ?_, fun before delivered after hes => ?_,
      rfl, ⟨[], by simp [takeLine], rfl⟩, bytes, hbytes, ?_⟩
    · obtain ⟨rfl, -⟩ : before = [.flushed true] ∧ _ := by
        simpa [List.cons_eq_append_iff] using hes
      exact ⟨[], rfl⟩
    · obtain ⟨rfl, rfl, -⟩ : before = [] ∧ delivered = true ∧ _ := by
        simpa [List.cons_eq_append_iff] using hes
      simp [hnext]
    · simp [hcount, Event.taken]

/-- A line that is read leaves a console whose flushes follow the schedule. -/
theorem FlushesBy.of_readLine (h : c.FlushesBy fails) {line : List Char}
    (hline : c.readLine.1 = .ok line) : c.readLine.2.FlushesBy fails := by
  have hunread := unread_readLine_lt hline
  have hfirst : fails (c.output.flushes + 1) = false := by
    rcases Chronicle.readLine h with ⟨hfails, -⟩ | ⟨hfirst, -⟩
    · rw [hfails] at hline
      cases hline
    · exact hfirst
  intro n hn hbound hbefore
  rw [output_readLine] at hn hbound hbefore ⊢
  dsimp only at hn hbound hbefore ⊢
  refine h n (by omega) (by omega) fun j hj hjn => ?_
  -- The flush that was just made did not fail.
  by_cases hmade : j = c.output.flushes + 1
  · rw [hmade, hfirst]
  · exact hbefore j (by omega) hjn

/-- A line that is read is the next one, and what comes after it is left. -/
theorem take_of_readLine {line : List Char} (h : c.readLine.1 = .ok line) :
    c.input.take.line.map Text.decode = .ok line ∧
      c.readLine.2.input = { c.input with unread := Text.afterLines 1 c.input.unread } := by
  cases hflush : c.flush.1 with
  | error e =>
    rw [readLine_of_flush_error hflush] at h
    cases h
  | ok =>
    rw [readLine_of_flush_ok hflush] at h ⊢
    have htake : c.input.take.line.map Text.decode = .ok line := h
    refine ⟨htake, ?_⟩
    cases hline : c.input.take.line with
    | error e =>
      rw [hline] at htake
      cases htake
    | ok bytes => exact Input.take_of_ok hline

/-- Where the input ends, reading does not fail as a flush does. -/
theorem Ending.error_ne_flushFailed (ending : Ending) : ending.error ≠ flushFailed := by
  cases ending <;> decide

/-- A line attempt that fails as a flush does has left the input alone. -/
theorem input_of_flushFailed (h : c.readLine.1 = .error flushFailed) :
    c.readLine.2.input = c.input := by
  cases hflush : c.flush.1 with
  | error e =>
    rw [readLine_of_flush_error hflush]
    rfl
  | ok =>
    rw [readLine_of_flush_ok hflush] at h
    have htake : c.input.take.line.map Text.decode = .error flushFailed := h
    cases hline : c.input.take.line with
    | ok bytes =>
      rw [hline] at htake
      cases htake
    | error e =>
      rw [hline] at htake
      obtain ⟨rfl, -⟩ := Input.take_of_error hline
      exact absurd (Except.error.inj htake) c.input.ending.error_ne_flushFailed

end Console

namespace Session

section

variable {fails : ℕ → Bool} {s : Session} {op : Operation}

/-- A line that the session reads is one that its console reads. -/
theorem fst_console_readLine {line : List Char} (h : s.readLine.1 = .ok line) :
    s.console.readLine.1 = .ok line :=
  eq_ok_of_mapError (s.fst_readLine.symm.trans h)

/-- A line that is read is the first that the input delivers, and the others are left. -/
theorem lines_of_readLine {line : List Char} (h : s.readLine.1 = .ok line) :
    (Console.faultless s.console.input).lines =
      line :: (Console.faultless s.readLine.2.console.input).lines := by
  obtain ⟨htake, hinput⟩ := Console.take_of_readLine (fst_console_readLine h)
  have hread := Console.readLine_of_none (c := .faultless s.console.input) rfl
  have hline : (Console.faultless s.console.input).readLine.1 = .ok line := by
    rw [hread]
    exact htake
  have hafter := (Console.take_of_readLine hline).2
  rw [Console.lines_of_ok hline, Console.lines_congr (d := .faultless s.readLine.2.console.input)]
  · rw [hread]
    rfl
  · rfl
  · rw [hafter, console_readLine, Console.faultless, Console.faultless, hinput]

/-- A line attempt that fails as a flush does has left the input alone. -/
theorem input_readLine_of_flushFailed
    (h : s.readLine.1 = .error (.console Console.flushFailed)) :
    s.readLine.2.console.input = s.console.input := by
  obtain ⟨e, hline, he⟩ := exists_error_of_mapError (s.fst_readLine.symm.trans h)
  obtain rfl : e = Console.flushFailed := by simpa using he
  exact Console.input_of_flushFailed hline

/-- A line attempt has a chronicle. It fails as a flush does if its flush fails. -/
theorem chronicle_readLine (h : s.console.FlushesBy fails) :
    ∃ es, Console.Chronicle fails s.console es s.readLine.2.console ∧
      (.flushed false ∈ es → s.readLine.1 = .error (.console Console.flushFailed)) := by
  rcases Console.Chronicle.readLine h with ⟨hfails, hchronicle⟩ | ⟨-, hchronicle⟩
  · exact ⟨_, hchronicle, fun _ => by rw [fst_readLine, hfails]; rfl⟩
  · exact ⟨_, hchronicle, fun hmem => by simp at hmem⟩

/-- A search for an integer has a chronicle. It fails as a flush does if one of its flushes does. -/
theorem chronicle_readInteger (h : s.console.FlushesBy fails) :
    ∃ es, Console.Chronicle fails s.console es s.readInteger.2.console ∧
      (.flushed false ∈ es → s.readInteger.1 = .error (.console Console.flushFailed)) := by
  -- The induction follows the search from line to line. Each line that is skipped leaves a console
  -- whose flushes follow the schedule.
  induction s using readInteger.induct with
  | case1 s kind after hread =>
    have hline : s.readLine.1 = .error kind := by rw [hread]
    obtain ⟨es, hchronicle, hfails⟩ := chronicle_readLine h
    rw [readInteger_of_error s hline]
    rw [hline] at hfails
    exact ⟨es, hchronicle, fun hmem => by rw [Except.error.inj (hfails hmem)]⟩
  | case2 s line after hread value hvalue =>
    have hline : s.readLine.1 = .ok line := by rw [hread]
    obtain ⟨es, hchronicle, hfails⟩ := chronicle_readLine h
    rw [readInteger_of_some s hline hvalue]
    refine ⟨es, hchronicle, fun hmem => ?_⟩
    rw [hfails hmem] at hline
    cases hline
  | case3 s line after hread hvalue ih =>
    obtain rfl : s.readLine.2 = after := by rw [hread]
    have hline : s.readLine.1 = .ok line := by rw [hread]
    obtain ⟨es, hchronicle, hfails⟩ := chronicle_readLine h
    obtain ⟨es', hchronicle', hfails'⟩ := ih (h.of_readLine (fst_console_readLine hline))
    rw [readInteger_of_none s hline hvalue]
    refine ⟨es ++ es', hchronicle.append hchronicle', fun hmem => ?_⟩
    rcases List.mem_append.1 hmem with hmem | hmem
    · rw [hfails hmem] at hline
      cases hline
    · exact hfails' hmem

/-- An operation that reads no lines has a chronicle. -/
theorem chronicle_perform_of_not_readsLines (h : s.console.FlushesBy fails)
    (hop : op.readsLines = false) :
    ∃ es, Console.Chronicle fails s.console es (s.perform op).2.console := by
  cases hprinted : s.printed? op with
  | some text =>
    rw [(perform_of_printed? hprinted).2.2]
    exact ⟨_, .write ..⟩
  | none =>
    cases op with
    | finish => exact ⟨_, .flush h⟩
    | allocate => exact ⟨[], .nil ..⟩
    | call c =>
      cases c with
      | printi | printc | println => cases hprinted
      | prints a =>
        cases ha : s.heap.array a with
        | error e =>
          rw [perform_prints_of_error ha]
          exact ⟨[], .nil ..⟩
        | ok contents =>
          rw [printed?_prints_of_array ha] at hprinted
          cases hprinted
      | readi | reads => cases hop
      | new | size | add | get | set => exact ⟨[], .nil ..⟩

/-- Every operation has a chronicle. One that reads lines fails as a flush does if one of its
flushes fails. -/
theorem chronicle_perform (h : s.console.FlushesBy fails) (op : Operation) :
    ∃ es, Console.Chronicle fails s.console es (s.perform op).2.console ∧
      (op.readsLines = true → .flushed false ∈ es →
        (s.perform op).1 = .error ⟨op.name, .console Console.flushFailed⟩) := by
  by_cases hop : op.readsLines = false
  · obtain ⟨es, hchronicle⟩ := chronicle_perform_of_not_readsLines h hop
    exact ⟨es, hchronicle, fun hreads => by simp [hop] at hreads⟩
  cases op with
  | finish | allocate => cases hop rfl
  | call c =>
    cases c with
    | printi | printc | prints | println | new | size | add | get | set => cases hop rfl
    | readi =>
      obtain ⟨es, hchronicle, hfails⟩ := chronicle_readInteger h
      refine ⟨es, hchronicle, fun _ hmem => ?_⟩
      show (s.readInteger.1.map some).mapError _ = _
      rw [hfails hmem]
      rfl
    | reads =>
      obtain ⟨es, hchronicle, hfails⟩ := chronicle_readLine h
      cases hline : s.readLine.1 with
      | ok line =>
        rw [perform_reads_of_line hline]
        refine ⟨es, hchronicle, fun _ hmem => ?_⟩
        rw [hfails hmem] at hline
        cases hline
      | error kind =>
        rw [perform_reads_of_error hline]
        refine ⟨es, hchronicle, fun _ hmem => ?_⟩
        rw [hfails hmem] at hline
        cases hline
        rfl

/-- The lines that a search reads are the next ones of the input. -/
theorem searched_prefix (s : Session) :
    s.searched <+: (Console.faultless s.console.input).lines := by
  induction s using readInteger.induct with
  | case1 s kind after hread =>
    rw [searched_of_error (by rw [hread])]
    exact List.nil_prefix
  | case2 s line after hread value hvalue =>
    have hline : s.readLine.1 = .ok line := by rw [hread]
    rw [searched_of_some hline hvalue, lines_of_readLine hline]
    exact List.cons_prefix_cons.2 ⟨rfl, List.nil_prefix⟩
  | case3 s line after hread hvalue ih =>
    obtain rfl : s.readLine.2 = after := by rw [hread]
    have hline : s.readLine.1 = .ok line := by rw [hread]
    rw [searched_of_none hline hvalue, lines_of_readLine hline]
    exact List.cons_prefix_cons.2 ⟨rfl, ih⟩

/-- A search that fails as a flush does has found no integer in the lines that it read, and has
taken these lines from the input. -/
theorem searched_of_flushFailed
    (hfails : s.readInteger.1 = .error (.console Console.flushFailed)) :
    (∀ line ∈ s.searched, Text.readInteger? line = none) ∧
      s.readInteger.2.console.input = { s.console.input with
        unread := Text.afterLines s.searched.length s.console.input.unread } := by
  induction s using readInteger.induct with
  | case1 s kind after hread =>
    have hline : s.readLine.1 = .error kind := by rw [hread]
    rw [readInteger_of_error s hline] at hfails ⊢
    cases hfails
    rw [searched_of_error hline]
    exact ⟨by simp, input_readLine_of_flushFailed hline⟩
  | case2 s line after hread value hvalue =>
    rw [readInteger_of_some s (by rw [hread]) hvalue] at hfails
    cases hfails
  | case3 s line after hread hvalue ih =>
    obtain rfl : s.readLine.2 = after := by rw [hread]
    have hline : s.readLine.1 = .ok line := by rw [hread]
    rw [readInteger_of_none s hline hvalue] at hfails ⊢
    obtain ⟨hmalformed, hinput⟩ := ih hfails
    rw [searched_of_none hline hvalue]
    refine ⟨List.forall_mem_cons.2 ⟨hvalue, hmalformed⟩, ?_⟩
    have hfirst := (Console.take_of_readLine (fst_console_readLine hline)).2
    rw [hinput, console_report, console_readLine, hfirst, List.length_cons, Nat.add_comm,
      Text.afterLines_add]

end

namespace Step

/-- The events of a step, in order. -/
def happened (st : Step) : List Console.Event :=
  (st.after.console.events.take
    (st.after.console.events.length - st.before.console.events.length)).reverse

/-- The events of a step are those of its chronicle. -/
theorem happened_of_chronicle {fails : ℕ → Bool} {st : Step} {es : List Console.Event}
    (h : Console.Chronicle fails st.before.console es st.after.console) : st.happened = es := by
  have hlength : es.reverse.length = (es.reverse ++ st.before.console.events).length -
      st.before.console.events.length := by simp
  rw [happened, h.events, ← hlength, List.take_left, List.reverse_reverse]

/-- What a step has done that reads lines and meets a flush that fails. -/
structure FailsAtFlush (st : Step) : Prop where
  /-- It fails in its own name, as the flush does. -/
  answer : st.answer = .error ⟨st.operation.name, .console Console.flushFailed⟩
  /-- It has changed no array. -/
  heap : st.after.heap = st.before.heap
  /-- It has read the next lines of the input, -/
  read : st.linesRead <+: (Console.faultless st.before.console.input).lines
  /-- none of which holds an integer, -/
  malformed : ∀ line ∈ st.linesRead, Text.readInteger? line = none
  /-- and has taken just these. -/
  input : st.after.console.input = { st.before.console.input with
    unread := Text.afterLines st.linesRead.length st.before.console.input.unread }
  /-- `reads` has read and taken none. -/
  reads : st.operation = .call .reads →
    st.linesRead = [] ∧ st.after.console.input = st.before.console.input

/-- A search that fails as a flush does has taken no more than the lines that it read. -/
theorem failsAtFlush_readi {s : Session}
    (hanswer : answer ⟨s, .call .readi⟩ = .error ⟨"readi", .console Console.flushFailed⟩) :
    FailsAtFlush ⟨s, .call .readi⟩ := by
  have hfails : s.readInteger.1 = .error (.console Console.flushFailed) := by
    rw [answer_readi] at hanswer
    cases hsearch : s.readInteger.1 with
    | ok value =>
      rw [hsearch] at hanswer
      cases hanswer
    | error kind =>
      rw [hsearch] at hanswer
      cases hanswer
      rfl
  obtain ⟨hmalformed, hinput⟩ := searched_of_flushFailed hfails
  exact ⟨hanswer, s.heap_readInteger, s.searched_prefix, hmalformed, hinput, fun h => by cases h⟩

/-- A single attempt that fails as a flush does has taken nothing. -/
theorem failsAtFlush_reads {s : Session}
    (hanswer : answer ⟨s, .call .reads⟩ = .error ⟨"reads", .console Console.flushFailed⟩) :
    FailsAtFlush ⟨s, .call .reads⟩ := by
  have hfails : s.readLine.1 = .error (.console Console.flushFailed) := by
    rw [answer] at hanswer
    cases hline : s.readLine.1 with
    | ok line =>
      rw [perform_reads_of_line hline] at hanswer
      cases hanswer
    | error kind =>
      rw [perform_reads_of_error hline] at hanswer
      cases hanswer
      rfl
  have hafter : after ⟨s, .call .reads⟩ = s.readLine.2 := by
    rw [after, perform_reads_of_error hfails]
  have hread := linesRead_reads_of_error hfails
  have hinput := input_readLine_of_flushFailed hfails
  rw [← hafter] at hinput
  refine ⟨hanswer, by rw [hafter]; rfl, by rw [hread]; exact List.nil_prefix, by simp [hread],
    ?_, fun _ => ⟨hread, hinput⟩⟩
  rw [hread]
  exact hinput

/-- A step that reads lines and fails as a flush does has taken no more than the lines before. -/
theorem failsAtFlush {st : Step} (hop : st.operation.readsLines = true)
    (hanswer : st.answer = .error ⟨st.operation.name, .console Console.flushFailed⟩) :
    st.FailsAtFlush := by
  obtain ⟨s, op⟩ := st
  cases op with
  | finish | allocate => cases hop
  | call c =>
    cases c with
    | printi | printc | prints | println | new | size | add | get | set => cases hop
    | readi => exact failsAtFlush_readi hanswer
    | reads => exact failsAtFlush_reads hanswer

end Step

/-- The events of a trace, in order. -/
def happened (t : List Step) : List Console.Event := t.flatMap Step.happened

/-- The number of the first flush that fails under a schedule, of those that the next operation can
make: one for each line attempt that the input allows. -/
def nextFailure (fails : ℕ → Bool) (s : Session) : Option ℕ :=
  (List.range' (s.flushes + 1) (s.console.input.unread.length + 1)).find? fails

/-- The session on an output whose next flush to fail is as a schedule says. -/
def scheduled (fails : ℕ → Bool) (s : Session) : Session :=
  { s with console.output.failingFlush := s.nextFailure fails }

/-- The steps of a sequence of operations on an output whose flushes fail under a schedule. -/
def traceUnder (fails : ℕ → Bool) (s : Session) : List Operation → List Step
  | [] => []
  | op :: ops => ⟨s.scheduled fails, op⟩ :: traceUnder fails ((s.scheduled fails).perform op).2 ops

/-- The session after a sequence of operations on an output whose flushes fail under a schedule. -/
def performAllUnder (fails : ℕ → Bool) (s : Session) (ops : List Operation) : Session :=
  ops.foldl (fun s op => ((s.scheduled fails).perform op).2) s

variable (fails : ℕ → Bool)

/-- The flushes of a scheduled session follow the schedule. -/
theorem flushesBy_scheduled (s : Session) : (s.scheduled fails).console.FlushesBy fails := by
  intro n (hn : s.flushes < n) (hbound : n ≤ s.flushes + s.console.input.unread.length + 1) hbefore
  show (s.nextFailure fails).any (· ≤ n) = fails n
  cases hfirst : s.nextFailure fails with
  | none =>
    have hnone := List.find?_eq_none.1 hfirst n (List.mem_range'_1.2 ⟨hn, by omega⟩)
    simpa using hnone
  | some first =>
    obtain ⟨hfails, hmem, hearlier⟩ := List.find?_range'_eq_some.1 hfirst
    have hlate := (List.mem_range'_1.1 hmem).1
    by_cases hle : first ≤ n
    · obtain rfl : first = n := by
        by_contra hne
        have := hbefore first hlate (by omega)
        simp [hfails] at this
      simpa using hfails.symm
    · have hquiet := hearlier n hn (by omega)
      simpa [hle] using hquiet

/-- The steps of a trace have chronicles. -/
theorem chronicle_step (s : Session) (op : Operation) :
    let st : Step := ⟨s.scheduled fails, op⟩
    Console.Chronicle fails s.console st.happened st.after.console ∧
      (op.readsLines = true → .flushed false ∈ st.happened → st.FailsAtFlush) := by
  intro st
  obtain ⟨es, hchronicle, hfails⟩ := chronicle_perform (flushesBy_scheduled fails s) op
  have hhappened : st.happened = es := Step.happened_of_chronicle hchronicle
  rw [hhappened]
  exact ⟨hchronicle.of_failingFlush, fun hop hmem => Step.failsAtFlush hop (hfails hop hmem)⟩

/-- The chronicles of the steps of a trace make up one. -/
theorem chronicle_trace (s : Session) (ops : List Operation) :
    Console.Chronicle fails s.console (happened (s.traceUnder fails ops))
        (s.performAllUnder fails ops).console ∧
      ∀ st ∈ s.traceUnder fails ops, st.operation.readsLines = true →
        .flushed false ∈ st.happened → st.FailsAtFlush := by
  induction ops generalizing s with
  | nil => exact ⟨.nil .., by simp [traceUnder]⟩
  | cons op ops ih =>
    obtain ⟨hfirst, hstep⟩ := chronicle_step fails s op
    obtain ⟨hrest, hsteps⟩ := ih ((s.scheduled fails).perform op).2
    exact ⟨hfirst.append hrest, List.forall_mem_cons.2 ⟨hstep, hsteps⟩⟩

/-- No input is taken behind output that is not flushed, under any schedule of failing flushes. The
events of a sequence of operations tell all that it does to the console, and flushes fail as the
schedule says. A line attempt takes bytes directly after a flush of its own that succeeded: no byte
that was written before waits for a flush then, however many waited at the beginning. A step that
reads lines and meets a flush that fails has taken just the lines that it had read before, none of
which holds an integer, has changed no array, and fails in its own name. -/
theorem no_input_behind_unflushed (s : Session) (ops : List Operation) :
    let t := s.traceUnder fails ops
    Console.Chronicle fails s.console (happened t) (s.performAllUnder fails ops).console ∧
      (∀ before count after, happened t = before ++ .took count :: after →
        (∃ earlier, before = earlier ++ [.flushed true]) ∧
          ∀ waiting, before.foldl Console.Event.pending waiting = 0) ∧
      ∀ st ∈ t, st.operation.readsLines = true → .flushed false ∈ st.happened →
        st.FailsAtFlush := by
  intro t
  obtain ⟨hchronicle, hsteps⟩ := chronicle_trace fails s ops
  refine ⟨hchronicle, fun before count after hsplit => ?_, hsteps⟩
  obtain ⟨earlier, rfl⟩ := hchronicle.order before count after hsplit
  exact ⟨⟨earlier, rfl⟩, fun waiting => by rw [List.foldl_append]; rfl⟩

/-- Of the lines `x` and `5`, a search has skipped the first when the second flush fails. The next
search finds the second. -/
example :
    let t := (Session.start (.scripted [120, 10, 53, 10])).traceUnder (· = 2)
      [.call .readi, .call .readi]
    happened t = [.flushed true, .took 2, .flushed false, .flushed true, .took 2] ∧
      t.map Step.answer = [.error ⟨"readi", .console Console.flushFailed⟩, .ok (some 5)] := by
  decide +kernel

end Session

end ArrayHost
