import Mathlib.Data.List.Induction
import ArrayHost.Proofs.Alike
import ArrayHost.Proofs.Flushing

/-!
# Output of limited capacity

An output that takes only so many bytes in total takes the first bytes of all that is printed, also
when printing goes on after a failure. The invariant of a sequence of operations is that the bytes
taken so far are the first ones of the texts handed over so far (`taken_performAll`): a text that
does not fit is taken up to the capacity, and after that only the empty text still fits.

Nothing else depends on the capacity. `Beside` relates sessions that differ in what their outputs
took and may take at most. All primitives but `write` respect it (`Beside.respected`), and `write`
keeps it (`Beside.perform`).
-/

namespace ArrayHost

/-- Two consoles that differ in what their outputs took and may take, and in their events, at
most. -/
structure Console.Beside (c d : Console) : Prop where
  /-- The inputs are the same. -/
  input_eq : c.input = d.input
  /-- The same flushes fail. -/
  failingFlush_eq : c.output.failingFlush = d.output.failingFlush
  /-- There were as many flushes. -/
  flushes_eq : c.output.flushes = d.output.flushes

namespace Console.Beside

variable {c d : Console}

/-- A flush succeeds on both consoles or on none. -/
theorem fst_flush (h : c.Beside d) : c.flush.1 = d.flush.1 := by
  unfold flush Output.flush
  simp only [h.failingFlush_eq, h.flushes_eq]

/-- The consoles stay related when both are flushed. -/
theorem snd_flush (h : c.Beside d) : c.flush.2.Beside d.flush.2 where
  input_eq := h.input_eq
  failingFlush_eq := h.failingFlush_eq
  flushes_eq := congrArg (· + 1) h.flushes_eq

/-- The same line is read on both consoles, or none. -/
theorem readLine (h : c.Beside d) :
    c.readLine.1 = d.readLine.1 ∧ c.readLine.2.Beside d.readLine.2 := by
  have hd : d.flush.1 = c.flush.1 := h.fst_flush.symm
  have hflush := h.snd_flush
  cases hc : c.flush.1 with
  | error e =>
    rw [readLine_of_flush_error hc, readLine_of_flush_error (hd.trans hc)]
    exact ⟨rfl, hflush⟩
  | ok =>
    rw [readLine_of_flush_ok hc, readLine_of_flush_ok (hd.trans hc)]
    have htake : c.flush.2.input.take = d.flush.2.input.take := by rw [hflush.input_eq]
    refine ⟨?_, ?_, hflush.failingFlush_eq, hflush.flushes_eq⟩
    · rw [fst_takeLine, fst_takeLine, htake]
    · rw [input_takeLine, input_takeLine, htake]

/-- A write on either side leaves the consoles related. -/
theorem write (h : c.Beside d) (text text' : List Char) :
    (c.write text).2.Beside (d.write text').2 := by
  obtain ⟨count, hc⟩ := c.output.output_write (Text.encode text)
  obtain ⟨count', hd⟩ := d.output.output_write (Text.encode text')
  refine ⟨h.input_eq, ?_, ?_⟩
  · rw [output_write, output_write, hc, hd]
    exact h.failingFlush_eq
  · rw [output_write, output_write, hc, hd]
    exact h.flushes_eq

end Console.Beside

namespace Session

/-- Two sessions that differ in what their outputs took and may take, and in their events and logs,
at most. -/
structure Beside (s t : Session) : Prop where
  /-- The heaps are the same. -/
  heap_eq : s.heap = t.heap
  /-- The consoles are related. -/
  console : s.console.Beside t.console

/-- The session on an output without a limit. -/
def unlimited (s : Session) : Session := { s with console.output.capacity := none }

namespace Beside

variable {s t : Session}

/-- What is read, flushed and changed does not depend on what was written. -/
theorem respected : Respected Beside where
  heap_eq s t h := h.heap_eq
  report s t record h := ⟨h.heap_eq, h.console⟩
  readLine s t h := by
    obtain ⟨hline, hconsole⟩ := h.console.readLine
    refine ⟨?_, h.heap_eq, hconsole⟩
    rw [fst_readLine, fst_readLine, hline]
  finish s t h := by
    refine ⟨?_, h.heap_eq, h.console.snd_flush⟩
    unfold Session.finish
    simp only [h.console.fst_flush]
  change s t _ operation h := by
    refine ⟨?_, h.console⟩
    rw [heap_change, heap_change, h.heap_eq]

/-- An operation keeps sessions related, also one that prints, whether its text fits or not. -/
theorem perform (h : s.Beside t) (op : Operation) : (s.perform op).2.Beside (t.perform op).2 := by
  cases htext : s.printed? op with
  | none => exact (respected.perform h htext).2
  | some text =>
    obtain ⟨-, hheap, hconsole⟩ := perform_of_printed? htext
    rw [printed?_congr h.heap_eq] at htext
    obtain ⟨-, hheap', hconsole'⟩ := perform_of_printed? htext
    refine ⟨?_, ?_⟩
    · rw [hheap, hheap', h.heap_eq]
    · rw [hconsole, hconsole']
      exact h.console.write text text

/-- A sequence of operations keeps sessions related. -/
theorem performAll (h : s.Beside t) (ops : List Operation) :
    (s.performAll ops).Beside (t.performAll ops) := by
  induction ops generalizing s t with
  | nil => exact h
  | cons op ops ih => exact ih (h.perform op)

end Beside

/-- An operation that hands no text to the console writes nothing, and leaves the capacity. -/
theorem output_perform_of_printed?_eq_none {s : Session} {op : Operation}
    (h : s.printed? op = none) : ∃ m, (s.perform op).2.console.output =
      { s.console.output with flushes := s.console.output.flushes + m } := by
  by_cases hreads : op.readsLines = true
  · obtain ⟨m, -, houtput⟩ := s.output_perform_of_readsLines hreads
    exact ⟨m, houtput⟩
  -- The operations of the heap leave the console alone, and `finish` makes one flush.
  cases op with
  | allocate => exact ⟨0, rfl⟩
  | finish => exact ⟨1, rfl⟩
  | call c =>
    cases c with
    | printi | printc | println => cases h
    | readi | reads => exact absurd rfl hreads
    | new | size | add | get | set => exact ⟨0, rfl⟩
    | prints a =>
      cases ha : s.heap.array a with
      | ok contents =>
        rw [printed?_prints_of_array ha] at h
        cases h
      | error e => exact ⟨0, by rw [perform_prints_of_error ha]; rfl⟩

/-- No operation changes the capacity. -/
theorem capacity_perform (s : Session) (op : Operation) :
    (s.perform op).2.console.output.capacity = s.console.output.capacity := by
  cases htext : s.printed? op with
  | none =>
    obtain ⟨m, houtput⟩ := output_perform_of_printed?_eq_none htext
    rw [houtput]
  | some text =>
    obtain ⟨count, houtput⟩ := s.console.output.output_write (Text.encode text)
    rw [(perform_of_printed? htext).2.2, Console.output_write, houtput]

/-- No sequence of operations changes the capacity. -/
theorem capacity_performAll (s : Session) (ops : List Operation) :
    (s.performAll ops).console.output.capacity = s.console.output.capacity := by
  induction ops generalizing s with
  | nil => rfl
  | cons op ops ih => rw [performAll_cons, ih, capacity_perform]

/-- Bytes that an output with `n - written` bytes of room takes after it took the first `n`. -/
theorem take_append_take_room {α : Type} (xs ys : List α) (n : ℕ) :
    xs.take n ++ ys.take (n - (xs.take n).length) = (xs ++ ys).take n := by
  rw [List.take_append, List.length_take]
  have hroom : n - min n xs.length = n - xs.length := by omega
  rw [hroom]

/-- The bytes that are printed in a trace and one more step. -/
theorem printedBytes_concat (t : List Step) (st : Step) :
    printedBytes (t ++ [st]) = printedBytes t ++ st.printed?.elim [] Text.encode := by
  simp [printedBytes]

/-- What a limited output has taken after a sequence of operations. -/
theorem taken_performAll {s : Session} {n : ℕ} (hcapacity : s.console.output.capacity = some n)
    (hwritten : s.console.output.written = #[]) (ops : List Operation) :
    (s.performAll ops).console.output.written.toList = (printedBytes (s.trace ops)).take n := by
  induction ops using List.reverseRecOn with
  | nil => simp [hwritten, trace, printedBytes]
  | append_singleton ops op ih =>
    have hlimited : (s.performAll ops).console.output.capacity = some n := by
      rw [capacity_performAll, hcapacity]
    rw [trace_concat, performAll_concat, printedBytes_concat]
    generalize s.performAll ops = u at hlimited ih ⊢
    cases htext : u.printed? op with
    | none =>
      obtain ⟨m, houtput⟩ := output_perform_of_printed?_eq_none htext
      rw [houtput, Step.printed?, htext, Option.elim_none, List.append_nil, ih]
    | some text =>
      -- The room that is left is what the bytes taken so far leave of the capacity.
      have hsize : u.console.output.written.size =
          ((printedBytes (s.trace ops)).take n).length := by
        rw [← ih, Array.length_toList]
      rw [(perform_of_limited hlimited htext).2, Step.printed?, htext, Option.elim_some,
        ← take_append_take_room, ← hsize, ← ih]
      exact Array.toList_appendList

/-- What is written to an output that takes `n` bytes in total. After any sequence of operations it
has taken the first `n` bytes of the texts that were handed to it. A step that hands it a text
succeeds exactly when the text is empty or ends within the first `n` bytes, and fails in its own
name otherwise; every other step answers as on an output without a limit, and every step leaves the
same heap as there. -/
theorem output_of_limited (s : Session) (n : ℕ) (ops : List Operation)
    (hcapacity : s.console.output.capacity = some n)
    (hwritten : s.console.output.written = #[]) :
    (s.performAll ops).console.output.written.toList = (printedBytes (s.trace ops)).take n ∧
    (s.performAll ops).heap = (s.unlimited.performAll ops).heap ∧
    ∀ (i : ℕ) (st : Step), (s.trace ops)[i]? = some st →
      ∃ st' : Step, (s.unlimited.trace ops)[i]? = some st' ∧
      st.operation = st'.operation ∧ st.printed? = st'.printed? ∧ st.after.heap = st'.after.heap ∧
      match st.printed? with
      | none => st.answer = st'.answer
      | some text => st'.answer = .ok (some 0) ∧ st.answer =
          if Text.encode text = [] ∨ (printedBytes ((s.trace ops).take (i + 1))).length ≤ n
          then .ok (some 0) else .error ⟨st.operation.name, .console Console.sinkFull⟩ := by
  have hbeside : s.Beside s.unlimited := ⟨rfl, rfl, rfl, rfl⟩
  refine ⟨taken_performAll hcapacity hwritten ops, (hbeside.performAll ops).heap_eq, ?_⟩
  intro i st hst
  rw [getElem?_trace] at hst
  obtain ⟨op, hop, rfl⟩ := Option.map_eq_some_iff.1 hst
  refine ⟨⟨s.unlimited.performAll (ops.take i), op⟩, by rw [getElem?_trace, hop]; rfl, rfl, ?_⟩
  -- The sessions that the step starts on are related, and what the limited one took is known.
  have hbefore := hbeside.performAll (ops.take i)
  have htaken := taken_performAll hcapacity hwritten (ops.take i)
  have hlimited : (s.performAll (ops.take i)).console.output.capacity = some n := by
    rw [capacity_performAll, hcapacity]
  have hunlimited : (s.unlimited.performAll (ops.take i)).console.output.capacity = none := by
    rw [capacity_performAll]
    rfl
  have hprinted : (s.trace ops).take (i + 1) =
      s.trace (ops.take i) ++ [⟨s.performAll (ops.take i), op⟩] := by
    rw [take_trace, List.take_add_one, hop, Option.toList_some, trace_concat]
  rw [hprinted, printedBytes_concat]
  generalize s.performAll (ops.take i) = u at hbefore hlimited htaken ⊢
  generalize s.unlimited.performAll (ops.take i) = v at hbefore hunlimited ⊢
  have htexts : u.printed? op = v.printed? op := printed?_congr hbefore.heap_eq
  refine ⟨htexts, (hbefore.perform op).heap_eq, ?_⟩
  cases htext : u.printed? op with
  | none =>
    simp only [Step.printed?, htext]
    exact (Beside.respected.perform hbefore htext).1
  | some text =>
    have htext' : v.printed? op = some text := by rw [← htexts, htext]
    simp only [Step.printed?, htext, Option.elim_some]
    refine ⟨(perform_of_unlimited hunlimited htext').1, ?_⟩
    refine (perform_of_limited hlimited htext).1.trans (if_congr ?_ rfl rfl)
    -- Only the empty text fits into no room.
    have hsize : u.console.output.written.size =
        min n (printedBytes (s.trace (ops.take i))).length := by
      rw [← Array.length_toList, htaken, List.length_take]
    rw [hsize, List.length_append, ← List.length_eq_zero_iff]
    omega

/-- The law on an output that takes four bytes: of the second print only the first byte of a
character of three is taken, the empty text is still printed, and the last print fails as well. -/
theorem output_of_limited_cut :
    let s : Session := { Session.start (.scripted []) with console.output.capacity := some 4 }
    let ops : List Operation := [.call (.printi 123), .call (.printc 0x20AC), .call (.new 0),
      .call (.prints 0), .call .println]
    s.console.output.capacity = some 4 ∧ s.console.output.written = #[] ∧
      (s.performAll ops).console.output.written.toList = [49, 50, 51, 0xE2] ∧
      (∀ st ∈ (s.trace ops)[1]?, st.answer = .error ⟨"printc", .console Console.sinkFull⟩) ∧
      ∀ st ∈ (s.trace ops)[3]?, st.answer = .ok (some 0) := by
  intro s ops
  obtain ⟨hwritten, -, hsteps⟩ := output_of_limited s 4 ops rfl rfl
  refine ⟨rfl, rfl, hwritten.trans (by decide +kernel), ?_, ?_⟩
  · intro st hst
    obtain ⟨st', -, -, -, -, hanswer⟩ := hsteps 1 st hst
    cases hst
    exact hanswer.2
  · intro st hst
    obtain ⟨st', -, -, -, -, hanswer⟩ := hsteps 3 st hst
    cases hst
    exact hanswer.2

end Session

end ArrayHost
