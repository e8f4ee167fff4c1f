import ArrayHost.Proofs.Printing

/-!
# Sessions up to their logs

No host function looks at the log. Sessions with the same heap and the same console answer alike,
and stay alike, through an operation and through a sequence of operations (`Alike.perform`,
`Alike.answers`). Much of this holds of other relations too: `Respected` lists what a relation has
to meet, primitive by primitive, for every operation that hands no text to the console to answer
alike on related sessions and to leave them related (`Respected.perform`).
-/

namespace ArrayHost.Session

/-- A relation between sessions that all primitives but `write` respect: on related sessions they
find the same, and they leave them related. -/
structure Respected (R : Session → Session → Prop) : Prop where
  /-- Related sessions have the same heap. -/
  heap_eq : ∀ s t, R s t → s.heap = t.heap
  /-- They stay related when something is put on their logs. -/
  report : ∀ s t record, R s t → R (s.report record) (t.report record)
  /-- A line is read on both or on none. -/
  readLine : ∀ s t, R s t → s.readLine.1 = t.readLine.1 ∧ R s.readLine.2 t.readLine.2
  /-- A flush succeeds on both or on none. -/
  finish : ∀ s t, R s t → s.finish.1 = t.finish.1 ∧ R s.finish.2 t.finish.2
  /-- They stay related when their heaps are changed in the same way. -/
  change : ∀ s t {α : Type} (operation : Heap → Heap.Outcome α), R s t →
    R (s.change operation).2 (t.change operation).2

namespace Respected

variable {R : Session → Session → Prop} {s t : Session}

/-- A change of the heap answers alike. -/
theorem fst_change_eq (hR : Respected R) (h : R s t) {α : Type}
    (operation : Heap → Heap.Outcome α) : (s.change operation).1 = (t.change operation).1 := by
  rw [fst_change, fst_change, hR.heap_eq s t h]

/-- The search for an integer goes through the same lines. -/
theorem readInteger (hR : Respected R) (h : R s t) :
    s.readInteger.1 = t.readInteger.1 ∧ R s.readInteger.2 t.readInteger.2 := by
  fun_induction Session.readInteger s generalizing t with
  | case1 s kind after hline =>
    obtain ⟨hanswer, hafter⟩ := hR.readLine s t h
    rw [hline] at hanswer hafter
    rw [readInteger_of_error t hanswer.symm]
    exact ⟨rfl, hafter⟩
  | case2 s line after hline value hvalue =>
    obtain ⟨hanswer, hafter⟩ := hR.readLine s t h
    rw [hline] at hanswer hafter
    rw [readInteger_of_some t hanswer.symm hvalue]
    exact ⟨rfl, hafter⟩
  | case3 s line after hline hvalue ih =>
    obtain ⟨hanswer, hafter⟩ := hR.readLine s t h
    rw [hline] at hanswer hafter
    rw [readInteger_of_none t hanswer.symm hvalue]
    exact ih (hR.report _ _ _ hafter)

/-- The same line is read into a new array. -/
theorem readText (hR : Respected R) (h : R s t) :
    s.readText.1 = t.readText.1 ∧ R s.readText.2 t.readText.2 := by
  obtain ⟨hanswer, hafter⟩ := hR.readLine s t h
  simp only [Session.readText]
  cases hs : s.readLine with
  | mk answer after =>
    cases ht : t.readLine with
    | mk answer' after' =>
      rw [hs, ht] at hanswer hafter
      simp only at hanswer hafter
      subst hanswer
      cases answer with
      | error kind => exact ⟨rfl, hafter⟩
      | ok line => exact ⟨hR.fst_change_eq hafter _, hR.change _ _ _ hafter⟩

/-- An operation that hands no text to the console answers alike on related sessions, and leaves
them related. -/
theorem perform (hR : Respected R) (h : R s t) {op : Operation} (hop : s.printed? op = none) :
    (s.perform op).1 = (t.perform op).1 ∧ R (s.perform op).2 (t.perform op).2 := by
  have hheap := hR.heap_eq s t h
  -- A change, a search or a reading is carried out; what it finds is put into the answer.
  have hanswer {α : Type} (name : String) (f : α → Option Int32)
      {r r' : Except Fatal.Kind α × Session} (hr : r.1 = r'.1 ∧ R r.2 r'.2) :
      ((attempt.answer f r).1.mapError (Fatal.mk name) =
        (attempt.answer f r').1.mapError (Fatal.mk name)) ∧
      R (attempt.answer f r).2 (attempt.answer f r').2 := by
    exact ⟨by simp only [attempt.answer, hr.1], hr.2⟩
  have hchange {α : Type} (operation : Heap → Heap.Outcome α) :=
    And.intro (hR.fst_change_eq h operation) (hR.change s t operation h)
  cases op with
  | finish =>
    obtain ⟨hfinish, hafter⟩ := hR.finish s t h
    exact ⟨by simp only [Session.perform, hfinish], hafter⟩
  | allocate contents => exact hanswer "allocate" some (hchange fun heap => heap.allocate contents)
  | call c =>
    cases c with
    | printi | printc | println => cases hop
    | prints a =>
      cases ha : s.heap.array a with
      | ok contents =>
        rw [printed?_prints_of_array ha] at hop
        cases hop
      | error e =>
        have ht : t.heap.array a = .error e := by rw [← hheap, ha]
        simp only [Session.perform, call, attempt, ha, ht]
        exact ⟨trivial, h⟩
    | readi => exact hanswer "readi" some (hR.readInteger h)
    | reads => exact hanswer "reads" some (hR.readText h)
    | new n => exact hanswer "new" some (hchange _)
    | add a x => exact hanswer "add" (fun _ => some 0) (hchange _)
    | set a i x => exact hanswer "set" (fun _ => none) (hchange _)
    | size a =>
      simp only [Session.perform, call, attempt, ← hheap]
      exact ⟨rfl, h⟩
    | get a i =>
      simp only [Session.perform, call, attempt, ← hheap]
      exact ⟨rfl, h⟩

end Respected

/-- Two sessions that differ in their logs at most. -/
structure Alike (s t : Session) : Prop where
  /-- The heaps are the same. -/
  heap_eq : s.heap = t.heap
  /-- The consoles are the same. -/
  console_eq : s.console = t.console

/-- The same answer, and sessions that differ in their logs at most. -/
def SameUpToLog {α : Type} (r r' : α × Session) : Prop :=
  r.1 = r'.1 ∧ r.2.Alike r'.2

namespace Alike

variable {s t u : Session}

theorem refl (s : Session) : s.Alike s := ⟨rfl, rfl⟩

theorem symm (h : s.Alike t) : t.Alike s := ⟨h.heap_eq.symm, h.console_eq.symm⟩

theorem trans (h : s.Alike t) (h' : t.Alike u) : s.Alike u :=
  ⟨h.heap_eq.trans h'.heap_eq, h.console_eq.trans h'.console_eq⟩

/-- A record on the log makes no difference. -/
theorem report (h : s.Alike t) (record : Record) : (s.report record).Alike t :=
  ⟨h.heap_eq, h.console_eq⟩

/-- The primitives look at the heap and the console alone. -/
theorem respected : Respected Alike where
  heap_eq s t h := h.heap_eq
  report s t record h := ⟨h.heap_eq, h.console_eq⟩
  readLine s t h := by
    refine ⟨?_, h.heap_eq, ?_⟩
    · rw [fst_readLine, fst_readLine, h.console_eq]
    · rw [console_readLine, console_readLine, h.console_eq]
  finish s t h := by
    refine ⟨?_, h.heap_eq, ?_⟩
    · simp only [Session.finish, h.console_eq]
    · rw [console_finish, console_finish, h.console_eq]
  change s t _ operation h := by
    refine ⟨?_, h.console_eq⟩
    rw [heap_change, heap_change, h.heap_eq]

/-- Sessions that are alike answer an operation alike and stay alike. -/
theorem perform (h : s.Alike t) (op : Operation) :
    SameUpToLog (s.perform op) (t.perform op) := by
  cases htext : s.printed? op with
  | none => exact respected.perform h htext
  | some text =>
    -- The same text is written to the same console.
    obtain ⟨hanswer, hheap, hconsole⟩ := perform_of_printed? htext
    rw [printed?_congr h.heap_eq] at htext
    obtain ⟨hanswer', hheap', hconsole'⟩ := perform_of_printed? htext
    refine ⟨?_, ?_, ?_⟩
    · rw [hanswer, hanswer', h.console_eq]
    · rw [hheap, hheap', h.heap_eq]
    · rw [hconsole, hconsole', h.console_eq]

theorem call (h : s.Alike t) (c : Call) : SameUpToLog (s.call c) (t.call c) := h.perform (.call c)

theorem finish (h : s.Alike t) : SameUpToLog s.finish t.finish := respected.finish s t h

/-- Sessions that are alike stay alike through a sequence of operations. -/
theorem performAll (h : s.Alike t) (ops : List Operation) :
    (s.performAll ops).Alike (t.performAll ops) := by
  induction ops generalizing s t with
  | nil => exact h
  | cons op ops ih => exact ih (h.perform op).2

/-- Sessions that are alike answer a sequence of operations alike. -/
theorem answers (h : s.Alike t) (ops : List Operation) :
    (s.trace ops).map Step.answer = (t.trace ops).map Step.answer := by
  induction ops generalizing s t with
  | nil => rfl
  | cons op ops ih =>
    have hfirst : Step.answer ⟨s, op⟩ = Step.answer ⟨t, op⟩ := (h.perform op).1
    simp only [trace, List.map_cons, hfirst, ih (h.perform op).2]

end Alike

end ArrayHost.Session
