import ArrayHost.Proofs.Flushing
import ArrayHost.Proofs.HeapHistory
import ArrayHost.Proofs.Printing

/-!
# What a failure leaves

An operation that fails names itself and leaves the arrays alone. There are two ways to fail. The
heap refuses an operation before anything is done (`perform_of_refusal?`), and for a reason that can
be told from the arrays and the arguments alone: a handle that names no array, then an index that
names no element, or a negative size. The console fails an operation part way
(`kind_of_refusal?_eq_none`): a print has then written the first bytes of its text but not all of
them, and an attempt to read has written none. `Step.failsAtomically` puts this together.
-/

namespace ArrayHost

namespace Heap

variable {t : Heap} {h i : Int32} {e : Error}

/-- An array is missed exactly when the handle is negative or not below the number of arrays, and
the error names the handle. -/
theorem array_eq_error_iff_range : t.array h = .error e ↔
    (h.toInt < 0 ∨ (t.size : ℤ) ≤ h.toInt) ∧ e = .invalidHandle h := by
  rw [array_eq_error_iff, at?_eq_none_iff]
  rfl

/-- A handle names an array exactly when it is not negative and the table has one at its value. -/
theorem array_eq_ok_iff_getElem? {contents : Array Int32} : t.array h = .ok contents ↔
    0 ≤ h.toInt ∧ t.arrays[h.toInt.toNat]? = some contents := by
  rw [array_eq_ok_iff, at?_eq_some_iff]

/-- A reading of an element is refused with an invalid handle exactly when the array is. -/
theorem get_eq_invalidHandle_iff {handle : Int32} :
    t.get h i = .error (.invalidHandle handle) ↔ t.array h = .error (.invalidHandle handle) := by
  rw [get_eq_error_iff]
  constructor
  · rintro (harray | ⟨contents, -, -, he⟩)
    · exact harray
    · cases he
  · exact .inl

/-- A reading of an element is refused for the index exactly when the handle names an array and the
index is negative or not below its length. -/
theorem get_eq_indexOutOfBounds_iff {index : Int32} :
    t.get h i = .error (.indexOutOfBounds index) ↔
      i = index ∧ ∃ contents, 0 ≤ h.toInt ∧ t.arrays[h.toInt.toNat]? = some contents ∧
        (i.toInt < 0 ∨ (contents.size : ℤ) ≤ i.toInt) := by
  rw [get_eq_error_iff]
  constructor
  · rintro (harray | ⟨contents, harray, hindex, he⟩)
    · obtain ⟨-, he⟩ := array_eq_error_iff.1 harray
      cases he
    · obtain ⟨h0, hcontents⟩ := array_eq_ok_iff_getElem?.1 harray
      cases he
      exact ⟨rfl, contents, h0, hcontents, at?_eq_none_iff.1 hindex⟩
  · rintro ⟨rfl, contents, h0, hcontents, hindex⟩
    exact .inr ⟨contents, array_eq_ok_iff_getElem?.2 ⟨h0, hcontents⟩, at?_eq_none_iff.2 hindex, rfl⟩

end Heap

namespace Session

/-- The handle that an operation names. -/
def Operation.handle? : Operation → Option Int32
  | .call (.prints h) | .call (.size h) | .call (.add h _) | .call (.get h _)
  | .call (.set h _ _) => some h
  | _ => none

/-- The index that an operation names. -/
def Operation.index? : Operation → Option Int32
  | .call (.get _ i) | .call (.set _ i _) => some i
  | _ => none

/-- The error of a result, if it is one. -/
def error? {α : Type} : Except Heap.Error α → Option Heap.Error
  | .ok _ => none
  | .error e => some e

/-- Why the heap refuses an operation, if it does. -/
def refusal? (s : Session) : Operation → Option Heap.Error
  | .call (.prints h) | .call (.size h) | .call (.add h _) => error? (s.heap.array h)
  | .call (.get h i) | .call (.set h i _) => error? (s.heap.get h i)
  | .call (.new n) => if n.toInt < 0 then some (.negativeSize n) else none
  | _ => none

/-- The error of a result is the one that it fails with. -/
theorem error?_eq_some_iff {α : Type} {r : Except Heap.Error α} {e : Heap.Error} :
    error? r = some e ↔ r = .error e := by
  cases r <;> simp [error?]

variable {s : Session} {op : Operation} {e : Heap.Error}

/-- An operation that the heap refuses does nothing. -/
theorem perform_of_refusal? (h : s.refusal? op = some e) :
    s.perform op = (.error ⟨op.name, .heap e⟩, s) := by
  cases op with
  | finish | allocate => cases h
  | call c =>
    cases c with
    | printi | printc | println | readi | reads => cases h
    | prints a => exact perform_prints_of_error (error?_eq_some_iff.1 h)
    | size a => exact perform_size_of_error (error?_eq_some_iff.1 h)
    | add a x => exact perform_add_of_error (error?_eq_some_iff.1 h)
    | get a i => exact perform_get_of_error (error?_eq_some_iff.1 h)
    | set a i x => exact perform_set_of_error (error?_eq_some_iff.1 h)
    | new n =>
      simp only [refusal?] at h
      split at h
      · next hn =>
        cases h
        exact perform_new_of_neg hn
      · cases h

/-- A line attempt fails only when the console does. -/
theorem kind_of_readLine_error {kind : Fatal.Kind} (h : s.readLine.1 = .error kind) :
    ∃ e, kind = .console e := by
  rw [fst_readLine] at h
  cases hline : s.console.readLine.1 with
  | ok line => simp [hline] at h
  | error e =>
    rw [hline] at h
    cases h
    exact ⟨e, rfl⟩

/-- A search for an integer fails only when the console does. -/
theorem kind_of_readInteger_error {kind : Fatal.Kind} (h : s.readInteger.1 = .error kind) :
    ∃ e, kind = .console e := by
  fun_induction readInteger s with
  | case1 s kind' after hline =>
    cases h
    exact kind_of_readLine_error (s := s) (by rw [hline])
  | case2 => cases h
  | case3 s line after hline hv ih => exact ih h

/-- An operation that the heap does not refuse fails only when the console does. -/
theorem kind_of_refusal?_eq_none (h : s.refusal? op = none) {fatal : Fatal}
    (hfails : (s.perform op).1 = .error fatal) : ∃ e, fatal = ⟨op.name, .console e⟩ := by
  cases op with
  | allocate contents =>
    rw [perform_allocate] at hfails
    cases hfails
  | finish =>
    change ((s.console.flush.1.mapError _).map _ : Except Fatal (Option Int32)) = _ at hfails
    cases hflush : s.console.flush.1 with
    | ok => simp [hflush, Except.map] at hfails
    | error e =>
      rw [hflush] at hfails
      cases hfails
      exact ⟨e, rfl⟩
  | call c =>
    cases c with
    | printi | printc | println =>
      obtain ⟨e, -, hfatal⟩ := write_of_perform_error rfl hfails
      exact ⟨e, hfatal⟩
    | prints a =>
      cases ha : s.heap.array a with
      | error e => simp [refusal?, ha, error?] at h
      | ok contents =>
        have htext := printed?_prints_of_array ha
        obtain ⟨e, -, hfatal⟩ := write_of_perform_error htext hfails
        exact ⟨e, hfatal⟩
    | readi =>
      rw [perform, fst_call] at hfails
      cases hread : s.readInteger.1 with
      | ok value => simp [attempt, attempt.answer, hread, Except.map] at hfails
      | error kind =>
        obtain ⟨e, rfl⟩ := kind_of_readInteger_error hread
        simp only [attempt, attempt.answer, hread] at hfails
        cases hfails
        exact ⟨e, rfl⟩
    | reads =>
      cases hline : s.readLine.1 with
      | ok line => simp [perform_reads_of_line hline] at hfails
      | error kind =>
        obtain ⟨e, rfl⟩ := kind_of_readLine_error hline
        rw [perform_reads_of_error hline] at hfails
        cases hfails
        exact ⟨e, rfl⟩
    | new n =>
      have hn : 0 ≤ n.toInt := by
        by_contra hn
        simp [refusal?, show n.toInt < 0 by omega] at h
      simp [perform_new_of_nonneg hn] at hfails
    | size a =>
      cases ha : s.heap.array a with
      | error e => simp [refusal?, ha, error?] at h
      | ok contents => simp [perform_size_of_array ha] at hfails
    | add a x =>
      cases ha : s.heap.array a with
      | error e => simp [refusal?, ha, error?] at h
      | ok contents => simp [perform_add_of_array ha] at hfails
    | get a i =>
      cases hg : s.heap.get a i with
      | error e => simp [refusal?, hg, error?] at h
      | ok y => simp [perform_get_of_get hg] at hfails
    | set a i x =>
      cases hg : s.heap.get a i with
      | error e => simp [refusal?, hg, error?] at h
      | ok y => simp [perform_set_of_get hg] at hfails

/-- An operation fails for a reason of the heap exactly when the heap refuses it. -/
theorem perform_eq_heap_error_iff :
    (∃ function, (s.perform op).1 = .error ⟨function, .heap e⟩) ↔ s.refusal? op = some e := by
  constructor
  · rintro ⟨function, hfails⟩
    cases hrefusal : s.refusal? op with
    | none =>
      obtain ⟨e', he'⟩ := kind_of_refusal?_eq_none hrefusal hfails
      cases he'
    | some e' =>
      rw [perform_of_refusal? hrefusal] at hfails
      cases hfails
      rfl
  · intro hrefusal
    exact ⟨op.name, by rw [perform_of_refusal? hrefusal]⟩

/-- When the heap refuses an operation for its handle. -/
theorem refusal?_eq_invalidHandle_iff {h : Int32} : s.refusal? op = some (.invalidHandle h) ↔
    op.handle? = some h ∧ (h.toInt < 0 ∨ (s.heap.size : ℤ) ≤ h.toInt) := by
  have harray (a : Int32) : s.heap.array a = .error (.invalidHandle h) ↔
      a = h ∧ (h.toInt < 0 ∨ (s.heap.size : ℤ) ≤ h.toInt) := by
    rw [Heap.array_eq_error_iff_range, Heap.Error.invalidHandle.injEq, and_comm]
    constructor
    · rintro ⟨rfl, hrange⟩
      exact ⟨rfl, hrange⟩
    · rintro ⟨rfl, hrange⟩
      exact ⟨rfl, hrange⟩
  cases op with
  | finish | allocate => simp [refusal?, Operation.handle?]
  | call c =>
    cases c with
    | printi | printc | println | readi | reads => simp [refusal?, Operation.handle?]
    | new n => simp [refusal?, Operation.handle?]
    | prints a | size a | add a x =>
      simp only [refusal?, Operation.handle?, error?_eq_some_iff, harray, Option.some.injEq]
    | get a i | set a i x =>
      simp only [refusal?, Operation.handle?, error?_eq_some_iff, Heap.get_eq_invalidHandle_iff,
        harray, Option.some.injEq]

/-- When the heap refuses an operation for its index. -/
theorem refusal?_eq_indexOutOfBounds_iff {i : Int32} :
    s.refusal? op = some (.indexOutOfBounds i) ↔ op.index? = some i ∧
      ∃ h contents, op.handle? = some h ∧ 0 ≤ h.toInt ∧
        s.heap.arrays[h.toInt.toNat]? = some contents ∧
        (i.toInt < 0 ∨ (contents.size : ℤ) ≤ i.toInt) := by
  have harray (a : Int32) : s.heap.array a ≠ .error (.indexOutOfBounds i) := by
    rw [ne_eq, Heap.array_eq_error_iff_range]
    simp
  cases op with
  | finish | allocate => simp [refusal?, Operation.index?]
  | call c =>
    cases c with
    | printi | printc | println | readi | reads => simp [refusal?, Operation.index?]
    | new n => simp [refusal?, Operation.index?]
    | prints a | size a | add a x =>
      simp [refusal?, Operation.index?, error?_eq_some_iff, harray]
    | get a j | set a j x =>
      simp only [refusal?, Operation.index?, Operation.handle?, error?_eq_some_iff,
        Heap.get_eq_indexOutOfBounds_iff, Option.some.injEq]
      constructor
      · rintro ⟨rfl, contents, h0, hcontents, hindex⟩
        exact ⟨rfl, a, contents, rfl, h0, hcontents, hindex⟩
      · rintro ⟨rfl, h, contents, rfl, h0, hcontents, hindex⟩
        exact ⟨rfl, contents, h0, hcontents, hindex⟩

/-- When the heap refuses an operation for its size. -/
theorem refusal?_eq_negativeSize_iff {n : Int32} :
    s.refusal? op = some (.negativeSize n) ↔ op = .call (.new n) ∧ n.toInt < 0 := by
  have harray (a : Int32) : s.heap.array a ≠ .error (.negativeSize n) := by
    rw [ne_eq, Heap.array_eq_error_iff_range]
    simp
  have hget (a i : Int32) : s.heap.get a i ≠ .error (.negativeSize n) := by
    rw [ne_eq, Heap.get_eq_error_iff]
    simp [harray]
  cases op with
  | finish | allocate => simp [refusal?]
  | call c =>
    cases c with
    | printi | printc | println | readi | reads => simp [refusal?]
    | prints a | size a | add a x => simp [refusal?, error?_eq_some_iff, harray]
    | get a i | set a i x => simp [refusal?, error?_eq_some_iff, hget]
    | new m =>
      simp only [refusal?, Operation.call.injEq, Call.new.injEq]
      constructor
      · intro h
        split at h
        · next hm =>
          cases h
          exact ⟨rfl, hm⟩
        · cases h
      · rintro ⟨rfl, hm⟩
        rw [if_pos hm]

/-- Why a step fails, and what its failure leaves. -/
structure Step.FailsAtomically (st : Step) : Prop where
  /-- A failure names the operation. -/
  function_eq : ∀ fatal, st.answer = .error fatal → fatal.function = st.operation.name
  /-- A failure leaves the arrays alone. -/
  heap_eq : ∀ fatal, st.answer = .error fatal → st.after.heap = st.before.heap
  /-- A failure for a reason of the heap leaves everything alone. -/
  eq_before : ∀ function e, st.answer = .error ⟨function, .heap e⟩ → st.after = st.before
  /-- A handle is refused exactly when it is negative or not below the number of arrays. -/
  invalidHandle : ∀ h,
    (∃ function, st.answer = .error ⟨function, .heap (.invalidHandle h)⟩) ↔
      st.operation.handle? = some h ∧ (h.toInt < 0 ∨ (st.before.heap.size : ℤ) ≤ h.toInt)
  /-- An index is refused exactly when the handle names an array and the index is negative or not
  below its length. -/
  indexOutOfBounds : ∀ i,
    (∃ function, st.answer = .error ⟨function, .heap (.indexOutOfBounds i)⟩) ↔
      st.operation.index? = some i ∧ ∃ h contents, st.operation.handle? = some h ∧ 0 ≤ h.toInt ∧
        st.before.heap.arrays[h.toInt.toNat]? = some contents ∧
        (i.toInt < 0 ∨ (contents.size : ℤ) ≤ i.toInt)
  /-- A size is refused exactly when it is negative. -/
  negativeSize : ∀ n,
    (∃ function, st.answer = .error ⟨function, .heap (.negativeSize n)⟩) ↔
      st.operation = .call (.new n) ∧ n.toInt < 0
  /-- A print that the console fails reads nothing and has written the first bytes of its text, but
  not all of them. -/
  printing : ∀ function e, st.operation.prints = true →
    st.answer = .error ⟨function, .console e⟩ → ∃ text, st.printed? = some text ∧
      st.after.console.input = st.before.console.input ∧
      ∃ count < (Text.encode text).length, st.after.console.output =
        { st.before.console.output with
          written := st.before.console.output.written ++ (Text.encode text).take count }
  /-- An operation that reads lines has written nothing when it fails. -/
  reading : ∀ fatal, st.operation.readsLines = true → st.answer = .error fatal →
    st.after.console.output.written = st.before.console.output.written

/-- A print that the heap does not refuse has a text. -/
theorem printed?_of_refusal?_eq_none (hprints : op.prints = true) (h : s.refusal? op = none) :
    ∃ text, s.printed? op = some text := by
  cases op with
  | finish | allocate => cases hprints
  | call c =>
    cases c with
    | printi | printc | println => exact ⟨_, rfl⟩
    | prints a =>
      cases ha : s.heap.array a with
      | error e => simp [refusal?, ha, error?] at h
      | ok contents => exact ⟨_, printed?_prints_of_array ha⟩
    | readi | reads | new | size | add | get | set => cases hprints

/-- Failures are atomic. An operation that fails names itself and leaves the arrays alone; the heap
refuses it before anything is done, exactly for the stated reasons; and a print that the console
fails has read nothing and written a proper part of its text, a reading nothing. -/
theorem Step.failsAtomically (st : Step) : st.FailsAtomically := by
  obtain ⟨s, op⟩ := st
  -- A failure that the console has no part in is a refusal.
  have hrefusal (function : String) (e : Heap.Error)
      (hfails : Step.answer ⟨s, op⟩ = .error ⟨function, .heap e⟩) : s.refusal? op = some e :=
    perform_eq_heap_error_iff.1 ⟨function, hfails⟩
  constructor
  case function_eq =>
    intro fatal hfails
    cases h : s.refusal? op with
    | none =>
      obtain ⟨e, rfl⟩ := kind_of_refusal?_eq_none h hfails
      rfl
    | some e =>
      rw [answer, perform_of_refusal? h] at hfails
      cases hfails
      rfl
  case heap_eq => exact fun fatal hfails => heap_after_of_error hfails
  case eq_before =>
    intro function e hfails
    rw [after, perform_of_refusal? (hrefusal function e hfails)]
  case invalidHandle => exact fun h => perform_eq_heap_error_iff.trans refusal?_eq_invalidHandle_iff
  case indexOutOfBounds =>
    exact fun i => perform_eq_heap_error_iff.trans refusal?_eq_indexOutOfBounds_iff
  case negativeSize => exact fun n => perform_eq_heap_error_iff.trans refusal?_eq_negativeSize_iff
  case printing =>
    intro function e hprints hfails
    have hnone : s.refusal? op = none := by
      cases h : s.refusal? op with
      | none => rfl
      | some e' =>
        rw [answer, perform_of_refusal? h] at hfails
        cases hfails
    obtain ⟨text, htext⟩ := printed?_of_refusal?_eq_none hprints hnone
    obtain ⟨e', hwrite, -⟩ := write_of_perform_error htext hfails
    obtain ⟨-, count, hcount, houtput⟩ := Console.Output.write_of_error hwrite
    refine ⟨text, htext, ?_, count, hcount, ?_⟩
    · rw [after, (perform_of_printed? htext).2.2]
      rfl
    · rw [after, (perform_of_printed? htext).2.2]
      exact houtput
  case reading =>
    intro fatal hreads hfails
    obtain ⟨m, -, houtput⟩ := s.output_perform_of_readsLines hreads
    rw [after, houtput]

end Session

end ArrayHost
