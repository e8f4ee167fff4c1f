import ArrayHost.Proofs.HeapAccess
import ArrayHost.Session

/-!
# What the parts of a session take part in

Every call is put together from a few primitives. A primitive of the heap (`change`, `look`) leaves
the console alone, and one of the console (`write`, `readLine`) leaves the heap alone; of
`readInteger`, which goes on from line to line, this is an induction over its turns. What an
operation on the arrays does is read off what the heap does (`change_of_ok`, `change_of_error`).
-/

namespace ArrayHost

/-- A write does not change which flushes fail. -/
theorem Console.Output.failingFlush_write (o : Console.Output) (bytes : List UInt8) :
    (o.write bytes).output.failingFlush = o.failingFlush := by
  simp only [write]
  split <;> split <;> rfl

/-- A call that may change the heap. -/
def Call.changesHeap : Call → Bool
  | .reads | .new _ | .add _ _ | .set _ _ _ => true
  | .printi _ | .printc _ | .prints _ | .println | .readi | .size _ | .get _ _ => false

end ArrayHost

namespace ArrayHost.Session

/-- The answer of a success is kept where errors are given another form. -/
@[simp]
theorem mapError_ok {ε ε' α : Type} (f : ε → ε') (a : α) :
    (Except.ok a : Except ε α).mapError f = .ok a := rfl

/-- An error is given another form. -/
@[simp]
theorem mapError_error {ε ε' α : Type} (f : ε → ε') (e : ε) :
    (Except.error e : Except ε α).mapError f = .error (f e) := rfl

/-- Where errors are given another form, a success was one before. -/
theorem eq_ok_of_mapError {ε ε' α : Type} {f : ε → ε'} {r : Except ε α} {a : α}
    (h : r.mapError f = .ok a) : r = .ok a := by
  cases r with
  | ok b =>
    cases h
    rfl
  | error e => cases h

/-- Where errors are given another form, an error comes from one. -/
theorem exists_error_of_mapError {ε ε' α : Type} {f : ε → ε'} {r : Except ε α} {e' : ε'}
    (h : r.mapError f = .error e') : ∃ e, r = .error e ∧ f e = e' := by
  cases r with
  | ok a => cases h
  | error e => exact ⟨e, rfl, Except.error.inj h⟩

variable (s : Session)

@[simp]
theorem heap_write (text : List Char) : (s.write text).2.heap = s.heap := rfl

@[simp]
theorem console_write (text : List Char) :
    (s.write text).2.console = (s.console.write text).2 := rfl

/-- A text is written as the console writes it. -/
theorem fst_write (text : List Char) :
    (s.write text).1 = (s.console.write text).1.mapError .console := rfl

@[simp]
theorem heap_writeCodes (codes : List Int32) : (s.writeCodes codes).2.heap = s.heap := rfl

@[simp]
theorem console_writeCodes (codes : List Int32) :
    (s.writeCodes codes).2.console = (s.console.write (codes.map Text.shownCharacter)).2 := rfl

@[simp]
theorem heap_readLine : s.readLine.2.heap = s.heap := rfl

@[simp]
theorem console_readLine : s.readLine.2.console = s.console.readLine.2 := rfl

/-- A line is read as the console reads it. -/
theorem fst_readLine : s.readLine.1 = s.console.readLine.1.mapError .console := rfl

@[simp]
theorem heap_change {α : Type} (operation : Heap → Heap.Outcome α) :
    (s.change operation).2.heap = (operation s.heap).heap := rfl

@[simp]
theorem console_change {α : Type} (operation : Heap → Heap.Outcome α) :
    (s.change operation).2.console = s.console := rfl

/-- A change answers as the heap does. -/
theorem fst_change {α : Type} (operation : Heap → Heap.Outcome α) :
    (s.change operation).1 = (operation s.heap).result.mapError .heap := rfl

@[simp]
theorem heap_report (record : Record) : (s.report record).heap = s.heap := rfl

@[simp]
theorem console_report (record : Record) : (s.report record).console = s.console := rfl

/-- The search for an integer stops where no line is read. -/
theorem readInteger_of_error {kind : Fatal.Kind} (h : s.readLine.1 = .error kind) :
    s.readInteger = (.error kind, s.readLine.2) := by
  rw [readInteger]
  split
  · next h' => simp_all
  · next h' => simp_all

/-- The search for an integer ends with a line that holds one. -/
theorem readInteger_of_some {line : List Char} {value : Int32} (h : s.readLine.1 = .ok line)
    (hv : Text.readInteger? line = some value) : s.readInteger = (.ok value, s.readLine.2) := by
  rw [readInteger]
  split
  · next h' => simp_all
  · next h' => simp_all

/-- The search for an integer goes on after a line that holds none. -/
theorem readInteger_of_none {line : List Char} (h : s.readLine.1 = .ok line)
    (hv : Text.readInteger? line = none) :
    s.readInteger = (s.readLine.2.report (.skippedLine line)).readInteger := by
  rw [readInteger]
  split
  · next h' => simp_all
  · next h' => simp_all

/-- The search for an integer does not change the heap. -/
@[simp]
theorem heap_readInteger : s.readInteger.2.heap = s.heap := by
  fun_induction readInteger s with
  | case1 s kind after h =>
    rw [← s.heap_readLine, h]
  | case2 s line after h value hv =>
    rw [← s.heap_readLine, h]
  | case3 s line after h hv ih =>
    rw [ih, heap_report, ← s.heap_readLine, h]

/-- A call names its function in a failure. -/
theorem fst_call (c : Call) : (s.call c).1 = (s.attempt c).1.mapError (⟨c.name, ·⟩) := rfl

/-- A call leaves what its attempt leaves. -/
@[simp]
theorem snd_call (c : Call) : (s.call c).2 = (s.attempt c).2 := rfl

@[simp]
theorem heap_finish : s.finish.2.heap = s.heap := rfl

@[simp]
theorem console_finish : s.finish.2.console = s.console.flush.2 := rfl

section

variable {s} {h i x : Int32}

/-- A call answers what its attempt answers. -/
theorem perform_of_attempt_ok {c : Call} {answer : Option Int32} {t : Session}
    (hc : s.attempt c = (.ok answer, t)) : s.perform (.call c) = (.ok answer, t) := by
  show ((s.attempt c).1.mapError _, (s.attempt c).2) = _
  rw [hc]
  rfl

/-- A call fails when its attempt does, and names its function. -/
theorem perform_of_attempt_error {c : Call} {kind : Fatal.Kind} {t : Session}
    (hc : s.attempt c = (.error kind, t)) :
    s.perform (.call c) = (.error ⟨c.name, kind⟩, t) := by
  show ((s.attempt c).1.mapError _, (s.attempt c).2) = _
  rw [hc]
  rfl

section

variable {α : Type} {operation : Heap → Heap.Outcome α} {t : Heap} {journal : List Heap.Entry}

/-- A change that the heap admits is made and journaled. -/
theorem change_of_ok {a : α} (ht : operation s.heap = ⟨.ok a, t, journal⟩) : s.change operation =
    (.ok a, { s with heap := t, log := s.log ++ journal.map Record.heap }) := by
  simp only [change, ht, mapError_ok]

/-- A change that the heap refuses does nothing. -/
theorem change_of_error {e : Heap.Error} (ht : operation s.heap = s.heap.unchanged (.error e)) :
    s.change operation = (.error (.heap e), s) := by
  simp only [change, ht, Heap.unchanged, mapError_error]
  simp

end

/-- A value is added to an array that exists. -/
theorem perform_add_of_array {contents : Array Int32} (ha : s.heap.array h = .ok contents) :
    s.perform (.call (.add h x)) = (.ok (some 0),
      { s with
        heap := ⟨s.heap.arrays.modify h.toInt.toNat (·.push x)⟩
        log := s.log.push (.heap (.pushed h x)) }) := by
  apply perform_of_attempt_ok
  show attempt.answer _ (s.change _) = _
  rw [change_of_ok (Heap.push_of_array ha)]
  rfl

/-- No value is added to an array that does not exist. -/
theorem perform_add_of_error {e : Heap.Error} (ha : s.heap.array h = .error e) :
    s.perform (.call (.add h x)) = (.error ⟨"add", .heap e⟩, s) := by
  apply perform_of_attempt_error
  show attempt.answer _ (s.change _) = _
  rw [change_of_error (Heap.push_of_error ha)]
  rfl

/-- An element that exists is overwritten. -/
theorem perform_set_of_get {y : Int32} (hg : s.heap.get h i = .ok y) :
    s.perform (.call (.set h i x)) = (.ok none,
      { s with
        heap := ⟨s.heap.arrays.modify h.toInt.toNat (·.setIfInBounds i.toInt.toNat x)⟩
        log := s.log.push (.heap (.overwritten h i x)) }) := by
  apply perform_of_attempt_ok
  show attempt.answer _ (s.change _) = _
  rw [change_of_ok (Heap.set_of_get hg)]
  rfl

/-- No element is overwritten that does not exist. -/
theorem perform_set_of_error {e : Heap.Error} (hg : s.heap.get h i = .error e) :
    s.perform (.call (.set h i x)) = (.error ⟨"set", .heap e⟩, s) := by
  apply perform_of_attempt_error
  show attempt.answer _ (s.change _) = _
  rw [change_of_error (Heap.set_of_error hg)]
  rfl

/-- The length of an array that exists is answered. -/
theorem perform_size_of_array {contents : Array Int32} (ha : s.heap.array h = .ok contents) :
    s.perform (.call (.size h)) = (.ok (some (Int32.ofNat contents.size)), s) := by
  apply perform_of_attempt_ok
  show attempt.answer some (s.look ((s.heap.array h).map _)) = _
  rw [ha]
  rfl

/-- There is no length of an array that does not exist. -/
theorem perform_size_of_error {e : Heap.Error} (ha : s.heap.array h = .error e) :
    s.perform (.call (.size h)) = (.error ⟨"size", .heap e⟩, s) := by
  apply perform_of_attempt_error
  show attempt.answer some (s.look ((s.heap.array h).map _)) = _
  rw [ha]
  rfl

/-- An element that exists is answered. -/
theorem perform_get_of_get {y : Int32} (hg : s.heap.get h i = .ok y) :
    s.perform (.call (.get h i)) = (.ok (some y), s) := by
  apply perform_of_attempt_ok
  show attempt.answer some (s.look (s.heap.get h i)) = _
  rw [hg]
  rfl

/-- An element that does not exist is refused. -/
theorem perform_get_of_error {e : Heap.Error} (hg : s.heap.get h i = .error e) :
    s.perform (.call (.get h i)) = (.error ⟨"get", .heap e⟩, s) := by
  apply perform_of_attempt_error
  show attempt.answer some (s.look (s.heap.get h i)) = _
  rw [hg]
  rfl

/-- An array that does not exist is not printed. -/
theorem perform_prints_of_error {e : Heap.Error} (ha : s.heap.array h = .error e) :
    s.perform (.call (.prints h)) = (.error ⟨"prints", .heap e⟩, s) := by
  apply perform_of_attempt_error
  simp only [attempt, ha]

/-- The session after an array is allocated. -/
def withArray (s : Session) (contents : Array Int32) : Session :=
  { s with
    heap := ⟨s.heap.arrays.push contents⟩
    log := s.log.push (.heap (.allocated (Int32.ofNat s.heap.size) contents.size)) }

/-- An array is allocated at the end of the table. -/
theorem change_allocate (contents : Array Int32) : s.change (·.allocate contents) =
    (.ok (Int32.ofNat s.heap.size), s.withArray contents) := rfl

/-- An array with the given contents is allocated. -/
theorem perform_allocate (contents : Array Int32) : s.perform (.allocate contents) =
    (.ok (some (Int32.ofNat s.heap.size)), s.withArray contents) := rfl

/-- An array of zeroes is allocated. -/
theorem perform_new_of_nonneg {n : Int32} (hn : 0 ≤ n.toInt) : s.perform (.call (.new n)) =
    (.ok (some (Int32.ofNat s.heap.size)), s.withArray (Array.replicate n.toInt.toNat 0)) := by
  apply perform_of_attempt_ok
  show attempt.answer some (s.change _) = _
  rw [change_of_ok (Heap.allocateZeroed_of_nonneg hn)]
  rfl

/-- An array of a negative number of zeroes is refused. -/
theorem perform_new_of_neg {n : Int32} (hn : n.toInt < 0) :
    s.perform (.call (.new n)) = (.error ⟨"new", .heap (.negativeSize n)⟩, s) := by
  apply perform_of_attempt_error
  show attempt.answer some (s.change _) = _
  rw [change_of_error (Heap.allocateZeroed_of_neg hn)]
  rfl

/-- A line that is read is put into a new array. -/
theorem perform_reads_of_line {line : List Char} (hl : s.readLine.1 = .ok line) :
    s.perform (.call .reads) = (.ok (some (Int32.ofNat s.heap.size)),
      s.readLine.2.withArray (line.map Text.codePoint).toArray) := by
  have hs : s.readLine = (.ok line, s.readLine.2) := by rw [← hl]
  have htext : s.readText = s.readLine.2.change (·.allocate (line.toArray.map Text.codePoint)) := by
    unfold readText
    rw [hs]
  apply perform_of_attempt_ok
  show attempt.answer some s.readText = _
  rw [htext, change_allocate, List.map_toArray]
  rfl

/-- Nothing is allocated when no line is read. -/
theorem perform_reads_of_error {kind : Fatal.Kind} (hl : s.readLine.1 = .error kind) :
    s.perform (.call .reads) = (.error ⟨"reads", kind⟩, s.readLine.2) := by
  have hs : s.readLine = (.error kind, s.readLine.2) := by rw [← hl]
  have htext : s.readText = (.error kind, s.readLine.2) := by
    unfold readText
    rw [hs]
  apply perform_of_attempt_error
  show attempt.answer some s.readText = _
  rw [htext]
  rfl

end

/-- An operation that may change the heap. -/
def Operation.changesHeap : Operation → Bool
  | .call c => c.changesHeap
  | .finish => false
  | .allocate _ => true

/-- An operation that only reads arrays, prints or flushes leaves the heap alone. -/
theorem heap_perform_of_not_changesHeap {op : Operation} (h : op.changesHeap = false) :
    (s.perform op).2.heap = s.heap := by
  cases op with
  | finish => rfl
  | allocate contents => simp [Operation.changesHeap] at h
  | call c =>
    cases c with
    | printi i => rfl
    | printc c => rfl
    | println => rfl
    | readi => exact s.heap_readInteger
    | size h => rfl
    | get h i => rfl
    | prints h =>
      simp only [perform, call, attempt]
      split <;> rfl
    | reads | new n | add h x | set h i x => simp [Operation.changesHeap, Call.changesHeap] at h

/-- An operation that reads lines. -/
def Operation.readsLines : Operation → Bool
  | .call .readi | .call .reads => true
  | _ => false

/-- What an operation that reads no lines does to the console: the input is left alone, and flushes
fail as before. -/
theorem console_perform_of_not_readsLines {op : Operation} (h : op.readsLines = false) :
    (s.perform op).2.console.input = s.console.input ∧
      (s.perform op).2.console.output.failingFlush = s.console.output.failingFlush := by
  -- Of the operations that are left, those that print write and the others do not.
  have hwrite (text : List Char) :
      (s.console.write text).2.output.failingFlush = s.console.output.failingFlush :=
    Console.Output.failingFlush_write _ _
  cases op with
  | finish => exact ⟨rfl, rfl⟩
  | allocate contents => exact ⟨rfl, rfl⟩
  | call c =>
    cases c with
    | printi | printc | println => exact ⟨rfl, hwrite _⟩
    | prints h =>
      simp only [perform, call, attempt]
      split
      · exact ⟨rfl, rfl⟩
      · exact ⟨rfl, hwrite _⟩
    | readi | reads => simp [Operation.readsLines] at h
    | new | size | add | get | set => exact ⟨rfl, rfl⟩

end ArrayHost.Session
