import ArrayHost.Proofs.EncodedText
import ArrayHost.Proofs.LimitedOutput

/-!
# Printing an array is printing its elements

`prints` writes the characters of a whole array at once, `printc` one character. Writing two runs of
bytes one after the other comes to writing them together, also to an output that is full before
their end (`output_write_append`, `result_write_append_eq_error_iff`). So an array may as well be
printed element by element, going on after failures (`prints_each`): the induction over the elements
is `writes_printcs` for what is done and `exists_printc_error_iff` for what fails.
-/

namespace ArrayHost

/-- What is put behind an array in two parts is put there as one. -/
theorem appendList_appendList {α : Type} (xs : Array α) (ys zs : List α) :
    xs ++ ys ++ zs = xs ++ (ys ++ zs) := by
  simp only [← Array.toList_inj, Array.toList_appendList, List.append_assoc]

namespace Console.Output

variable (o : Output) (xs ys : List UInt8)

/-- A write leaves the capacity. -/
theorem capacity_write : (o.write xs).output.capacity = o.capacity := by
  obtain ⟨count, houtput⟩ := o.output_write xs
  rw [houtput]

/-- The room that a write leaves on a limited output. -/
theorem room_write_of_limited {n : ℕ} (h : o.capacity = some n) :
    n - (o.write xs).output.written.size =
      n - o.written.size - (xs.take (n - o.written.size)).length := by
  rw [written_write_of_limited h, ← Array.length_toList, Array.toList_appendList,
    List.length_append, Array.length_toList, Nat.sub_add_eq]

/-- An output takes as much of two runs of bytes as it takes of both together. -/
theorem output_write_append :
    ((o.write xs).output.write ys).output = (o.write (xs ++ ys)).output := by
  rcases Option.eq_none_or_eq_some o.capacity with hcapacity | ⟨n, hcapacity⟩
  · have hys := write_of_unlimited (o := { o with written := o.written ++ xs }) hcapacity ys
    rw [write_of_unlimited hcapacity xs, hys, write_of_unlimited hcapacity, appendList_appendList]
  · have hroom := o.room_write_of_limited xs hcapacity
    have hleft := (o.capacity_write xs).trans hcapacity
    rw [written_write_of_limited hleft ys, hroom, written_write_of_limited hcapacity,
      written_write_of_limited hcapacity, ← Session.take_append_take_room, appendList_appendList]

/-- A write of two runs of bytes fails as a write of one of them does. -/
theorem result_write_append_eq_error_iff {e : Error} : (o.write (xs ++ ys)).result = .error e ↔
    (o.write xs).result = .error e ∨ ((o.write xs).output.write ys).result = .error e := by
  rcases Option.eq_none_or_eq_some o.capacity with hcapacity | ⟨n, hcapacity⟩
  · have hleft := (o.capacity_write xs).trans hcapacity
    rw [write_of_unlimited hleft, write_of_unlimited hcapacity, write_of_unlimited hcapacity]
    simp
  · have hroom := o.room_write_of_limited xs hcapacity
    have hleft := (o.capacity_write xs).trans hcapacity
    rw [result_write_of_limited hleft, hroom, result_write_of_limited hcapacity,
      result_write_of_limited hcapacity, List.length_append]
    by_cases hxs : xs.length ≤ n - o.written.size
    · have hfits : xs.length + ys.length ≤ n - o.written.size ↔
        ys.length ≤ n - o.written.size - xs.length := by omega
      simp [if_pos hxs, List.take_of_length_le hxs, hfits]
    · -- The reason is the same where both fail.
      have hfull : ¬ xs.length + ys.length ≤ n - o.written.size := by omega
      rw [if_neg hxs, if_neg hfull]
      split <;> simp

end Console.Output

/-- The numbers without a character are those that are negative, those of surrogates and those above
the last character. -/
theorem Text.invalidCodes_eq (codes : List Int32) : Text.invalidCodes codes =
    codes.filter fun code => ¬ (0 ≤ code.toInt ∧ code.toInt.toNat.isValidChar) := by
  refine List.filter_congr fun code _ => ?_
  unfold character?
  split <;> simp_all

namespace Session

/-- The calls that print characters one by one. -/
def printcs (codes : List Int32) : List Operation := codes.map fun code => .call (.printc code)

variable {s : Session}

/-- What printing the characters of numbers does to a session. -/
structure Writes (s t : Session) (codes : List Int32) : Prop where
  /-- The characters are written, as far as they fit. -/
  output_eq : t.console.output =
    (s.console.output.write (Text.encode (codes.map Text.shownCharacter))).output
  /-- There is a warning for each number without a character. -/
  log_eq : t.log = s.log ++ (Text.invalidCodes codes).map Record.invalidCodePoint
  /-- The arrays are left alone. -/
  heap_eq : t.heap = s.heap
  /-- The input is left alone. -/
  input_eq : t.console.input = s.console.input

/-- To print no characters does nothing. -/
theorem Writes.nil (s : Session) : s.Writes s [] where
  output_eq := by
    obtain ⟨count, houtput⟩ := s.console.output.output_write []
    have hnil : Text.encode (([] : List Int32).map Text.shownCharacter) = [] := rfl
    rw [hnil, houtput, List.take_nil]
    rfl
  log_eq := by simp [Text.invalidCodes]
  heap_eq := rfl
  input_eq := rfl

/-- Characters that are printed one after the other are printed together. -/
theorem Writes.append {t u : Session} {codes more : List Int32} (h : s.Writes t codes)
    (hmore : t.Writes u more) : s.Writes u (codes ++ more) where
  output_eq := by
    rw [List.map_append, Text.encode_append, ← Console.Output.output_write_append, ← h.output_eq,
      hmore.output_eq]
  log_eq := by
    have hcodes : Text.invalidCodes (codes ++ more) =
      Text.invalidCodes codes ++ Text.invalidCodes more := List.filter_append _ _
    rw [hmore.log_eq, h.log_eq, hcodes, List.map_append, appendList_appendList]
  heap_eq := hmore.heap_eq.trans h.heap_eq
  input_eq := hmore.input_eq.trans h.input_eq

/-- The text of one character. -/
theorem printed?_printc (s : Session) (code : Int32) :
    s.printed? (.call (.printc code)) = some [Text.shownCharacter code] := rfl

/-- To print one character is to write it. -/
theorem writes_printc (s : Session) (code : Int32) :
    s.Writes (s.perform (.call (.printc code))).2 [code] := by
  obtain ⟨-, hheap, hconsole⟩ := perform_of_printed? (printed?_printc s code)
  exact ⟨by rw [hconsole]; rfl, rfl, hheap, by rw [hconsole]; rfl⟩

/-- To print an array is to write the characters of its elements. -/
theorem writes_prints {h : Int32} {contents : Array Int32}
    (hcontents : s.heap.array h = .ok contents) :
    s.Writes (s.perform (.call (.prints h))).2 contents.toList := by
  obtain ⟨-, hheap, hconsole⟩ := perform_of_printed? (printed?_prints_of_array hcontents)
  refine ⟨by rw [hconsole]; rfl, ?_, hheap, by rw [hconsole]; rfl⟩
  rw [perform, snd_call]
  simp only [attempt, hcontents]
  rfl

/-- To print characters one by one is to write them together. -/
theorem writes_printcs (s : Session) (codes : List Int32) :
    s.Writes (s.performAll (printcs codes)) codes := by
  induction codes generalizing s with
  | nil => exact .nil s
  | cons code codes ih => exact (writes_printc s code).append (ih _)

/-- An operation with a text fails as the write of its bytes does. -/
theorem perform_eq_error_iff {op : Operation} {text : List Char} (h : s.printed? op = some text)
    (fatal : Fatal) : (s.perform op).1 = .error fatal ↔
      ∃ e, (s.console.output.write (Text.encode text)).result = .error e ∧
        fatal = ⟨op.name, .console e⟩ := by
  refine ⟨fun hfails => write_of_perform_error h hfails, ?_⟩
  rintro ⟨e, hwrite, rfl⟩
  rw [(perform_of_printed? h).1, Console.fst_write, hwrite]
  rfl

/-- One of the characters fails to be printed exactly when they fail to be written together. -/
theorem exists_printc_error_iff (s : Session) (codes : List Int32) (fatal : Fatal) :
    (∃ st ∈ s.trace (printcs codes), st.answer = .error fatal) ↔
      ∃ e, (s.console.output.write (Text.encode (codes.map Text.shownCharacter))).result =
        .error e ∧ fatal = ⟨"printc", .console e⟩ := by
  induction codes generalizing s with
  | nil =>
    refine iff_of_false (by simp [printcs, trace]) ?_
    rintro ⟨e, hwrite, -⟩
    obtain ⟨-, count, hcount, -⟩ := Console.Output.write_of_error hwrite
    exact absurd hcount (Nat.not_lt_zero count)
  | cons code codes ih =>
    have hfirst := perform_eq_error_iff (printed?_printc s code) fatal
    have hrest := ih (s.perform (.call (.printc code))).2
    have hall : Text.encode ((code :: codes).map Text.shownCharacter) =
        Text.encode ([code].map Text.shownCharacter) ++
          Text.encode (codes.map Text.shownCharacter) :=
      Text.encode_append [Text.shownCharacter code] _
    have htrace : s.trace (printcs (code :: codes)) =
      ⟨s, .call (.printc code)⟩ :: (s.perform (.call (.printc code))).2.trace (printcs codes) := rfl
    rw [(writes_printc s code).output_eq] at hrest
    rw [htrace, List.exists_mem_cons_iff, hrest, Step.answer, hfirst, hall]
    simp only [Console.Output.result_write_append_eq_error_iff, or_and_right, exists_or]
    rfl

/-- A step that prints comes to the same as printing characters one by one, going on after
failures. -/
structure PrintsEach (st : Step) (codes : List Int32) : Prop where
  /-- The same bytes are output. -/
  output_eq : st.after.console.output = (st.before.performAll (printcs codes)).console.output
  /-- The same records are put on the log, in the same order. -/
  log_eq : st.after.log = (st.before.performAll (printcs codes)).log
  /-- They are warnings, one for each number that is no Unicode scalar value. -/
  warnings : st.after.log = st.before.log ++ (codes.filter fun code =>
    ¬ (0 ≤ code.toInt ∧ code.toInt.toNat.isValidChar)).map Record.invalidCodePoint
  /-- The arrays are left alone. -/
  heap_eq : st.after.heap = st.before.heap ∧
    (st.before.performAll (printcs codes)).heap = st.before.heap
  /-- The input is left alone. -/
  input_eq : st.after.console.input = st.before.console.input ∧
    (st.before.performAll (printcs codes)).console.input = st.before.console.input
  /-- The step fails exactly when one of the characters fails to be printed. -/
  fails_iff : (∃ fatal, st.answer = .error fatal) ↔
    ∃ each ∈ st.before.trace (printcs codes), ∃ fatal, each.answer = .error fatal
  /-- Each failure names the function that was called, and they differ in nothing else. -/
  fatal_eq : ∀ fatal, st.answer = .error fatal → fatal.function = st.operation.name ∧
    ∀ each ∈ st.before.trace (printcs codes), ∀ fatal', each.answer = .error fatal' →
      fatal' = ⟨"printc", fatal.kind⟩

/-- Printing an array that exists comes to the same as printing its elements as characters, one by
one and going on after failures, however much the output takes. -/
theorem prints_each (s : Session) (h : Int32) (contents : Array Int32)
    (hcontents : s.heap.array h = .ok contents) :
    PrintsEach ⟨s, .call (.prints h)⟩ contents.toList := by
  have hwhole := writes_prints hcontents
  have heach := writes_printcs s contents.toList
  have hfails := perform_eq_error_iff (printed?_prints_of_array hcontents)
  have hfailsEach (fatal : Fatal) := exists_printc_error_iff s contents.toList fatal
  constructor
  case output_eq => exact hwhole.output_eq.trans heach.output_eq.symm
  case log_eq => exact hwhole.log_eq.trans heach.log_eq.symm
  case warnings =>
    rw [← Text.invalidCodes_eq]
    exact hwhole.log_eq
  case heap_eq => exact ⟨hwhole.heap_eq, heach.heap_eq⟩
  case input_eq => exact ⟨hwhole.input_eq, heach.input_eq⟩
  case fails_iff =>
    constructor
    · rintro ⟨fatal, hfatal⟩
      obtain ⟨e, hwrite, -⟩ := (hfails fatal).1 hfatal
      obtain ⟨st, hst, hanswer⟩ := (hfailsEach _).2 ⟨e, hwrite, rfl⟩
      exact ⟨st, hst, _, hanswer⟩
    · rintro ⟨st, hst, fatal, hanswer⟩
      obtain ⟨e, hwrite, -⟩ := (hfailsEach fatal).1 ⟨st, hst, hanswer⟩
      exact ⟨_, (hfails _).2 ⟨e, hwrite, rfl⟩⟩
  case fatal_eq =>
    intro fatal hfatal
    obtain ⟨e, hwrite, rfl⟩ := (hfails fatal).1 hfatal
    refine ⟨rfl, fun st hst fatal' hanswer => ?_⟩
    obtain ⟨e', hwrite', rfl⟩ := (hfailsEach fatal').1 ⟨st, hst, hanswer⟩
    rw [hwrite] at hwrite'
    cases hwrite'
    rfl

/-- An array of a letter, a negative number, a surrogate and a character of four bytes on an output
that takes six bytes: the second replacement is cut, and both ways to print fail. -/
theorem prints_each_cut :
    let s : Session := { Session.start (.scripted []) with
      heap := ⟨#[#[65, -1, 0xD800, 0x1F600]]⟩, console.output.capacity := some 6 }
    let st : Step := ⟨s, .call (.prints 0)⟩
    let codes : List Int32 := [65, -1, 0xD800, 0x1F600]
    s.heap.array 0 = .ok #[65, -1, 0xD800, 0x1F600] ∧
      st.after.console.output = (s.performAll (printcs codes)).console.output ∧
      (s.performAll (printcs codes)).console.output.written =
        #[65, 0xEF, 0xBF, 0xBD, 0xEF, 0xBF] ∧
      st.after.log = #[.invalidCodePoint (-1), .invalidCodePoint 0xD800] ∧
      ∃ each ∈ s.trace (printcs codes), ∃ fatal, each.answer = .error fatal := by
  intro s st codes
  have h : PrintsEach st codes := prints_each s 0 #[65, -1, 0xD800, 0x1F600] rfl
  exact ⟨rfl, h.output_eq, rfl, h.warnings.trans rfl, h.fails_iff.1 ⟨_, rfl⟩⟩

end Session

end ArrayHost
