import ArrayHost.Proofs.ConsoleLines
import ArrayHost.Proofs.EncodedText
import ArrayHost.Proofs.Numerals
import ArrayHost.Proofs.Printing

/-!
# What is printed reads back

A session prints numbers and arrays, one on a line, and another one is given the output as its
input. `printed_reads_back` says that it reads the same numbers, and the same arrays up to the
numbers that have no character, which come back as `U+FFFD` (`Text.shownCode`).

An item is printed as its text (`Item.text`), and the bytes of that text read back as the text. They
are a line when the text has no newline and does not end in a carriage return, which is what
`Item.Fits` asks of an array; a numeral has neither. So a session that has the lines of some items
before it (`Awaiting`) reads the first item and has the lines of the others before it
(`Awaiting.perform`).
-/

namespace ArrayHost

namespace Text

/-- A number is a Unicode scalar value: a code point that is not a surrogate. -/
def IsScalar (code : Int32) : Prop :=
  0 ≤ code.toInt ∧ (code.toInt < 0xD800 ∨ 0xDFFF < code.toInt ∧ code.toInt ≤ 0x10FFFF)

instance (code : Int32) : Decidable (IsScalar code) :=
  inferInstanceAs (Decidable (_ ∧ _))

/-- The code point of the character that is shown for a number. -/
def shownCode (code : Int32) : Int32 :=
  if IsScalar code then code else 0xFFFD

/-- A character that is shown has the code point that is shown. -/
theorem codePoint_shownCharacter (code : Int32) :
    codePoint (shownCharacter code) = shownCode code := by
  unfold shownCharacter character? shownCode
  have hvalid : (0 ≤ code.toInt ∧ code.toInt.toNat.isValidChar) ↔ IsScalar code := by
    unfold IsScalar Nat.isValidChar
    omega
  by_cases hscalar : IsScalar code
  · have hchar : (Char.ofNat code.toInt.toNat).toNat = code.toInt.toNat := by
      unfold Char.ofNat
      rw [dif_pos (hvalid.2 hscalar).2]
      rfl
    rw [if_pos (hvalid.2 hscalar), if_pos hscalar, Option.getD_some, codePoint, hchar]
    have hnonneg : (code.toInt.toNat : ℤ) = code.toInt := Int.toNat_of_nonneg hscalar.1
    have hlt := code.toInt_lt
    rw [← Int32.toInt_inj, Int32.toInt_ofNat_of_lt (by omega), hnonneg]
  · rw [if_neg (mt hvalid.1 hscalar), if_neg hscalar]
    rfl

/-- A character other than the replacement is shown for its code point alone. -/
theorem eq_codePoint_of_shownCharacter {code : Int32} {c : Char} (h : shownCharacter code = c)
    (hc : codePoint c ≠ 0xFFFD) : code = codePoint c := by
  have hshown := codePoint_shownCharacter code
  rw [h, shownCode] at hshown
  split at hshown
  · exact hshown.symm
  · exact absurd hshown hc

/-- Bytes without a newline are cut off at the newline that follows them. -/
theorem cutLine?_append {line : List UInt8} (h : newline ∉ line) (rest : List UInt8) :
    cutLine? (line ++ newline :: rest) = some (line, rest) := by
  have hline : ∀ b ∈ line, (b != newline) = true := by
    intro b hb
    have hne : b ≠ newline := by
      rintro rfl
      exact h hb
    simpa using hne
  unfold cutLine?
  rw [List.dropWhile_append_of_pos hline, List.takeWhile_append_of_pos hline]
  simp

end Text

/-- Something that is printed on a line of its own. -/
inductive Item where
  /-- A number. -/
  | number (n : Int32)
  /-- An array, printed as the text that it stands for. -/
  | array (contents : Array Int32)
  deriving DecidableEq

namespace Item

/-- An item takes one line: its text has no newline and does not end in a carriage return. -/
def Fits : Item → Prop
  | .number _ => True
  | .array contents => 10 ∉ contents ∧ contents.back? ≠ some 13

instance : DecidablePred Fits
  | .number _ => .isTrue trivial
  | .array _ => inferInstanceAs (Decidable (_ ∧ _))

/-- A call prints an item: a number, or an array that is on the heap. -/
def PrintedBy (t : Heap) : Item → Call → Prop
  | .number n, c => c = .printi n
  | .array contents, c => ∃ h, c = .prints h ∧ t.array h = .ok contents

/-- The operation that reads an item. -/
def reader : Item → Session.Operation
  | .number _ => .call .readi
  | .array _ => .call .reads

/-- An item is an array. -/
def isArray : Item → Bool
  | .number _ => false
  | .array _ => true

/-- The answer when an item is read: the number itself, or the given place as a handle. -/
def answer (place : ℕ) : Item → Int32
  | .number n => n
  | .array _ => Int32.ofNat place

/-- The array that an item is after it has been printed and read. -/
def readArray? : Item → Option (Array Int32)
  | .number _ => none
  | .array contents => some (contents.map Text.shownCode)

/-- A step reads an item. It answers a number with that number, and an array with a handle that was
not in use, that of the given place. The array there then has the codes that are shown. -/
def ReadBy (place : ℕ) (st : Session.Step) : Item → Prop
  | .number n => st.answer = .ok (some n)
  | .array contents => ∃ h : Int32, st.answer = .ok (some h) ∧ h.toInt = place ∧
      st.before.heap.size = place ∧ st.after.heap.array h = .ok (contents.map Text.shownCode)

/-- The text that an item is printed as. -/
def text : Item → List Char
  | .number n => Text.numeral n.toInt
  | .array contents => contents.toList.map Text.shownCharacter

/-- The bytes of an item and of the newline after it. -/
def line (item : Item) : List UInt8 :=
  Text.encode item.text ++ [Text.newline]

/-- The bytes of some items, one on a line. -/
def lines (items : List Item) : List UInt8 := items.flatMap line

/-- The text of an item that fits has no newline and does not end in a carriage return. -/
theorem Fits.text {item : Item} (h : item.Fits) :
    '\n' ∉ item.text ∧ item.text.getLast? ≠ some '\r' := by
  cases item with
  | number n =>
    -- Both characters are blank.
    have hblank : ∀ c ∈ Text.numeral n.toInt, Text.isBlank c = false := fun c =>
      Text.isBlank_of_mem_numeral
    constructor
    · intro hmem
      exact absurd (hblank _ hmem) (by decide)
    · intro hlast
      exact absurd (hblank _ (List.mem_of_getLast? hlast)) (by decide)
  | array contents =>
    obtain ⟨hmem, hlast⟩ := h
    constructor
    · intro hnewline
      obtain ⟨code, hcode, hshown⟩ := List.mem_map.1 hnewline
      have hten : code = 10 := Text.eq_codePoint_of_shownCharacter hshown (by decide)
      exact hmem (by simpa [hten] using hcode)
    · intro hreturn
      have hmap : (contents.toList.getLast?).map Text.shownCharacter = some '\r' := by
        rw [← List.getLast?_map]
        exact hreturn
      obtain ⟨code, hcode, hshown⟩ := Option.map_eq_some_iff.1 hmap
      have hthirteen : code = 13 := Text.eq_codePoint_of_shownCharacter hshown (by decide)
      rw [Array.getLast?_toList, hthirteen] at hcode
      exact hlast hcode

/-- The line of an item that fits is taken first, and its text is read. -/
theorem Fits.take {item : Item} (h : item.Fits) (rest : List UInt8) (ending : Console.Ending) :
    ((Console.Input.mk (item.line ++ rest) ending).take.line.map Text.decode = .ok item.text) ∧
      (Console.Input.mk (item.line ++ rest) ending).take.input = ⟨rest, ending⟩ := by
  obtain ⟨hnewline, hreturn⟩ := h.text
  have hmem : Text.newline ∉ Text.encode item.text := fun hb =>
    hnewline (Text.mem_of_mem_encode hb (by decide))
  have hlast : (Text.encode item.text).getLast? ≠ some Text.carriageReturn := fun hb =>
    hreturn (Text.getLast?_of_getLast?_encode hb (by decide))
  have hcut : Text.cutLine? (item.line ++ rest) = some (Text.encode item.text, rest) := by
    rw [line, List.append_assoc]
    exact Text.cutLine?_append hmem rest
  unfold Console.Input.take
  simp only [hcut, Text.dropReturn, if_neg hlast, and_true]
  exact congrArg Except.ok (Text.decode_encode item.text)

end Item

namespace Session

/-- A session that has the lines of some items before it, and has the given arrays. -/
structure Awaiting (items : List Item) (arrays : List (Array Int32)) (s : Session) : Prop where
  /-- The arrays of the session. -/
  heap : s.heap.arrays.toList = arrays
  /-- Its input is the lines of the items. -/
  input : s.console.input = ⟨Item.lines items, .ends⟩
  /-- Its flushes do not fail. -/
  failingFlush : s.console.output.failingFlush = none

namespace Awaiting

variable {s : Session} {item : Item} {items : List Item} {arrays : List (Array Int32)}

/-- The first item is on the line that is read next. -/
theorem readLine (h : s.Awaiting (item :: items) arrays) (hfits : item.Fits) :
    s.readLine.1 = .ok item.text ∧ s.readLine.2.Awaiting items arrays := by
  have hread := Console.readLine_of_none h.failingFlush
  obtain ⟨hline, hinput⟩ := hfits.take (Item.lines items) .ends
  have hlines : Item.lines (item :: items) = item.line ++ Item.lines items := List.flatMap_cons
  rw [h.input, hlines, hline] at hread
  refine ⟨by rw [fst_readLine, hread, mapError_ok], ?_, ?_, ?_⟩
  · rw [heap_readLine, h.heap]
  · rw [console_readLine, hread]
    exact hinput
  · rw [console_readLine, hread]
    exact h.failingFlush

/-- The arrays are counted by the size of the heap. -/
theorem size (h : s.Awaiting items arrays) : s.heap.size = arrays.length := by
  rw [← h.heap, Array.length_toList]
  rfl

/-- Reading the first item answers a number with that number and an array with a new handle. -/
theorem perform (h : s.Awaiting (item :: items) arrays) (hfits : item.Fits) :
    (s.perform item.reader).1 = .ok (some (item.answer arrays.length)) ∧
      (s.perform item.reader).2.Awaiting items (arrays ++ item.readArray?.toList) := by
  obtain ⟨hline, hafter⟩ := h.readLine hfits
  cases item with
  | number n =>
    have hinteger := readInteger_of_some s hline (Text.readInteger?_numeral n)
    have hcall : s.perform (.call .readi) = (.ok (some n), s.readLine.2) := by
      simp only [Session.perform, call, attempt, hinteger]
      rfl
    rw [Item.reader, hcall]
    simpa [Item.answer, Item.readArray?] using hafter
  | array contents =>
    have hcontents : ((Item.array contents).text.map Text.codePoint).toArray =
        contents.map Text.shownCode := by
      have hcodes : Text.codePoint ∘ Text.shownCharacter = Text.shownCode :=
        funext Text.codePoint_shownCharacter
      rw [Item.text, List.map_map, hcodes, ← Array.toList_map, Array.toArray_toList]
    have hcall := perform_reads_of_line hline
    rw [hcontents] at hcall
    rw [Item.reader, hcall, h.size]
    refine ⟨rfl, ?_, hafter.input, hafter.failingFlush⟩
    show (s.readLine.2.heap.arrays.push (contents.map Text.shownCode)).toList = _
    rw [Array.toList_push, hafter.heap]
    rfl

/-- Reading the first item reads it. -/
theorem readBy (h : s.Awaiting (item :: items) arrays) (hfits : item.Fits)
    (hlength : arrays.length < 2147483648) :
    item.ReadBy arrays.length ⟨s, item.reader⟩ := by
  obtain ⟨hanswer, hafter⟩ := h.perform hfits
  cases item with
  | number n => exact hanswer
  | array contents =>
    have hplace : (Int32.ofNat arrays.length).toInt = arrays.length :=
      Int32.toInt_ofNat_of_lt (by omega)
    refine ⟨Int32.ofNat arrays.length, hanswer, hplace, h.size, ?_⟩
    -- The new array is the last one.
    rw [Heap.array_eq_ok_iff, Heap.at?_of_toInt_eq _ hplace, ← Array.getElem?_toList, Step.after,
      hafter.heap]
    exact List.getElem?_concat_length

/-- Reading the first items leaves the session with the lines of the others before it. -/
theorem performAll {before after : List Item} (h : s.Awaiting (before ++ after) arrays)
    (hfits : ∀ item ∈ before, item.Fits) : (s.performAll (before.map Item.reader)).Awaiting after
      (arrays ++ before.filterMap Item.readArray?) := by
  induction before generalizing s arrays with
  | nil => simpa using h
  | cons item before ih =>
    have hfirst := (h.perform (hfits item List.mem_cons_self)).2
    have hrest := ih hfirst fun other hother => hfits other (List.mem_cons_of_mem item hother)
    have harrays : arrays ++ item.readArray?.toList ++ before.filterMap Item.readArray? =
        arrays ++ (item :: before).filterMap Item.readArray? := by
      rw [List.append_assoc, List.filterMap_cons]
      cases item.readArray? <;> rfl
    rw [harrays] at hrest
    exact hrest

/-- A session without input has no line. -/
theorem call_of_nil {c : Call} (h : s.Awaiting [] arrays) (hc : c = .readi ∨ c = .reads) :
    (s.call c).1 = .error ⟨c.name, .console .endOfInput⟩ := by
  have hread := Console.readLine_of_none h.failingFlush
  have hline : s.readLine.1 = .error (.console .endOfInput) := by
    rw [fst_readLine, hread, h.input]
    rfl
  rcases hc with rfl | rfl
  · have hinteger := readInteger_of_error s hline
    rw [fst_call, attempt, hinteger]
    rfl
  · exact congrArg Prod.fst (perform_reads_of_error hline)

end Awaiting

/-- Makes each of some calls and ends the line after it. -/
def printing (calls : List Call) : List Operation :=
  calls.flatMap fun c => [.call c, .call .println]

section

variable {s : Session} {item : Item} {items : List Item} {c : Call} {calls : List Call}

/-- A call that prints an item hands its text to the console. -/
theorem printed?_of_printedBy (h : item.PrintedBy s.heap c) :
    s.printed? (.call c) = some item.text := by
  cases item with
  | number n =>
    obtain rfl : c = .printi n := h
    rfl
  | array contents =>
    obtain ⟨a, rfl, harray⟩ := h
    exact printed?_prints_of_array harray

/-- On an output without a limit, an item is printed on its line. -/
theorem performAll_item (hcapacity : s.console.output.capacity = none)
    (hitem : item.PrintedBy s.heap c) :
    (∀ st ∈ s.trace [.call c, .call .println], st.answer = .ok (some 0)) ∧
      (s.performAll [.call c, .call .println]).heap = s.heap ∧
      (s.performAll [.call c, .call .println]).console.output.capacity = none ∧
      (s.performAll [.call c, .call .println]).console.output.written.toList =
        s.console.output.written.toList ++ item.line := by
  have htext := printed?_of_printedBy hitem
  obtain ⟨hanswer, houtput⟩ := perform_of_unlimited hcapacity htext
  have hheap := (perform_of_printed? htext).2.1
  generalize hafter : (s.perform (.call c)).2 = after at hheap houtput
  have hlimit : after.console.output.capacity = none := by
    rw [houtput]
    exact hcapacity
  have hend : after.printed? (.call .println) = some ['\n'] := rfl
  obtain ⟨hendanswer, hendoutput⟩ := perform_of_unlimited hlimit hend
  have hendheap := (perform_of_printed? hend).2.1
  have hnewline : Text.encode ['\n'] = [Text.newline] := rfl
  simp only [performAll_cons, performAll_nil, trace, hafter, List.mem_cons, List.not_mem_nil,
    or_false, forall_eq_or_imp, forall_eq]
  refine ⟨⟨hanswer, hendanswer⟩, hendheap.trans hheap, ?_, ?_⟩
  · rw [hendoutput]
    exact hlimit
  · rw [hendoutput, houtput, hnewline, Item.line, ← List.append_assoc]
    simp only [Array.toList_appendList]

/-- On an output without a limit, items are printed on their lines. -/
theorem performAll_printing {t : Heap} (hheap : s.heap = t)
    (hcapacity : s.console.output.capacity = none)
    (hcalls : List.Forall₂ (Item.PrintedBy t) items calls) :
    (∀ st ∈ s.trace (printing calls), st.answer = .ok (some 0)) ∧
      (s.performAll (printing calls)).console.output.written.toList =
        s.console.output.written.toList ++ Item.lines items := by
  induction hcalls generalizing s with
  | nil => simp [printing, trace, Item.lines]
  | @cons item c items calls hitem hcalls ih =>
    have hcons : printing (c :: calls) = [.call c, .call .println] ++ printing calls := rfl
    have hlines : Item.lines (item :: items) = item.line ++ Item.lines items := List.flatMap_cons
    rw [← hheap] at hitem
    obtain ⟨hanswer, hafter, hlimit, hline⟩ := performAll_item hcapacity hitem
    obtain ⟨hrest, hwritten⟩ := ih (hafter.trans hheap) hlimit
    rw [hcons, trace_append, performAll_append]
    constructor
    · intro st hst
      rcases List.mem_append.1 hst with hst | hst
      · exact hanswer st hst
      · exact hrest st hst
    · rw [hwritten, hline, hlines, List.append_assoc]

/-- The arrays among some items. -/
theorem length_filterMap_readArray? (items : List Item) :
    (items.filterMap Item.readArray?).length = items.countP Item.isArray := by
  rw [List.length_filterMap_eq_countP]
  congr 1
  funext item
  cases item <;> rfl

/-- Items are printed on a line each, to an output without a limit, and another session has that
output as its input. It reads each number as it was, and each array with `U+FFFD` for the numbers
that have no character. The arrays get their handles in the order of the items, and after the last
item the input ends. -/
theorem printed_reads_back {t : Session} (hlength : items.length < 2147483648)
    (hfits : ∀ item ∈ items, item.Fits)
    (hcalls : List.Forall₂ (Item.PrintedBy s.heap) items calls)
    (hcapacity : s.console.output.capacity = none) (hwritten : s.console.output.written = #[])
    (hheap : t.heap = .empty) (hflush : t.console.output.failingFlush = none)
    (hinput : t.console.input =
      ⟨(s.performAll (printing calls)).console.output.written.toList, .ends⟩) :
    (∀ st ∈ s.trace (printing calls), st.answer = .ok (some 0)) ∧
    (∀ (j : ℕ) (item : Item), items[j]? = some item →
      ∃ st : Step, (t.trace (items.map Item.reader))[j]? = some st ∧
        item.ReadBy ((items.take j).countP Item.isArray) st) ∧
    (t.performAll (items.map Item.reader)).heap.arrays.toList =
      items.filterMap Item.readArray? ∧
    ∀ c : Call, c = .readi ∨ c = .reads →
      ((t.performAll (items.map Item.reader)).call c).1 =
        .error ⟨c.name, .console .endOfInput⟩ := by
  obtain ⟨hanswer, hlines⟩ := performAll_printing rfl hcapacity hcalls
  have hstart : t.Awaiting items [] := by
    refine ⟨by rw [hheap]; rfl, ?_, hflush⟩
    rw [hinput, hlines, hwritten]
    rfl
  have hend : (t.performAll (items.map Item.reader)).Awaiting []
      (items.filterMap Item.readArray?) := by
    have hall : t.Awaiting (items ++ []) [] := by rw [List.append_nil]; exact hstart
    simpa using hall.performAll hfits
  refine ⟨hanswer, ?_, hend.heap, fun c hc => hend.call_of_nil hc⟩
  intro j item hitem
  have hsplit : items.take j ++ item :: items.drop (j + 1) = items := by
    obtain ⟨hj, rfl⟩ := List.getElem?_eq_some_iff.1 hitem
    rw [← List.drop_eq_getElem_cons hj, List.take_append_drop]
  rw [← hsplit] at hstart
  have hbefore : (t.performAll ((items.take j).map Item.reader)).Awaiting
      (item :: items.drop (j + 1)) ((items.take j).filterMap Item.readArray?) :=
    hstart.performAll fun other hother => hfits other (List.mem_of_mem_take hother)
  have hplace := length_filterMap_readArray? (items.take j)
  have hcount : (items.take j).countP Item.isArray ≤ items.length :=
    Nat.le_trans List.countP_le_length (List.length_take_le' j items)
  refine ⟨⟨t.performAll ((items.take j).map Item.reader), item.reader⟩, ?_, ?_⟩
  · rw [getElem?_trace, List.getElem?_map, hitem, ← List.map_take]
    rfl
  · rw [← hplace]
    exact hbefore.readBy (hfits item (List.mem_of_getElem? hitem)) (by omega)

/-- The law for the least number and two arrays, of which the first is empty and the other has a
number without a character, a carriage return before its end and characters of every length. -/
theorem printed_reads_back_mixed :
    let s := (Session.start (.scripted [])).performAll
      [.allocate #[0x1F600, -1, 13, 0x2028, 0xE9, 0], .allocate #[]]
    let items : List Item :=
      [.number (-2147483648), .array #[], .array #[0x1F600, -1, 13, 0x2028, 0xE9, 0]]
    let calls : List Call := [.printi (-2147483648), .prints 1, .prints 0]
    let t := Session.start
      (.scripted (s.performAll (printing calls)).console.output.written.toList)
    items.length < 2147483648 ∧ (∀ item ∈ items, item.Fits) ∧
      List.Forall₂ (Item.PrintedBy s.heap) items calls ∧
      (∀ st ∈ (t.trace (items.map Item.reader))[0]?, st.answer = .ok (some (-2147483648))) ∧
      (t.performAll (items.map Item.reader)).heap.arrays.toList =
        [#[], #[0x1F600, 0xFFFD, 13, 0x2028, 0xE9, 0]] ∧
      ((t.performAll (items.map Item.reader)).call .readi).1 =
        .error ⟨"readi", .console .endOfInput⟩ := by
  intro s items calls t
  have hlength : items.length < 2147483648 := by decide
  have hfits : ∀ item ∈ items, item.Fits := by decide +kernel
  have hcalls : List.Forall₂ (Item.PrintedBy s.heap) items calls :=
    .cons rfl (.cons ⟨1, rfl, rfl⟩ (.cons ⟨0, rfl, rfl⟩ .nil))
  obtain ⟨-, hsteps, harrays, hend⟩ :=
    printed_reads_back (t := t) hlength hfits hcalls rfl rfl rfl rfl rfl
  refine ⟨hlength, hfits, hcalls, ?_, harrays.trans (by decide +kernel), hend .readi (.inl rfl)⟩
  intro st hst
  obtain ⟨st', hst', hread⟩ := hsteps 0 (.number (-2147483648)) rfl
  cases hst
  cases hst'
  exact hread

end

end Session

end ArrayHost
