import ArrayHost.Proofs.ConsoleLines
import ArrayHost.Proofs.LossyDecoding

/-!
# The lines of the decoded input

A console cuts its input into lines of bytes and decodes each line by itself. Decoding the whole
input and cutting its text (`Text.lines`) comes to the same: a newline byte is in no character but
its own, so the bytes before it and those after it are decoded separately (`decode_append_cons`),
and so it is with the return before it (`decode_dropReturn`). `lines_faultless` is the induction
over the lines, and `readsByLine_decode` puts it to a console that is read to its end.
-/

namespace ArrayHost

namespace Text

/-- A line of text without one return at its end. -/
def withoutReturn (line : List Char) : List Char :=
  if line.getLast? = some '\r' then line.dropLast else line

/-- The lines of a text: it is cut at every newline, and the pieces that a newline ended lose one
return at their end. The last piece, which none ended, is no line when it is empty. -/
def lines (text : List Char) : List (List Char) :=
  let pieces := text.splitOn '\n'
  pieces.dropLast.map withoutReturn ++ pieces.getLast?.toList.filter (· ≠ [])

-- A return is dropped only before a newline, only one is, and an empty piece is a line of its own.
example : lines "a\r\r\n\nb\r".toList = ["a\r".toList, [], "b\r".toList] := by decide

/-- The first line of a text ends at its first newline. -/
theorem lines_append_cons {line : List Char} (h : '\n' ∉ line) (rest : List Char) :
    lines (line ++ '\n' :: rest) = withoutReturn line :: lines rest := by
  obtain ⟨piece, pieces, hpieces⟩ := List.exists_cons_of_ne_nil (List.splitOn_ne_nil '\n' rest)
  simp [lines, List.splitOn_append_cons_self_of_not_mem h, hpieces]

/-- A text without a newline is one line, unless it is empty. -/
theorem lines_of_not_mem {text : List Char} (h : '\n' ∉ text) :
    lines text = if text = [] then [] else [text] := by
  rw [lines, List.splitOn_eq_singleton h]
  by_cases hnil : text = [] <;> simp [hnil]

/-- No line of a text has a newline. -/
theorem newline_not_mem_of_mem_lines {text line : List Char} (h : line ∈ lines text) :
    '\n' ∉ line := by
  induction hlength : text.length using Nat.strongRecOn generalizing text with
  | ind n ih =>
    by_cases hmem : '\n' ∈ text
    · obtain ⟨first, rest, rfl, hfirst⟩ := List.eq_append_cons_of_mem hmem
      rw [lines_append_cons hfirst, List.mem_cons] at h
      rcases h with rfl | h
      · unfold withoutReturn
        split
        · exact fun hline => hfirst ((List.dropLast_sublist _).mem hline)
        · exact hfirst
      · exact ih rest.length (by simp [← hlength]; omega) h rfl
    · rw [lines_of_not_mem hmem] at h
      split at h
      · cases h
      · rwa [List.mem_singleton.1 h]

/-- Only a newline byte is read as a newline. -/
theorem newline_not_mem_decode {bytes : List UInt8} (h : newline ∉ bytes) :
    '\n' ∉ decode bytes := by
  intro hmem
  have hsubset := (decodesTo_decode bytes).subset_of_mem hmem (by decide)
  exact h (hsubset (by decide))

/-- No bytes have no text. -/
theorem decode_nil : decode [] = [] := rfl

/-- Only the empty text is that of no bytes. -/
theorem decode_eq_nil_iff {bytes : List UInt8} : decode bytes = [] ↔ bytes = [] := by
  refine ⟨fun h => ?_, fun h => by rw [h, decode_nil]⟩
  have hdecode := decodesTo_decode bytes
  rw [h] at hdecode
  exact hdecode.eq_nil

/-- It is the same to drop a return before decoding or after. -/
theorem decode_dropReturn (line : List UInt8) :
    decode (dropReturn line) = withoutReturn (decode line) := by
  unfold dropReturn withoutReturn
  by_cases h : line.getLast? = some carriageReturn
  · obtain ⟨before, rfl⟩ := List.getLast?_eq_some_iff.1 h
    have hdecode : decode (before ++ [carriageReturn]) = decode before ++ ['\r'] :=
      decode_append_cons before (by decide)
    rw [if_pos h, hdecode, if_pos (by simp), List.dropLast_concat, List.dropLast_concat]
  · -- A return that is read last has its byte last.
    have hlast : (decode line).getLast? ≠ some '\r' := by
      intro hlast
      obtain ⟨before, rfl⟩ := (decodesTo_decode line).suffix_of_getLast? hlast (by decide)
      exact h (by simp; decide)
    rw [if_neg h, if_neg hlast]

end Text

namespace Console

/-- The console after a number of line attempts. -/
def afterReads (c : Console) : ℕ → Console
  | 0 => c
  | k + 1 => (c.afterReads k).readLine.2

/-- The lines of an input that ends are those of its text. -/
theorem lines_faultless (bytes : List UInt8) :
    (faultless ⟨bytes, .ends⟩).lines = Text.lines (Text.decode bytes) := by
  induction hlength : bytes.length using Nat.strongRecOn generalizing bytes with
  | ind n ih =>
    cases hcut : Text.cutLine? bytes with
    | none =>
      have hnewline : Text.newline ∉ bytes :=
        List.count_eq_zero.1 (Text.count_newline_of_cutLine?_eq_none hcut)
      rw [lines_of_cutLine?_eq_none hcut,
        Text.lines_of_not_mem (Text.newline_not_mem_decode hnewline)]
      simp only [Text.decode_eq_nil_iff]
    | some cut =>
      obtain ⟨line, rest⟩ := cut
      have hbytes := Text.eq_of_cutLine?_eq_some hcut
      have hline := Text.newline_not_mem_of_cutLine? hcut
      have hshorter : rest.length < n := by
        rw [← hlength, hbytes, List.length_append, List.length_cons]
        omega
      rw [lines_of_cutLine? .ends hcut, ih rest.length hshorter rest rfl, hbytes,
        Text.decode_append_cons line (by decide), Text.decode_dropReturn]
      exact (Text.lines_append_cons (Text.newline_not_mem_decode hline) _).symm

section

variable {c : Console}

/-- On an output whose flushes do not fail, a number of line attempts deliver as many lines, or all
of them. -/
theorem afterReads_facts (h : c.output.failingFlush = none) (k : ℕ) :
    (c.afterReads k).output.failingFlush = none ∧
      (c.afterReads k).input.ending = c.input.ending ∧ (c.afterReads k).lines = c.lines.drop k := by
  induction k with
  | zero => exact ⟨h, rfl, rfl⟩
  | succ k ih =>
    obtain ⟨hflush, hending, hlines⟩ := ih
    have hnext : (c.afterReads (k + 1)).output.failingFlush = none := by
      rw [afterReads, readLine_of_none hflush]
      exact hflush
    rw [afterReads] at hnext ⊢
    rcases readLine_cases hflush with ⟨line, -, hcons, hinput⟩ | ⟨-, hnil, hrest, hinput⟩
    · refine ⟨hnext, by rw [hinput, ← hending], ?_⟩
      rw [← List.tail_drop, ← hlines, hcons, List.tail_cons]
    · refine ⟨hnext, by rw [hinput, ← hending], ?_⟩
      rw [← List.tail_drop, ← hlines, hnil, hrest, List.tail_nil]

/-- A line attempt on an input that ends answers with the first of its lines. -/
theorem fst_readLine_eq (h : c.output.failingFlush = none) (hends : c.input.ending = .ends) :
    c.readLine.1 = c.lines.head?.elim (.error .endOfInput) .ok := by
  rcases readLine_cases h with ⟨line, hline, hlines, -⟩ | ⟨herror, hlines, -⟩
  · rw [hline, hlines]
    rfl
  · rw [herror, hlines, hends]
    rfl

/-- An input that ends is reported to end when nothing of it is left. -/
theorem fst_readLine_eq_endOfInput_iff (h : c.output.failingFlush = none)
    (hends : c.input.ending = .ends) :
    c.readLine.1 = .error .endOfInput ↔ c.input.unread = [] := by
  rw [readLine_of_none h]
  constructor
  · intro herror
    cases htake : c.input.take.line with
    | ok line => simp [htake, Except.map] at herror
    | error e => exact Input.unread_of_error htake hends
  · intro hnil
    obtain ⟨⟨unread, ending⟩, output, events⟩ := c
    subst hnil hends
    rfl

end

/-- How a text is read line by line from the bytes that are left in a console. -/
structure ReadsByLine (c : Console) (text : List Char) : Prop where
  /-- It is the text of the bytes, with one replacement for each maximal subpart that is no
  character. -/
  decodesTo_iff : ∀ other, Text.DecodesTo c.input.unread other ↔ other = text
  /-- The lines that reading delivers until it fails are those of the text. -/
  lines_eq : c.lines = Text.lines text
  /-- Attempts are answered with these lines in order, and after the last one with the end of the
  input. -/
  answer : ∀ k, (c.afterReads k).readLine.1 =
    (Text.lines text)[k]?.elim (.error .endOfInput) .ok
  /-- The end of the input is reported exactly when no byte is left. -/
  endOfInput_iff : ∀ k, (c.afterReads k).readLine.1 = .error .endOfInput ↔
    (c.afterReads k).input.unread = []
  /-- No line that is delivered has a newline. -/
  newline_not_mem : ∀ line ∈ c.lines, '\n' ∉ line
  /-- A newline, a return or any other byte below 128 is read as its character, whatever stands
  before it, and what stands on its two sides is read as if it stood alone. -/
  text_eq : ∀ before b after, b < 0x80 → c.input.unread = before ++ b :: after →
    text = Text.decode before ++ Char.ofNat b.toNat :: Text.decode after

/-- Reading line by line and decoding each line delivers the lines of the text that the whole input
has, whatever its bytes are. -/
theorem readsByLine_decode (c : Console) (h : c.output.failingFlush = none)
    (hends : c.input.ending = .ends) : c.ReadsByLine (Text.decode c.input.unread) := by
  have hlines : c.lines = Text.lines (Text.decode c.input.unread) := by
    rw [← lines_faultless, ← hends]
    exact lines_congr h rfl rfl
  constructor
  case decodesTo_iff => exact fun other => Text.decodesTo_iff
  case lines_eq => exact hlines
  case answer =>
    intro k
    obtain ⟨hflush, hending, hrest⟩ := afterReads_facts h k
    rw [fst_readLine_eq hflush (hending.trans hends), hrest, List.head?_drop, hlines]
  case endOfInput_iff =>
    intro k
    obtain ⟨hflush, hending, -⟩ := afterReads_facts h k
    exact fst_readLine_eq_endOfInput_iff hflush (hending.trans hends)
  case newline_not_mem =>
    rw [hlines]
    exact fun line => Text.newline_not_mem_of_mem_lines
  case text_eq =>
    intro before b after hb hbytes
    rw [hbytes, Text.decode_append_cons before (UInt8.lt_iff_toNat_lt.1 hb)]

/-- What is read of an input with a character cut short before a return and a newline, the bytes of
a surrogate, an empty line, and a last line that keeps its return. -/
theorem readsByLine_decode_truncated :
    let c := scripted [0xE2, 0x82, 13, 10, 0xED, 0xA0, 0x80, 10, 10, 120, 13]
    c.output.failingFlush = none ∧ c.input.ending = .ends ∧
      c.lines = ["\uFFFD".toList, "\uFFFD\uFFFD\uFFFD".toList, [], "x\r".toList] ∧
      (c.afterReads 3).readLine.1 = .ok "x\r".toList ∧
      (c.afterReads 4).readLine.1 = .error .endOfInput := by
  intro c
  have h := readsByLine_decode c rfl rfl
  have hlines : Text.lines (Text.decode c.input.unread) =
    ["\uFFFD".toList, "\uFFFD\uFFFD\uFFFD".toList, [], "x\r".toList] := by decide
  refine ⟨rfl, rfl, h.lines_eq.trans hlines, ?_, ?_⟩
  · rw [h.answer, hlines]
    rfl
  · rw [h.answer, hlines]
    rfl

end Console

end ArrayHost
