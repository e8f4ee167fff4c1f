import Mathlib.Data.Int.Notation
import Mathlib.Data.Nat.Notation
import ArrayHost.Text.Numeral

/-!
# Lines that hold an integer

Three parts decide what integer a line holds: a test of its form, the removal of white space at both
ends, and a reader of numerals that adds one digit after another and gives up when 32 bits no longer
hold the value. `Holds` is the grammar that they are to agree with, in which numerals have any
length and integers any size.

Each part is described by itself. The test accepts the lines that hold some integer
(`hasIntegerForm_iff`), trimming such a line leaves its sign and digits (`trim_append`), and the
reader answers the value of a sign and digits exactly when a word has it
(`parseWord?_eq_some_iff`): values on the way are no greater than the last one, so none of them is
given up on when that one fits.
-/

namespace ArrayHost.Text

/-- The text is a run of ASCII digits of the given value. -/
def IsNatural (digits : List Char) (value : ℕ) : Prop :=
  digits ≠ [] ∧ (∀ c ∈ digits, c.isDigit = true) ∧ value = Nat.ofDigitChars 10 digits 0

/-- The text is a run of ASCII digits, with a minus sign before it when the value is negated. -/
def IsNumeral (text : List Char) (value : ℤ) : Prop :=
  ∃ digits n, IsNatural digits n ∧
    (text = digits ∧ value = n ∨ text = '-' :: digits ∧ value = -n)

/-- The line holds the integer: its numeral, with nothing but white space before and after. -/
def Holds (line : List Char) (value : ℤ) : Prop :=
  ∃ before text after, line = before ++ text ++ after ∧
    (∀ c ∈ before, isBlank c = true) ∧ (∀ c ∈ after, isBlank c = true) ∧ IsNumeral text value

/-- A run of digits has no sign at its front. -/
theorem IsNatural.head_ne {c : Char} {digits : List Char} {n : ℕ} (h : IsNatural (c :: digits) n) :
    c ≠ '-' ∧ c ≠ '+' := by
  have hdigit := h.2.1 c List.mem_cons_self
  constructor <;> rintro rfl <;> exact absurd hdigit (by decide)

/-- A numeral has no plus sign at its front. -/
theorem IsNumeral.ne_plus {digits : List Char} {v : ℤ} : ¬ IsNumeral ('+' :: digits) v := by
  rintro ⟨digits', n, hn, ⟨rfl, -⟩ | ⟨heq, -⟩⟩
  · exact absurd rfl hn.head_ne.2
  · cases heq

/-- A text is a numeral of one value at most. -/
theorem IsNumeral.unique {text : List Char} {v w : ℤ} (hv : IsNumeral text v)
    (hw : IsNumeral text w) : v = w := by
  obtain ⟨digits, n, hn, ⟨rfl, rfl⟩ | ⟨rfl, rfl⟩⟩ := hv <;>
  obtain ⟨others, m, hm, ⟨heq, rfl⟩ | ⟨heq, rfl⟩⟩ := hw
  · rw [hn.2.2, hm.2.2, heq]
  · rw [heq] at hn
    exact absurd rfl hn.head_ne.1
  · rw [← heq] at hm
    exact absurd rfl hm.head_ne.1
  · cases heq
    rw [hn.2.2, hm.2.2]

/-! ## The reader of numerals -/

/-- A word is found for the value that it has. -/
theorem word?_eq_some_iff {value : ℤ} {w : Int32} : word? value = some w ↔ w.toInt = value := by
  have hlower := w.minValue_le_toInt
  have hupper : w.toInt ≤ Int32.maxValue.toInt := Int32.le_iff_toInt_le.1 w.le_maxValue
  unfold word?
  constructor
  · intro h
    split at h
    · next hrange =>
      obtain rfl : Int32.ofInt value = w := by simpa using h
      have hmin : Int32.minValue.toInt = -2 ^ 31 := by decide
      have hmax : Int32.maxValue.toInt = 2 ^ 31 - 1 := by decide
      exact Int32.toInt_ofInt_of_le (by omega) (by omega)
    · cases h
  · rintro rfl
    rw [if_pos ⟨hlower, hupper⟩, Int32.ofInt_toInt]

/-- There is a word for each value in the range of words. -/
theorem exists_toInt_eq_iff {value : ℤ} :
    (∃ w : Int32, w.toInt = value) ↔ -2147483648 ≤ value ∧ value ≤ 2147483647 := by
  constructor
  · rintro ⟨w, rfl⟩
    have hlower := w.le_toInt
    have hupper := w.toInt_lt
    omega
  · rintro ⟨hlower, hupper⟩
    exact ⟨Int32.ofInt value, Int32.toInt_ofInt_of_le (by omega) (by omega)⟩

/-- The value of a numeral is at least that of the digits before. -/
theorem le_ofDigitChars (digits : List Char) (n : ℕ) : n ≤ Nat.ofDigitChars 10 digits n := by
  induction digits generalizing n with
  | nil => exact Nat.le_of_eq Nat.ofDigitChars_nil.symm
  | cons c digits ih =>
    rw [Nat.ofDigitChars_cons]
    exact Nat.le_trans (by omega) (ih _)

section

variable {sign : ℤ} {w v : Int32} {n : ℕ}

/-- A digit is added to a word exactly when a word has the value of the longer numeral. -/
theorem addDigit?_eq_some_iff (hsign : sign = 1 ∨ sign = -1) (hw : w.toInt = sign * n) (c : Char) :
    addDigit? sign w c = some v ↔
      c.isDigit = true ∧ v.toInt = sign * (10 * n + (c.toNat - '0'.toNat) : ℕ) := by
  have hzero : '0'.toNat = 48 := rfl
  unfold addDigit?
  split
  · next hdigit =>
    simp only [hdigit, true_and, Option.bind_eq_some_iff, word?_eq_some_iff]
    constructor
    · rintro ⟨shifted, hshifted, hv⟩
      rcases hsign with rfl | rfl <;> omega
    · intro hv
      -- The value with the digit fits, so the one that was only multiplied does too.
      have hlower := v.le_toInt
      have hupper := v.toInt_lt
      obtain ⟨shifted, hshifted⟩ : ∃ shifted : Int32, shifted.toInt = w.toInt * 10 := by
        rw [exists_toInt_eq_iff]
        rcases hsign with rfl | rfl <;> omega
      exact ⟨shifted, hshifted, by rcases hsign with rfl | rfl <;> omega⟩
  · next hdigit => simp [hdigit]

/-- Digits are added to a word exactly when a word has the value of the longer numeral. -/
theorem foldlM_addDigit?_eq_some_iff (hsign : sign = 1 ∨ sign = -1) (hw : w.toInt = sign * n)
    (digits : List Char) : digits.foldlM (addDigit? sign) w = some v ↔
      (∀ c ∈ digits, c.isDigit = true) ∧ v.toInt = sign * (Nat.ofDigitChars 10 digits n : ℕ) := by
  induction digits generalizing w n with
  | nil =>
    simp only [List.foldlM_nil, Nat.ofDigitChars_nil, ← hw, Option.pure_def, Option.some.injEq,
      Int32.toInt_inj]
    exact ⟨fun h => ⟨by simp, h.symm⟩, fun h => h.2.symm⟩
  | cons c digits ih =>
    simp only [List.foldlM_cons, Option.bind_eq_bind, Option.bind_eq_some_iff,
      Nat.ofDigitChars_cons, List.forall_mem_cons]
    constructor
    · rintro ⟨u, hu, hv⟩
      obtain ⟨hc, hvalue⟩ := (addDigit?_eq_some_iff hsign hw c).1 hu
      obtain ⟨hdigits, hv⟩ := (ih hvalue).1 hv
      exact ⟨⟨hc, hdigits⟩, hv⟩
    · rintro ⟨⟨hc, hdigits⟩, hv⟩
      -- The last value fits, so the one after this digit does too.
      have hle := le_ofDigitChars digits (10 * n + (c.toNat - '0'.toNat))
      have hlower := v.le_toInt
      have hupper := v.toInt_lt
      obtain ⟨u, hu⟩ : ∃ u : Int32, u.toInt = sign * (10 * n + (c.toNat - '0'.toNat) : ℕ) := by
        rw [exists_toInt_eq_iff]
        rcases hsign with rfl | rfl <;> omega
      exact ⟨u, (addDigit?_eq_some_iff hsign hw c).2 ⟨hc, hu⟩, (ih hu).2 ⟨hdigits, hv⟩⟩

/-- A run of digits is read exactly when a word has its value. -/
theorem digitsWord?_eq_some_iff (hsign : sign = 1 ∨ sign = -1) (digits : List Char) :
    digitsWord? sign digits = some v ↔ ∃ n, IsNatural digits n ∧ v.toInt = sign * n := by
  have hfold := foldlM_addDigit?_eq_some_iff (v := v) (n := 0) hsign
    (show (0 : Int32).toInt = sign * (0 : ℕ) by simp) digits
  unfold digitsWord?
  split
  · next hnil => simp [IsNatural, hnil]
  · next hnil =>
    rw [hfold]
    constructor
    · rintro ⟨hdigits, hv⟩
      exact ⟨_, ⟨hnil, hdigits, rfl⟩, hv⟩
    · rintro ⟨n, ⟨-, hdigits, rfl⟩, hv⟩
      exact ⟨hdigits, hv⟩

/-- A numeral is read exactly when a word has its value. Without a sign or with a minus sign, it is
a numeral of the grammar; with a plus sign, its digits are one. -/
theorem parseWord?_eq_some_iff {text : List Char} : parseWord? text = some v ↔
    IsNumeral text v.toInt ∨
      ∃ digits n, text = '+' :: digits ∧ IsNatural digits n ∧ v.toInt = n := by
  unfold parseWord?
  split
  · next digits =>
    rw [digitsWord?_eq_some_iff (.inr rfl)]
    constructor
    · rintro ⟨n, hn, hv⟩
      exact .inl ⟨digits, n, hn, .inr ⟨rfl, by omega⟩⟩
    · rintro (⟨digits', n, hn, ⟨rfl, -⟩ | ⟨heq, hv⟩⟩ | ⟨digits', n, heq, -⟩)
      · exact absurd rfl hn.head_ne.1
      · cases heq
        exact ⟨n, hn, by omega⟩
      · cases heq
  · next digits =>
    rw [digitsWord?_eq_some_iff (.inl rfl)]
    constructor
    · rintro ⟨n, hn, hv⟩
      exact .inr ⟨digits, n, rfl, hn, by omega⟩
    · rintro (⟨digits', n, hn, ⟨rfl, -⟩ | ⟨heq, -⟩⟩ | ⟨digits', n, heq, hn, hv⟩)
      · exact absurd rfl hn.head_ne.2
      · cases heq
      · cases heq
        exact ⟨n, hn, by omega⟩
  · next hminus hplus =>
    rw [digitsWord?_eq_some_iff (.inl rfl)]
    constructor
    · rintro ⟨n, hn, hv⟩
      exact .inl ⟨text, n, hn, .inl ⟨rfl, by omega⟩⟩
    · rintro (⟨digits, n, hn, ⟨rfl, hv⟩ | ⟨heq, -⟩⟩ | ⟨digits, n, heq, -⟩)
      · exact ⟨n, hn, by omega⟩
      · exact absurd heq (hminus digits)
      · exact absurd heq (hplus digits)

end

/-! ## White space -/

/-- A digit is not blank. -/
theorem isBlank_of_isDigit {c : Char} (h : c.isDigit = true) : isBlank c = false := by
  have hrange : 48 ≤ c.toNat ∧ c.toNat ≤ 57 := Char.isDigit_iff_toNat.1 h
  have hnone : ¬ ∃ range ∈ blankRanges, range.1 ≤ c.toNat ∧ c.toNat ≤ range.2 := by
    simp [blankRanges]
    omega
  rw [Bool.eq_false_iff]
  simpa [isBlank] using hnone

/-- A numeral has a character, and none of its characters is blank. -/
theorem IsNumeral.ne_nil_and {text : List Char} {value : ℤ} (h : IsNumeral text value) :
    text ≠ [] ∧ ∀ c ∈ text, isBlank c = false := by
  obtain ⟨digits, n, ⟨hne, hdigits, -⟩, ⟨rfl, -⟩ | ⟨rfl, -⟩⟩ := h
  · exact ⟨hne, fun c hc => isBlank_of_isDigit (hdigits c hc)⟩
  · refine ⟨List.cons_ne_nil _ _, fun c hc => ?_⟩
    rcases List.mem_cons.1 hc with rfl | hc
    · decide
    · exact isBlank_of_isDigit (hdigits c hc)

/-- White space is dropped up to a text that begins with another character. -/
theorem dropWhile_isBlank_append {before text : List Char}
    (hbefore : ∀ c ∈ before, isBlank c = true) (hne : text ≠ [])
    (htext : ∀ c ∈ text, isBlank c = false) (after : List Char) :
    (before ++ (text ++ after)).dropWhile isBlank = text ++ after := by
  obtain ⟨c, rest, rfl⟩ := List.exists_cons_of_ne_nil hne
  rw [List.dropWhile_append_of_pos hbefore, List.cons_append]
  exact List.dropWhile_cons_of_neg (by simp [htext c List.mem_cons_self])

/-- White space is trimmed at both ends of a text that has no blank character. -/
theorem trim_append {before text after : List Char} (hbefore : ∀ c ∈ before, isBlank c = true)
    (hne : text ≠ []) (htext : ∀ c ∈ text, isBlank c = false)
    (hafter : ∀ c ∈ after, isBlank c = true) : trim (before ++ text ++ after) = text := by
  have hback : (after.reverse ++ (text.reverse ++ [])).dropWhile isBlank = text.reverse ++ [] :=
    dropWhile_isBlank_append (fun c hc => hafter c (List.mem_reverse.1 hc)) (by simpa using hne)
      (fun c hc => htext c (List.mem_reverse.1 hc)) []
  rw [List.append_nil] at hback
  unfold trim
  rw [List.append_assoc, dropWhile_isBlank_append hbefore hne htext, List.reverse_append, hback,
    List.reverse_reverse]

/-- What is trimmed is white space. -/
theorem exists_eq_trim (line : List Char) : ∃ before after, line = before ++ trim line ++ after ∧
    (∀ c ∈ before, isBlank c = true) ∧ ∀ c ∈ after, isBlank c = true := by
  refine ⟨line.takeWhile isBlank,
    ((line.dropWhile isBlank).reverse.takeWhile isBlank).reverse, ?_, ?_, ?_⟩
  · unfold trim
    rw [List.append_assoc, ← List.reverse_append, List.takeWhile_append_dropWhile,
      List.reverse_reverse, List.takeWhile_append_dropWhile]
  · exact List.all_eq_true.1 List.all_takeWhile
  · intro c hc
    exact List.all_eq_true.1 List.all_takeWhile c (List.mem_reverse.1 hc)

/-! ## The test of the form -/

/-- Another character than a minus sign is not dropped. -/
theorem dropMinus_cons_of_ne {c : Char} (h : c ≠ '-') (text : List Char) :
    dropMinus (c :: text) = c :: text := by
  unfold dropMinus
  split
  · next heq =>
    cases heq
    exact absurd rfl h
  · rfl

/-- A text is what is left of it without a minus sign, or that with the sign. -/
theorem eq_dropMinus (text : List Char) : text = dropMinus text ∨ text = '-' :: dropMinus text := by
  unfold dropMinus
  split
  · exact .inr rfl
  · exact .inl rfl

/-- A text has a digit at its front and only white space after its first digits exactly when it is a
run of digits with white space after it. -/
theorem digits_then_blank_iff {text : List Char} :
    (text.head?.any Char.isDigit && (text.dropWhile Char.isDigit).all isBlank) = true ↔
      ∃ digits after, text = digits ++ after ∧ digits ≠ [] ∧ (∀ c ∈ digits, c.isDigit = true) ∧
        ∀ c ∈ after, isBlank c = true := by
  rw [Bool.and_eq_true, List.all_eq_true]
  constructor
  · rintro ⟨hhead, hafter⟩
    refine ⟨text.takeWhile Char.isDigit, text.dropWhile Char.isDigit,
      List.takeWhile_append_dropWhile.symm, ?_, List.all_eq_true.1 List.all_takeWhile, hafter⟩
    cases text with
    | nil => cases hhead
    | cons c text =>
      rw [List.takeWhile_cons_of_pos (show c.isDigit = true from hhead)]
      exact List.cons_ne_nil _ _
  · rintro ⟨digits, after, rfl, hne, hdigits, hafter⟩
    obtain ⟨c, rest, rfl⟩ := List.exists_cons_of_ne_nil hne
    refine ⟨hdigits c List.mem_cons_self, ?_⟩
    rw [List.dropWhile_append_of_pos hdigits]
    exact fun c hc => hafter c ((List.dropWhile_sublist _).subset hc)

/-- The test accepts the lines that hold an integer, of any size. -/
theorem hasIntegerForm_iff {line : List Char} : hasIntegerForm line = true ↔ ∃ v, Holds line v := by
  unfold hasIntegerForm
  rw [digits_then_blank_iff]
  constructor
  · rintro ⟨digits, after, hsplit, hne, hdigits, hafter⟩
    have hbefore : ∀ c ∈ line.takeWhile isBlank, isBlank c = true :=
      List.all_eq_true.1 List.all_takeWhile
    have hline : line = line.takeWhile isBlank ++ line.dropWhile isBlank :=
      List.takeWhile_append_dropWhile.symm
    -- What comes after the white space is the digits with or without a sign before them.
    rcases eq_dropMinus (line.dropWhile isBlank) with hsign | hsign
    · refine ⟨_, _, digits, after, ?_, hbefore, hafter, digits, _, ⟨hne, hdigits, rfl⟩,
        .inl ⟨rfl, rfl⟩⟩
      rw [List.append_assoc, ← hsplit, ← hsign]
      exact hline
    · refine ⟨_, _, '-' :: digits, after, ?_, hbefore, hafter, digits, _, ⟨hne, hdigits, rfl⟩,
        .inr ⟨rfl, rfl⟩⟩
      rw [List.append_assoc, List.cons_append, ← hsplit, ← hsign]
      exact hline
  · rintro ⟨v, before, text, after, rfl, hbefore, hafter, htext⟩
    obtain ⟨hne, hblank⟩ := htext.ne_nil_and
    rw [List.append_assoc, dropWhile_isBlank_append hbefore hne hblank]
    obtain ⟨digits, n, hn, ⟨rfl, -⟩ | ⟨rfl, -⟩⟩ := htext
    · refine ⟨text, after, ?_, hn.1, hn.2.1, hafter⟩
      obtain ⟨c, rest, rfl⟩ := List.exists_cons_of_ne_nil hne
      exact dropMinus_cons_of_ne hn.head_ne.1 _
    · exact ⟨digits, after, rfl, hn.1, hn.2.1, hafter⟩

/-! ## The three parts together -/

/-- A line holds an integer exactly when what is left of it without white space is its numeral. -/
theorem holds_iff_trim {line : List Char} {v : ℤ} : Holds line v ↔ IsNumeral (trim line) v := by
  constructor
  · rintro ⟨before, text, after, rfl, hbefore, hafter, htext⟩
    rwa [trim_append hbefore htext.ne_nil_and.1 htext.ne_nil_and.2 hafter]
  · intro htext
    obtain ⟨before, after, hline, hbefore, hafter⟩ := exists_eq_trim line
    exact ⟨before, trim line, after, hline, hbefore, hafter, htext⟩

/-- Of a line that holds an integer, the numeral is read exactly when a word has its value. -/
theorem parseWord?_trim_iff {line : List Char} {v : ℤ} (h : Holds line v) (w : Int32) :
    parseWord? (trim line) = some w ↔ w.toInt = v := by
  rw [holds_iff_trim] at h
  rw [parseWord?_eq_some_iff]
  constructor
  · rintro (hw | ⟨digits, n, htext, -⟩)
    · exact hw.unique h
    · rw [htext] at h
      exact absurd h IsNumeral.ne_plus
  · rintro rfl
    exact .inl h

/-- A line is read as a word exactly when it holds the value of the word. -/
theorem readInteger?_iff {line : List Char} {w : Int32} :
    readInteger? line = some w ↔ Holds line w.toInt := by
  unfold readInteger?
  split
  · next hform =>
    obtain ⟨v, hv⟩ := hasIntegerForm_iff.1 hform
    rw [parseWord?_trim_iff hv]
    constructor
    · rintro rfl
      exact hv
    · exact fun hw => (holds_iff_trim.1 hw).unique (holds_iff_trim.1 hv)
  · next hform =>
    simp only [reduceCtorEq, false_iff]
    exact fun hw => hform (hasIntegerForm_iff.2 ⟨_, hw⟩)

/-- What a line is read as. It is the integer that the line holds, as long as 32 bits hold it, and
nothing otherwise. The three parts agree on what such a line is: the test accepts the lines that
hold an integer of any size; of these, trimming leaves a numeral, which is read exactly when a word
has its value; and of the lines that the test refuses, the only ones with something to read between
their white space are those where it has a plus sign. -/
theorem integer_line_law (line : List Char) :
    (∀ v : ℤ, (readInteger? line).map Int32.toInt = some v ↔
      Holds line v ∧ -2147483648 ≤ v ∧ v ≤ 2147483647) ∧
    (hasIntegerForm line = true ↔ ∃ v, Holds line v) ∧
    (∀ v, Holds line v →
      IsNumeral (trim line) v ∧ ∀ w, parseWord? (trim line) = some w ↔ w.toInt = v) ∧
    (hasIntegerForm line = false → ∀ w, parseWord? (trim line) = some w →
      (trim line).head? = some '+') := by
  refine ⟨fun v => ?_, hasIntegerForm_iff, fun v hv => ⟨holds_iff_trim.1 hv,
    parseWord?_trim_iff hv⟩, fun hform w hw => ?_⟩
  · rw [Option.map_eq_some_iff, ← exists_toInt_eq_iff]
    constructor
    · rintro ⟨w, hw, rfl⟩
      exact ⟨readInteger?_iff.1 hw, w, rfl⟩
    · rintro ⟨hv, w, rfl⟩
      exact ⟨w, readInteger?_iff.2 hv, rfl⟩
  · rcases parseWord?_eq_some_iff.1 hw with hnumeral | ⟨digits, n, htext, -⟩
    · have hholds := hasIntegerForm_iff.2 ⟨_, holds_iff_trim.2 hnumeral⟩
      rw [hform] at hholds
      cases hholds
    · rw [htext]
      rfl

/-- The bounds of the range, zeroes before a numeral, and white space that is not ASCII. -/
example : readInteger? "\u2003-0002147483648\u0085\n".toList = some (-2147483648) ∧
    readInteger? "2147483648".toList = none := by decide +kernel

end ArrayHost.Text
