import ArrayHost.Proofs.IntegerLines

/-!
# Numerals read back

The numeral of an integer is one of the grammar of input lines (`isNumeral_numeral`). It has no
blank character, so a line that is the numeral of a word is read as that word
(`readInteger?_numeral`).
-/

namespace ArrayHost.Text

/-- The digits of a number are digits. -/
theorem isDigit_of_mem_digits {n : ℕ} {c : Char} (h : c ∈ Nat.toDigits 10 n) :
    c.isDigit = true :=
  Nat.isDigit_of_mem_toDigits (by omega) (by omega) h

/-- The digits of a number are a numeral of it. -/
theorem isNatural_digits (n : ℕ) : IsNatural (Nat.toDigits 10 n) n :=
  ⟨Nat.toDigits_ne_nil, fun _ hc => isDigit_of_mem_digits hc, Nat.ofDigitChars_ten_toDigits.symm⟩

/-- The numeral of an integer is a numeral of it. -/
theorem isNumeral_numeral (i : ℤ) : IsNumeral (numeral i) i := by
  refine ⟨Nat.toDigits 10 i.natAbs, i.natAbs, isNatural_digits _, ?_⟩
  unfold numeral
  split
  · exact .inr ⟨rfl, by omega⟩
  · exact .inl ⟨rfl, by omega⟩

/-- A numeral has no blank character. -/
theorem isBlank_of_mem_numeral {i : ℤ} {c : Char} (h : c ∈ numeral i) : isBlank c = false :=
  (isNumeral_numeral i).ne_nil_and.2 c h

/-- The numeral of a word is a line that holds that word. -/
theorem readInteger?_numeral (n : Int32) : readInteger? (numeral n.toInt) = some n :=
  readInteger?_iff.2 ⟨[], numeral n.toInt, [], by simp, by simp, by simp, isNumeral_numeral n.toInt⟩

end ArrayHost.Text
