import ArrayHost.Text.Utf8

/-!
# Code points

An array of integers stands for a text when each element is the code point of a character. A number
that is no Unicode scalar value has no character of its own; the replacement character is shown for
it.
-/

namespace ArrayHost.Text

/-- The character whose code point is the given number. -/
def character? (code : Int32) : Option Char :=
  if 0 ≤ code.toInt ∧ code.toInt.toNat.isValidChar then some (Char.ofNat code.toInt.toNat) else none

/-- The character that is shown for a number. -/
def shownCharacter (code : Int32) : Char :=
  (character? code).getD replacement

/-- The numbers that have no character of their own. -/
def invalidCodes (codes : List Int32) : List Int32 :=
  codes.filter fun code => (character? code).isNone

/-- The code point of a character. -/
def codePoint (c : Char) : Int32 :=
  Int32.ofNat c.toNat

end ArrayHost.Text
