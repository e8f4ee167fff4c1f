import ArrayHost.Text.Blank

/-!
# Decimal numerals

How a 32-bit integer is written (`numeral`), and how an input line is read as one (`readInteger?`).
A line that has the form of an integer (`hasIntegerForm`) is trimmed and its numeral is read
(`parseWord?`). It holds an integer when, white space at both ends apart, it is a run of ASCII
digits with at most one minus sign before it, and the value fits the word.
-/

namespace ArrayHost.Text

/-- The shortest decimal numeral of an integer, with a minus sign before a negative one. -/
def numeral (value : Int) : List Char :=
  if value < 0 then '-' :: Nat.toDigits 10 value.natAbs else Nat.toDigits 10 value.natAbs

/-- The numeral of a word, as a string. -/
def wordText (word : Int32) : String :=
  String.ofList (numeral word.toInt)

/-- The value of a nonempty run of ASCII digits. -/
def natural? (digits : List Char) : Option Nat :=
  if digits ≠ [] ∧ digits.all Char.isDigit then some (Nat.ofDigitChars 10 digits 0) else none

/-- The word with the given value, if 32 bits hold it. -/
def word? (value : Int) : Option Int32 :=
  if Int32.minValue.toInt ≤ value ∧ value ≤ Int32.maxValue.toInt then some (Int32.ofInt value)
  else none

/-- The word for a numeral with one more digit, from the word for the numeral without it. Whether 32
bits hold the value is asked after the multiplication and again after the addition, which is a
subtraction when `sign` is -1. -/
def addDigit? (sign : Int) (word : Int32) (digit : Char) : Option Int32 :=
  if digit.isDigit then
    (word? (word.toInt * 10)).bind fun shifted =>
      word? (shifted.toInt + sign * (digit.toNat - '0'.toNat : Nat))
  else none

/-- The word for a nonempty run of ASCII digits with the given sign. -/
def digitsWord? (sign : Int) (digits : List Char) : Option Int32 :=
  if digits = [] then none else digits.foldlM (addDigit? sign) 0

/-- The word for a numeral. A plus sign may stand before the digits as well as a minus sign. -/
def parseWord? : List Char → Option Int32
  | '-' :: digits => digitsWord? (-1) digits
  | '+' :: digits => digitsWord? 1 digits
  | digits => digitsWord? 1 digits

/-- The text without a minus sign at its front. -/
def dropMinus : List Char → List Char
  | '-' :: text => text
  | text => text

/-- The line has the form of an integer: white space, at most one minus sign, one ASCII digit or
more, and white space up to the end. -/
def hasIntegerForm (line : List Char) : Bool :=
  let unsigned := dropMinus (line.dropWhile isBlank)
  unsigned.head?.any Char.isDigit && (unsigned.dropWhile Char.isDigit).all isBlank

/-- The integer that a line holds. -/
def readInteger? (line : List Char) : Option Int32 :=
  if hasIntegerForm line then parseWord? (trim line) else none

end ArrayHost.Text
