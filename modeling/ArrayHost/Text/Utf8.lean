/-!
# UTF-8

`encode` writes characters as bytes. `decode` reads any bytes: a maximal sequence of bytes that
starts a character but does not finish it, and a byte that can start none, are each read as one
`U+FFFD`. The decoder reads a byte at a time (`Decoder.feed`), so how the bytes are cut into pieces
does not matter to it.
-/

namespace ArrayHost.Text

/-- The character that stands for what has no text. -/
def replacement : Char := '\uFFFD'

/-- The UTF-8 bytes of a text. -/
def encode (text : List Char) : List UInt8 :=
  text.flatMap String.utf8EncodeChar

/-- A character of which some bytes have been read. The bounds of the next byte are narrower than
those of a continuation byte where the wider ones would allow an overlong form, a surrogate or a
value above `U+10FFFF`. -/
structure Opened where
  /-- The value of the bits read so far. -/
  value : Nat
  /-- The bytes still owed after the next one. -/
  owed : Nat
  /-- The least byte that may come next. -/
  lower : UInt8 := 0x80
  /-- The greatest byte that may come next. -/
  upper : UInt8 := 0xBF

/-- Reads a byte between two characters: what it writes, and the character it opens. -/
def readFirst (b : UInt8) : List Char × Option Opened :=
  let bits := b.toNat
  if b ≤ 0x7F then ([Char.ofNat bits], none)
  else if b < 0xC2 then ([replacement], none)
  else if b ≤ 0xDF then ([], some { value := bits - 0xC0, owed := 0 })
  else if b = 0xE0 then ([], some { value := 0x0, owed := 1, lower := 0xA0 })
  else if b = 0xED then ([], some { value := 0xD, owed := 1, upper := 0x9F })
  else if b ≤ 0xEF then ([], some { value := bits - 0xE0, owed := 1 })
  else if b = 0xF0 then ([], some { value := 0x0, owed := 2, lower := 0x90 })
  else if b ≤ 0xF3 then ([], some { value := bits - 0xF0, owed := 2 })
  else if b = 0xF4 then ([], some { value := 0x4, owed := 2, upper := 0x8F })
  else ([replacement], none)

/-- Reads a byte inside a character. A byte that cannot continue it ends it as one replacement, and
is read again as a first byte. -/
def readNext (c : Opened) (b : UInt8) : List Char × Option Opened :=
  if c.lower ≤ b ∧ b ≤ c.upper then
    let value := c.value * 64 + (b.toNat - 0x80)
    match c.owed with
    | 0 => ([Char.ofNat value], none)
    | owed + 1 => ([], some { value, owed })
  else
    let (text, opened) := readFirst b
    (replacement :: text, opened)

/-- The text read so far and the character that has been opened. -/
structure Decoder where
  /-- The text of the characters that are finished. -/
  text : Array Char
  /-- The character that is not finished, if there is one. -/
  opened : Option Opened

namespace Decoder

/-- The decoder that has read nothing. -/
def start : Decoder := ⟨#[], none⟩

/-- Reads one byte. -/
def feed (d : Decoder) (b : UInt8) : Decoder :=
  match d with
  | ⟨text, none⟩ =>
    let (more, opened) := readFirst b
    ⟨text ++ more, opened⟩
  | ⟨text, some c⟩ =>
    let (more, opened) := readNext c b
    ⟨text ++ more, opened⟩

/-- The text read when no byte follows. A character left open is one replacement. -/
def finish (d : Decoder) : List Char :=
  d.text.toList ++ (if d.opened.isSome then [replacement] else [])

end Decoder

/-- The text of arbitrary bytes. -/
def decode (bytes : List UInt8) : List Char :=
  (bytes.foldl Decoder.feed Decoder.start).finish

end ArrayHost.Text
