import Mathlib.Data.List.Basic
import Mathlib.Tactic.SplitIfs
import ArrayHost.Text.CodePoint
import ArrayHost.Text.Line

/-!
# Encoded text reads back

The decoder reads the bytes of a character as that character (`foldl_feed_utf8EncodeChar`), so it
reads an encoded text as that text (`decode_encode`). The first byte of a character tells how many
bytes follow and bounds the second one (`readFirst_two`, `readFirst_three`, `readFirst_four`). No
character is encoded in a way that those bounds exclude: it is no surrogate, and it is encoded in as
few bytes as hold it.

A byte below 128 stands for the character of that number and occurs nowhere else
(`eq_of_mem_utf8EncodeChar`), so a text has a newline byte or ends in a carriage return byte only
when it has that character there.
-/

namespace ArrayHost.Text

/-- The value of a byte. -/
theorem toNat_byte {x : ℕ} (hx : x < 256) : (UInt8.ofNat x).toNat = x :=
  UInt8.toNat_ofNat_of_lt hx

/-- A byte below 128 is a character of its own. -/
theorem readFirst_one {x : ℕ} (hx : x ≤ 0x7F) :
    readFirst (UInt8.ofNat x) = ([Char.ofNat x], none) := by
  have hb := toNat_byte (x := x) (by omega)
  unfold readFirst
  simp only [UInt8.le_iff_toNat_le, hb]
  exact if_pos hx

/-- The first byte of a character of two bytes. -/
theorem readFirst_two {x : ℕ} (hlower : 0xC2 ≤ x) (hupper : x ≤ 0xDF) :
    readFirst (UInt8.ofNat x) = ([], some { value := x - 0xC0, owed := 0 }) := by
  have hb := toNat_byte (x := x) (by omega)
  unfold readFirst
  simp only [UInt8.le_iff_toNat_le, UInt8.lt_iff_toNat_lt, hb, UInt8.reduceToNat]
  rw [if_neg (by omega), if_neg (by omega), if_pos (by omega)]

/-- The first byte of a character of three bytes. -/
theorem readFirst_three {x : ℕ} (hlower : 0xE0 ≤ x) (hupper : x ≤ 0xEF) :
    readFirst (UInt8.ofNat x) = ([], some
      { value := x - 0xE0
        owed := 1
        lower := if x = 0xE0 then 0xA0 else 0x80
        upper := if x = 0xED then 0x9F else 0xBF }) := by
  have hb := toNat_byte (x := x) (by omega)
  unfold readFirst
  simp only [UInt8.le_iff_toNat_le, UInt8.lt_iff_toNat_lt, ← UInt8.toNat_inj, hb,
    UInt8.reduceToNat]
  rw [if_neg (by omega), if_neg (by omega), if_neg (by omega)]
  by_cases h0 : x = 0xE0
  · subst h0
    rfl
  by_cases hD : x = 0xED
  · subst hD
    rfl
  rw [if_neg h0, if_neg hD, if_pos hupper, if_neg h0, if_neg hD]

/-- The first byte of a character of four bytes. -/
theorem readFirst_four {x : ℕ} (hlower : 0xF0 ≤ x) (hupper : x ≤ 0xF4) :
    readFirst (UInt8.ofNat x) = ([], some
      { value := x - 0xF0
        owed := 2
        lower := if x = 0xF0 then 0x90 else 0x80
        upper := if x = 0xF4 then 0x8F else 0xBF }) := by
  have hb := toNat_byte (x := x) (by omega)
  unfold readFirst
  simp only [UInt8.le_iff_toNat_le, UInt8.lt_iff_toNat_lt, ← UInt8.toNat_inj, hb,
    UInt8.reduceToNat]
  rw [if_neg (by omega), if_neg (by omega), if_neg (by omega), if_neg (by omega),
    if_neg (by omega), if_neg (by omega)]
  by_cases h0 : x = 0xF0
  · subst h0
    rfl
  by_cases h4 : x = 0xF4
  · subst h4
    rfl
  rw [if_neg h0, if_pos (by omega), if_neg h0, if_neg h4]

/-- A byte within the bounds continues a character that owes more. -/
theorem readNext_of_owed {value owed x : ℕ} {lower upper : UInt8} (hx : x < 256)
    (hlower : lower.toNat ≤ x) (hupper : x ≤ upper.toNat) :
    readNext ⟨value, owed + 1, lower, upper⟩ (UInt8.ofNat x) =
      ([], some { value := value * 64 + (x - 0x80), owed }) := by
  have hb := toNat_byte hx
  unfold readNext
  simp only [UInt8.le_iff_toNat_le, hb]
  rw [if_pos ⟨hlower, hupper⟩]

/-- The six bits of a byte that is neither the first of its character nor the last. -/
theorem readNext_between (v owed : ℕ) :
    readNext { value := v / 64, owed := owed + 1 } (UInt8.ofNat (v % 64 + 128)) =
      ([], some { value := v, owed }) := by
  have hvalue : v / 64 * 64 + (v % 64 + 128 - 0x80) = v := by omega
  rw [readNext_of_owed (by omega) (show 128 ≤ _ by omega) (show _ ≤ 191 by omega), hvalue]

/-- The six bits of the last byte of a character. -/
theorem readNext_last (v : ℕ) :
    readNext { value := v / 64, owed := 0 } (UInt8.ofNat (v % 64 + 128)) =
      ([Char.ofNat v], none) := by
  have hb := toNat_byte (x := v % 64 + 128) (by omega)
  have hvalue : v / 64 * 64 + (v % 64 + 128 - 0x80) = v := by omega
  have hbounds : 128 ≤ v % 64 + 128 ∧ v % 64 + 128 ≤ 191 := by omega
  unfold readNext
  simp only [UInt8.le_iff_toNat_le, hb, hvalue]
  exact if_pos hbounds

/-- The decoder reads the bytes of a character as that character. -/
theorem foldl_feed_utf8EncodeChar (text : Array Char) (c : Char) :
    (String.utf8EncodeChar c).foldl Decoder.feed ⟨text, none⟩ = ⟨text.push c, none⟩ := by
  have hvalid : c.val.toNat < 0xD800 ∨ 0xDFFF < c.val.toNat ∧ c.val.toNat < 0x110000 := c.valid
  have hc : Char.ofNat c.val.toNat = c := Char.ofNat_toNat c
  unfold String.utf8EncodeChar
  generalize c.val.toNat = v at hvalid hc
  dsimp only
  -- The cases are those of the number of bytes.
  split_ifs with h1 h2 h3
  · simp [Decoder.feed, readFirst_one h1, hc]
  · have hfirst := readFirst_two (x := v / 64 % 32 + 192) (by omega) (by omega)
    rw [show v / 64 % 32 + 192 - 0xC0 = v / 64 by omega] at hfirst
    simp only [List.foldl_cons, List.foldl_nil, Decoder.feed, hfirst, readNext_last, hc]
    simp
  · have hfirst := readFirst_three (x := v / 4096 % 16 + 224) (by omega) (by omega)
    rw [show v / 4096 % 16 + 224 - 0xE0 = v / 4096 by omega] at hfirst
    have hsecond : readNext
        { value := v / 4096
          owed := 1
          lower := if v / 4096 % 16 + 224 = 0xE0 then 0xA0 else 0x80
          upper := if v / 4096 % 16 + 224 = 0xED then 0x9F else 0xBF }
        (UInt8.ofNat (v / 64 % 64 + 128)) = ([], some { value := v / 64, owed := 0 }) := by
      have hvalue : v / 4096 * 64 + (v / 64 % 64 + 128 - 0x80) = v / 64 := by omega
      rw [readNext_of_owed (by omega), hvalue]
      · split_ifs with h
        · show 160 ≤ _
          omega
        · show 128 ≤ _
          omega
      · split_ifs with h
        · show _ ≤ 159
          omega
        · show _ ≤ 191
          omega
    simp only [List.foldl_cons, List.foldl_nil, Decoder.feed, hfirst, hsecond, readNext_last, hc]
    simp
  · have hfirst := readFirst_four (x := v / 262144 % 8 + 240) (by omega) (by omega)
    rw [show v / 262144 % 8 + 240 - 0xF0 = v / 262144 by omega] at hfirst
    have hsecond : readNext
        { value := v / 262144
          owed := 2
          lower := if v / 262144 % 8 + 240 = 0xF0 then 0x90 else 0x80
          upper := if v / 262144 % 8 + 240 = 0xF4 then 0x8F else 0xBF }
        (UInt8.ofNat (v / 4096 % 64 + 128)) = ([], some { value := v / 4096, owed := 1 }) := by
      have hvalue : v / 262144 * 64 + (v / 4096 % 64 + 128 - 0x80) = v / 4096 := by omega
      rw [readNext_of_owed (by omega), hvalue]
      · split_ifs with h
        · show 144 ≤ _
          omega
        · show 128 ≤ _
          omega
      · split_ifs with h
        · show _ ≤ 143
          omega
        · show _ ≤ 191
          omega
    have hthird := readNext_between (v / 64) 0
    rw [Nat.div_div_eq_div_mul] at hthird
    simp only [List.foldl_cons, List.foldl_nil, Decoder.feed, hfirst, hsecond, hthird,
      readNext_last, hc]
    simp

/-- The bytes of one text after another. -/
theorem encode_append (text more : List Char) :
    encode (text ++ more) = encode text ++ encode more :=
  List.flatMap_append

/-- The decoder reads an encoded text between two characters as that text. -/
theorem foldl_feed_encode (text : List Char) (before : Array Char) :
    (encode text).foldl Decoder.feed ⟨before, none⟩ = ⟨before ++ text, none⟩ := by
  induction text generalizing before with
  | nil => simp [encode]
  | cons c text ih =>
    have hcons : encode (c :: text) = String.utf8EncodeChar c ++ encode text := rfl
    rw [hcons, List.foldl_append, foldl_feed_utf8EncodeChar, ih]
    simp

/-- An encoded text reads back. -/
theorem decode_encode (text : List Char) : decode (encode text) = text := by
  unfold decode Decoder.start
  rw [foldl_feed_encode]
  simp [Decoder.finish]

/-- A byte below 128 among those of a character is its number. -/
theorem eq_of_mem_utf8EncodeChar {c : Char} {b : UInt8} (hb : b ∈ String.utf8EncodeChar c)
    (hlt : b.toNat < 128) : c = Char.ofNat b.toNat := by
  have hc : Char.ofNat c.val.toNat = c := Char.ofNat_toNat c
  unfold String.utf8EncodeChar at hb
  generalize c.val.toNat = v at hb hc
  dsimp only at hb
  -- All bytes of a character of several are above.
  have habove {x : ℕ} (hx : 128 ≤ x ∧ x < 256) : b ≠ UInt8.ofNat x := by
    rintro rfl
    rw [toNat_byte hx.2] at hlt
    omega
  split_ifs at hb with h1 h2 h3
  · obtain rfl : b = UInt8.ofNat v := List.mem_singleton.1 hb
    rw [toNat_byte (by omega), hc]
  all_goals
    simp only [List.mem_cons, List.not_mem_nil, or_false] at hb
  · rcases hb with hb | hb <;> exact absurd hb (habove (by omega))
  · rcases hb with hb | hb | hb <;> exact absurd hb (habove (by omega))
  · rcases hb with hb | hb | hb | hb <;> exact absurd hb (habove (by omega))

/-- A text has a byte below 128 only where it has the character of that number. -/
theorem mem_of_mem_encode {text : List Char} {b : UInt8} (hb : b ∈ encode text)
    (hlt : b.toNat < 128) : Char.ofNat b.toNat ∈ text := by
  obtain ⟨c, hc, hbc⟩ := List.mem_flatMap.1 hb
  rw [← eq_of_mem_utf8EncodeChar hbc hlt]
  exact hc

/-- A text ends in a byte below 128 only when it ends in the character of that number. -/
theorem getLast?_of_getLast?_encode {text : List Char} {b : UInt8}
    (hb : (encode text).getLast? = some b) (hlt : b.toNat < 128) :
    text.getLast? = some (Char.ofNat b.toNat) := by
  rcases List.eq_nil_or_concat' text with rfl | ⟨before, c, rfl⟩
  · cases hb
  · have hone : encode [c] = String.utf8EncodeChar c := by simp [encode]
    obtain ⟨last, hlast⟩ : ∃ last, (String.utf8EncodeChar c).getLast? = some last :=
      ⟨_, List.getLast?_eq_some_getLast String.utf8EncodeChar_ne_nil⟩
    rw [encode_append, List.getLast?_append, hone, hlast, Option.some_or] at hb
    cases hb
    rw [List.getLast?_concat, eq_of_mem_utf8EncodeChar (List.mem_of_getLast? hlast) hlt]

end ArrayHost.Text
