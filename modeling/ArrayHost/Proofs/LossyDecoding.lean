import Mathlib.Data.Nat.Find
import ArrayHost.Proofs.EncodedText

/-!
# What the decoder reads

`DecodesTo` says what lossy decoding is, without a decoder: where the bytes of a character stand,
that character is read, and anywhere else one replacement is read for the maximal subpart there
(`MaximalSubpart`), the longest run of bytes that begins some character, or a single byte if none
does. `decodesTo_iff` shows that the decoder reads just that.

Which bytes are those of a character is a table of ranges (`IsCharacter`). It has the encodings of
all characters (`isCharacter_utf8EncodeChar`) and no others (`IsCharacter.exists_eq`). The decoder
follows the table: while it has a character open, the bytes that it accepts next are those with
which a character still begins (`exists_opens`).

A byte below 128 is in no character but its own, so no subpart reaches over it, and what stands on
its two sides is decoded separately (`decode_append_cons`).
-/

namespace ArrayHost.Text

/-- The least second byte of a character of three or four bytes that has `x` for its first. -/
def secondLower (x : UInt8) : UInt8 :=
  if x = 0xE0 then 0xA0 else if x = 0xF0 then 0x90 else 0x80

/-- The greatest second byte of a character of three or four bytes that has `x` for its first. -/
def secondUpper (x : UInt8) : UInt8 :=
  if x = 0xED then 0x9F else if x = 0xF4 then 0x8F else 0xBF

/-- The byte continues a character. -/
def Continues (b : UInt8) : Prop := 0x80 ≤ b ∧ b ≤ 0xBF

/-- The ranges of the bytes of one character. -/
inductive IsCharacter : List UInt8 → Prop
  | one {x} : x ≤ 0x7F → IsCharacter [x]
  | two {x y} : 0xC2 ≤ x → x ≤ 0xDF → Continues y → IsCharacter [x, y]
  | three {x y z} : 0xE0 ≤ x → x ≤ 0xEF → secondLower x ≤ y ∧ y ≤ secondUpper x → Continues z →
    IsCharacter [x, y, z]
  | four {x y z w} : 0xF0 ≤ x → x ≤ 0xF4 → secondLower x ≤ y ∧ y ≤ secondUpper x → Continues z →
    Continues w → IsCharacter [x, y, z, w]

/-- The bounds of a second byte, as numbers. -/
theorem second_iff {x y : UInt8} : secondLower x ≤ y ∧ y ≤ secondUpper x ↔
    (if x.toNat = 0xE0 then 0xA0 else if x.toNat = 0xF0 then 0x90 else 0x80) ≤ y.toNat ∧
    y.toNat ≤ (if x.toNat = 0xED then 0x9F else if x.toNat = 0xF4 then 0x8F else 0xBF) := by
  simp only [secondLower, secondUpper, UInt8.le_iff_toNat_le, ← UInt8.toNat_inj, UInt8.reduceToNat]
  split_ifs <;> simp

/-- The bytes of the character with a given number. -/
theorem utf8EncodeChar_ofNat {v : ℕ} (h : v.isValidChar) : String.utf8EncodeChar (Char.ofNat v) =
    if v ≤ 0x7F then [UInt8.ofNat v]
    else if v ≤ 0x7FF then [UInt8.ofNat (v / 64 % 32 + 192), UInt8.ofNat (v % 64 + 128)]
    else if v ≤ 0xFFFF then [UInt8.ofNat (v / 4096 % 16 + 224), UInt8.ofNat (v / 64 % 64 + 128),
      UInt8.ofNat (v % 64 + 128)]
    else [UInt8.ofNat (v / 262144 % 8 + 240), UInt8.ofNat (v / 4096 % 64 + 128),
      UInt8.ofNat (v / 64 % 64 + 128), UInt8.ofNat (v % 64 + 128)] := by
  have hv : (Char.ofNat v).val.toNat = v := by
    rw [Char.ofNat, dif_pos h]
    rfl
  unfold String.utf8EncodeChar
  rw [hv]

/-- The bytes of a character are in the ranges. -/
theorem isCharacter_utf8EncodeChar (c : Char) : IsCharacter (String.utf8EncodeChar c) := by
  have hvalid : c.val.toNat < 0xD800 ∨ 0xDFFF < c.val.toNat ∧ c.val.toNat < 0x110000 := c.valid
  unfold String.utf8EncodeChar
  generalize c.val.toNat = v at hvalid
  dsimp only
  have hcontinues (n : ℕ) : Continues (UInt8.ofNat (n % 64 + 128)) := by
    simp only [Continues, UInt8.le_iff_toNat_le, toNat_byte (x := n % 64 + 128) (by omega),
      UInt8.reduceToNat]
    omega
  split_ifs with h1 h2 h3
  · refine .one ?_
    simp only [UInt8.le_iff_toNat_le, toNat_byte (x := v) (by omega), UInt8.reduceToNat]
    omega
  · have hx := toNat_byte (x := v / 64 % 32 + 192) (by omega)
    refine .two ?_ ?_ (hcontinues _)
    all_goals
      simp only [UInt8.le_iff_toNat_le, hx, UInt8.reduceToNat]
      omega
  · have hx := toNat_byte (x := v / 4096 % 16 + 224) (by omega)
    have hy := toNat_byte (x := v / 64 % 64 + 128) (by omega)
    refine .three ?_ ?_ ?_ (hcontinues _)
    · simp only [UInt8.le_iff_toNat_le, hx, UInt8.reduceToNat]
      omega
    · simp only [UInt8.le_iff_toNat_le, hx, UInt8.reduceToNat]
      omega
    · rw [second_iff, hx, hy]
      split_ifs <;> omega
  · have hx := toNat_byte (x := v / 262144 % 8 + 240) (by omega)
    have hy := toNat_byte (x := v / 4096 % 64 + 128) (by omega)
    refine .four ?_ ?_ ?_ (hcontinues _) (hcontinues _)
    · simp only [UInt8.le_iff_toNat_le, hx, UInt8.reduceToNat]
      omega
    · simp only [UInt8.le_iff_toNat_le, hx, UInt8.reduceToNat]
      omega
    · rw [second_iff, hx, hy]
      split_ifs <;> omega

/-- Bytes in the ranges are those of a character. -/
theorem IsCharacter.exists_eq {bytes : List UInt8} (h : IsCharacter bytes) :
    ∃ c, bytes = String.utf8EncodeChar c := by
  have hbyte {x : UInt8} {n : ℕ} (hn : x.toNat = n) : x = UInt8.ofNat n := by
    rw [← hn, UInt8.ofNat_toNat]
  cases h with
  | @one x hx =>
    have hx' : x.toNat ≤ 0x7F := UInt8.le_iff_toNat_le.1 hx
    refine ⟨Char.ofNat x.toNat, ?_⟩
    rw [utf8EncodeChar_ofNat (.inl (by omega)), if_pos hx', UInt8.ofNat_toNat]
  | @two x y hl hu hy =>
    simp only [Continues, UInt8.le_iff_toNat_le, UInt8.reduceToNat] at hl hu hy
    refine ⟨Char.ofNat ((x.toNat - 0xC0) * 64 + (y.toNat - 0x80)), ?_⟩
    rw [utf8EncodeChar_ofNat (.inl (by omega)), if_neg (by omega), if_pos (by omega)]
    simp only [List.cons.injEq, and_true]
    exact ⟨hbyte (by omega), hbyte (by omega)⟩
  | @three x y z hl hu hy hz =>
    rw [second_iff] at hy
    simp only [Continues, UInt8.le_iff_toNat_le, UInt8.reduceToNat] at hl hu hz
    generalize hv : ((x.toNat - 0xE0) * 64 + (y.toNat - 0x80)) * 64 + (z.toNat - 0x80) = v
    have hvalid : v.isValidChar := by
      unfold Nat.isValidChar
      split_ifs at hy <;> omega
    have hlower : 0x7FF < v := by split_ifs at hy <;> omega
    have hy : 0x80 ≤ y.toNat ∧ y.toNat ≤ 0xBF := by split_ifs at hy <;> omega
    refine ⟨Char.ofNat v, ?_⟩
    rw [utf8EncodeChar_ofNat hvalid, if_neg (by omega), if_neg (by omega), if_pos (by omega)]
    simp only [List.cons.injEq, and_true]
    exact ⟨hbyte (by omega), hbyte (by omega), hbyte (by omega)⟩
  | @four x y z w hl hu hy hz hw =>
    rw [second_iff] at hy
    simp only [Continues, UInt8.le_iff_toNat_le, UInt8.reduceToNat] at hl hu hz hw
    generalize hv : (((x.toNat - 0xF0) * 64 + (y.toNat - 0x80)) * 64 + (z.toNat - 0x80)) * 64 +
      (w.toNat - 0x80) = v
    have hvalid : v.isValidChar := by
      unfold Nat.isValidChar
      split_ifs at hy <;> omega
    have hlower : 0xFFFF < v := by split_ifs at hy <;> omega
    have hy : 0x80 ≤ y.toNat ∧ y.toNat ≤ 0xBF := by split_ifs at hy <;> omega
    refine ⟨Char.ofNat v, ?_⟩
    rw [utf8EncodeChar_ofNat hvalid, if_neg (by omega), if_neg (by omega), if_neg (by omega)]
    simp only [List.cons.injEq, and_true]
    exact ⟨hbyte (by omega), hbyte (by omega), hbyte (by omega), hbyte (by omega)⟩

/-- The bytes are the first ones of some character, or all of them. -/
def Begins (bytes : List UInt8) : Prop :=
  ∃ c, bytes <+: String.utf8EncodeChar c

/-- The bytes `bad` are what one replacement stands for, in front of the bytes `rest`. -/
structure MaximalSubpart (bad rest : List UInt8) : Prop where
  /-- No character stands here. -/
  not_character : ∀ c, ¬ String.utf8EncodeChar c <+: bad ++ rest
  /-- There is at least one byte. -/
  ne_nil : bad ≠ []
  /-- The bytes begin some character, or are a single one. -/
  begins_or_single : Begins bad ∨ bad.length = 1
  /-- No more of the bytes that stand here begin a character. -/
  maximal : ∀ more, more <+: bad ++ rest → Begins more → more.length ≤ bad.length

/-- The text of arbitrary bytes. -/
inductive DecodesTo : List UInt8 → List Char → Prop
  | nil : DecodesTo [] []
  | character (c : Char) {rest : List UInt8} {text : List Char} : DecodesTo rest text →
    DecodesTo (String.utf8EncodeChar c ++ rest) (c :: text)
  | subpart {bad rest : List UInt8} {text : List Char} : MaximalSubpart bad rest →
    DecodesTo rest text → DecodesTo (bad ++ rest) (replacement :: text)

/-- The first bytes of a character begin one. -/
theorem IsCharacter.begins {bytes rest : List UInt8} (h : IsCharacter (bytes ++ rest)) :
    Begins bytes := by
  obtain ⟨c, hc⟩ := h.exists_eq
  exact ⟨c, rest, hc⟩

/-- The least byte continues a character. -/
theorem continues_least : Continues 0x80 := ⟨by decide, by decide⟩

/-- There is a second byte after any first one. -/
theorem exists_second (x : UInt8) : ∃ y, secondLower x ≤ y ∧ y ≤ secondUpper x := by
  refine ⟨secondLower x, UInt8.le_refl _, ?_⟩
  unfold secondLower secondUpper
  by_cases h0 : x = 0xE0
  · subst h0
    decide
  by_cases h4 : x = 0xF0
  · subst h4
    decide
  rw [if_neg h0, if_neg h4]
  split_ifs <;> decide

section

variable {text : Array Char} {b : UInt8} {o : Opened}

/-- A byte that opens a character writes nothing. -/
theorem feed_of_readFirst (h : readFirst b = ([], some o)) :
    Decoder.feed ⟨text, none⟩ b = ⟨text, some o⟩ := by
  simp [Decoder.feed, h]

/-- A byte that leaves a character open writes nothing. -/
theorem feed_of_readNext {o' : Opened} (h : readNext o b = ([], some o')) :
    Decoder.feed ⟨text, some o⟩ b = ⟨text, some o'⟩ := by
  simp [Decoder.feed, h]

/-- A byte out of bounds is read after one replacement for what was open. -/
theorem feed_of_not_bounds (h : ¬ (o.lower ≤ b ∧ b ≤ o.upper)) :
    Decoder.feed ⟨text, some o⟩ b = Decoder.feed ⟨text.push replacement, none⟩ b := by
  simp [Decoder.feed, readNext, h]

end

/-- What the decoder has open after bytes, and that it accepts only what a character can go on
with. -/
structure Opens (bytes : List UInt8) (o : Opened) : Prop where
  /-- Reading the bytes opens it, and writes nothing. -/
  foldl_feed : ∀ text, bytes.foldl Decoder.feed ⟨text, none⟩ = ⟨text, some o⟩
  /-- With a byte that is accepted next, some character still begins. -/
  begins : ∀ b, o.lower ≤ b ∧ b ≤ o.upper → Begins (bytes ++ [b])

/-- A first byte opens a character. -/
theorem Opens.first {x : UInt8} {o : Opened} (h : readFirst x = ([], some o))
    (hbegins : ∀ b, o.lower ≤ b ∧ b ≤ o.upper → Begins [x, b]) : Opens [x] o where
  foldl_feed _ := feed_of_readFirst h
  begins := hbegins

/-- A byte that is accepted leaves a character open that owes one byte less. -/
theorem Opens.next {bytes : List UInt8} {value owed : ℕ} {lower upper b : UInt8}
    (h : Opens bytes ⟨value, owed + 1, lower, upper⟩) (hb : lower ≤ b ∧ b ≤ upper)
    (hbegins : ∀ y, Continues y → Begins (bytes ++ [b] ++ [y])) :
    Opens (bytes ++ [b]) { value := value * 64 + (b.toNat - 0x80), owed } where
  foldl_feed text := by
    rw [List.foldl_append, h.foldl_feed]
    refine feed_of_readNext ?_
    rw [readNext, if_pos hb]
  begins := hbegins

section

variable {x : UInt8}

/-- The first byte of a character of two bytes opens it. -/
theorem readFirst_of_two (hl : 0xC2 ≤ x) (hu : x ≤ 0xDF) :
    readFirst x = ([], some { value := x.toNat - 0xC0, owed := 0 }) := by
  have h := readFirst_two (x := x.toNat) (UInt8.le_iff_toNat_le.1 hl) (UInt8.le_iff_toNat_le.1 hu)
  rwa [UInt8.ofNat_toNat] at h

/-- The first byte of a character of three bytes opens it, with bounds on the second. -/
theorem readFirst_of_three (hl : 0xE0 ≤ x) (hu : x ≤ 0xEF) :
    readFirst x = ([], some ⟨x.toNat - 0xE0, 1, secondLower x, secondUpper x⟩) := by
  have h := readFirst_three (x := x.toNat) (UInt8.le_iff_toNat_le.1 hl) (UInt8.le_iff_toNat_le.1 hu)
  rw [UInt8.ofNat_toNat] at h
  have h4 : x ≠ 0xF0 ∧ x ≠ 0xF4 := by
    constructor <;> rintro rfl <;> contradiction
  rw [h, secondLower, secondUpper, if_neg h4.1, if_neg h4.2]
  simp only [← UInt8.toNat_inj, UInt8.reduceToNat]

/-- The first byte of a character of four bytes opens it, with bounds on the second. -/
theorem readFirst_of_four (hl : 0xF0 ≤ x) (hu : x ≤ 0xF4) :
    readFirst x = ([], some ⟨x.toNat - 0xF0, 2, secondLower x, secondUpper x⟩) := by
  have h := readFirst_four (x := x.toNat) (UInt8.le_iff_toNat_le.1 hl) (UInt8.le_iff_toNat_le.1 hu)
  rw [UInt8.ofNat_toNat] at h
  have h3 : x ≠ 0xE0 ∧ x ≠ 0xED := by
    constructor <;> rintro rfl <;> contradiction
  rw [h, secondLower, secondUpper, if_neg h3.1, if_neg h3.2]
  simp only [← UInt8.toNat_inj, UInt8.reduceToNat]

/-- A byte that no character begins with is one replacement. -/
theorem readFirst_of_not_begins (h : ¬ Begins [x]) : readFirst x = ([replacement], none) := by
  obtain ⟨y, hy⟩ := exists_second x
  -- The byte is in no row of the table.
  have h1 : ¬ x ≤ 0x7F := fun hx => h (IsCharacter.one hx).begins
  have h2 : ¬ (0xC2 ≤ x ∧ x ≤ 0xDF) := fun hx =>
    h (IsCharacter.two hx.1 hx.2 continues_least).begins
  have h3 : ¬ (0xE0 ≤ x ∧ x ≤ 0xEF) := fun hx =>
    h (IsCharacter.three hx.1 hx.2 hy continues_least).begins
  have h4 : ¬ (0xF0 ≤ x ∧ x ≤ 0xF4) := fun hx =>
    h (IsCharacter.four hx.1 hx.2 hy continues_least continues_least).begins
  unfold readFirst
  simp only [UInt8.le_iff_toNat_le, UInt8.lt_iff_toNat_lt, ← UInt8.toNat_inj, UInt8.reduceToNat]
    at h1 h2 h3 h4 ⊢
  rw [if_neg h1]
  by_cases hlow : x.toNat < 0xC2
  · rw [if_pos hlow]
  · rw [if_neg hlow, if_neg (by omega), if_neg (by omega), if_neg (by omega), if_neg (by omega),
      if_neg (by omega), if_neg (by omega), if_neg (by omega)]

end

/-- The decoder has a character open after some of the bytes of one. -/
theorem exists_opens {bytes rest : List UInt8} (h : IsCharacter (bytes ++ rest))
    (hbytes : bytes ≠ []) (hrest : rest ≠ []) : ∃ o, Opens bytes o := by
  generalize hall : bytes ++ rest = all at h
  cases h with
  | one hx =>
    rcases bytes with _ | ⟨a, bytes⟩
    all_goals simp_all
  | @two x y hl hu hy =>
    have hone : Opens [x] _ := .first (readFirst_of_two hl hu) fun b hb =>
      @IsCharacter.begins [x, b] [] (.two hl hu hb)
    rcases bytes with _ | ⟨a, _ | ⟨b, bytes⟩⟩
    · contradiction
    · obtain ⟨rfl, -⟩ := List.cons_eq_cons.1 hall
      exact ⟨_, hone⟩
    · simp_all
  | @three x y z hl hu hy hz =>
    have hone : Opens [x] _ := .first (readFirst_of_three hl hu) fun b hb =>
      @IsCharacter.begins [x, b] _ (.three hl hu hb continues_least)
    have htwo := hone.next hy fun b hb => @IsCharacter.begins [x, y, b] [] (.three hl hu hy hb)
    rcases bytes with _ | ⟨a, _ | ⟨b, _ | ⟨c, bytes⟩⟩⟩
    · contradiction
    · obtain ⟨rfl, -⟩ := List.cons_eq_cons.1 hall
      exact ⟨_, hone⟩
    · simp only [List.cons_append, List.cons.injEq] at hall
      obtain ⟨rfl, rfl, -⟩ := hall
      exact ⟨_, htwo⟩
    · simp_all
  | @four x y z w hl hu hy hz hw =>
    have hone : Opens [x] _ := .first (readFirst_of_four hl hu) fun b hb =>
      @IsCharacter.begins [x, b] _ (.four hl hu hb continues_least continues_least)
    have htwo := hone.next hy fun b hb =>
      @IsCharacter.begins [x, y, b] _ (.four hl hu hy hb continues_least)
    have hthree := htwo.next hz fun b hb =>
      @IsCharacter.begins [x, y, z, b] [] (.four hl hu hy hz hb)
    rcases bytes with _ | ⟨a, _ | ⟨b, _ | ⟨c, _ | ⟨d, bytes⟩⟩⟩⟩
    · contradiction
    · obtain ⟨rfl, -⟩ := List.cons_eq_cons.1 hall
      exact ⟨_, hone⟩
    · simp only [List.cons_append, List.cons.injEq] at hall
      obtain ⟨rfl, rfl, -⟩ := hall
      exact ⟨_, htwo⟩
    · simp only [List.cons_append, List.cons.injEq] at hall
      obtain ⟨rfl, rfl, rfl, -⟩ := hall
      exact ⟨_, hthree⟩
    · simp_all

/-- The decoder reads a maximal subpart as one replacement. -/
theorem MaximalSubpart.finish_foldl_feed {bad rest : List UInt8} (h : MaximalSubpart bad rest)
    (text : Array Char) : ((bad ++ rest).foldl Decoder.feed ⟨text, none⟩).finish =
      (rest.foldl Decoder.feed ⟨text.push replacement, none⟩).finish := by
  rw [List.foldl_append]
  by_cases hbegins : Begins bad
  · obtain ⟨c, more, hmore⟩ := hbegins
    -- The character is not there, so that some of its bytes are missing.
    have hnil : more ≠ [] := by
      rintro rfl
      refine h.not_character c ⟨rest, ?_⟩
      rw [← hmore, List.append_nil]
    obtain ⟨o, ho⟩ := exists_opens (hmore ▸ isCharacter_utf8EncodeChar c) h.ne_nil hnil
    rw [ho.foldl_feed]
    cases rest with
    | nil => simp [Decoder.finish]
    | cons b rest =>
      have hb : ¬ (o.lower ≤ b ∧ b ≤ o.upper) := by
        intro hb
        have hlength := h.maximal (bad ++ [b]) ⟨rest, by simp⟩ (ho.begins b hb)
        rw [List.length_append] at hlength
        exact Nat.not_succ_le_self _ hlength
      rw [List.foldl_cons, List.foldl_cons, feed_of_not_bounds hb]
  · -- A byte that no character begins with.
    obtain ⟨b, rfl⟩ := List.length_eq_one_iff.1 (h.begins_or_single.resolve_left hbegins)
    simp [Decoder.feed, readFirst_of_not_begins hbegins]

/-- The decoder reads the text of the bytes. -/
theorem DecodesTo.finish_foldl_feed {bytes : List UInt8} {text : List Char}
    (h : DecodesTo bytes text) (before : Array Char) :
    (bytes.foldl Decoder.feed ⟨before, none⟩).finish = before.toList ++ text := by
  induction h generalizing before with
  | nil => simp [Decoder.finish]
  | character c _ ih =>
    rw [List.foldl_append, foldl_feed_utf8EncodeChar, ih]
    simp
  | subpart hbad _ ih =>
    rw [hbad.finish_foldl_feed, ih]
    simp

/-- Where no character stands, there is a maximal subpart. -/
theorem exists_maximalSubpart {bytes : List UInt8} (hne : bytes ≠ [])
    (hcharacter : ∀ c, ¬ String.utf8EncodeChar c <+: bytes) :
    ∃ bad rest, bytes = bad ++ rest ∧ MaximalSubpart bad rest := by
  classical
  -- The greatest number of bytes that begin a character, or one if no byte does.
  let P (k : ℕ) : Prop := Begins (bytes.take k)
  let n := Nat.findGreatest P bytes.length
  have hle : n ≤ bytes.length := Nat.findGreatest_le _
  have hpos : 0 < bytes.length := List.length_pos_iff.2 hne
  have hnone : P 0 := ⟨'a', List.nil_prefix⟩
  have hbegins : P n := Nat.findGreatest_spec (Nat.zero_le _) hnone
  have hlength : (bytes.take (max n 1)).length = max n 1 := by
    rw [List.length_take]
    omega
  refine ⟨bytes.take (max n 1), bytes.drop (max n 1), (List.take_append_drop _ _).symm, ?_⟩
  constructor
  case not_character => rwa [List.take_append_drop]
  case ne_nil =>
    rw [← List.length_pos_iff]
    omega
  case begins_or_single =>
    rcases Nat.eq_zero_or_pos n with hzero | hn
    · exact .inr (by omega)
    · left
      rwa [max_eq_left hn]
  case maximal =>
    intro more hmore hstarts
    rw [List.take_append_drop] at hmore
    rw [List.prefix_iff_eq_take.1 hmore] at hstarts
    by_contra hlonger
    have hgreater : n < more.length := by omega
    exact Nat.findGreatest_is_greatest hgreater hmore.length_le hstarts

/-- All bytes have a text. -/
theorem exists_decodesTo (bytes : List UInt8) : ∃ text, DecodesTo bytes text := by
  induction hn : bytes.length using Nat.strongRecOn generalizing bytes with
  | ind n ih =>
    by_cases hcharacter : ∃ c, String.utf8EncodeChar c <+: bytes
    · obtain ⟨c, rest, rfl⟩ := hcharacter
      have hpos := List.length_pos_iff.2 (String.utf8EncodeChar_ne_nil (c := c))
      rw [List.length_append] at hn
      obtain ⟨text, htext⟩ := ih rest.length (by omega) rest rfl
      exact ⟨_, .character c htext⟩
    by_cases hne : bytes = []
    · exact ⟨[], hne ▸ .nil⟩
    · obtain ⟨bad, rest, rfl, hbad⟩ := exists_maximalSubpart hne (not_exists.1 hcharacter)
      have hpos := List.length_pos_iff.2 hbad.ne_nil
      rw [List.length_append] at hn
      obtain ⟨text, htext⟩ := ih rest.length (by omega) rest rfl
      exact ⟨_, .subpart hbad htext⟩

/-- The decoder reads the text of any bytes, and they have no other. -/
theorem decodesTo_iff {bytes : List UInt8} {text : List Char} :
    DecodesTo bytes text ↔ text = decode bytes := by
  have hdecode {text : List Char} (h : DecodesTo bytes text) : text = decode bytes := by
    rw [decode, Decoder.start, h.finish_foldl_feed]
    rfl
  refine ⟨hdecode, ?_⟩
  rintro rfl
  obtain ⟨text, htext⟩ := exists_decodesTo bytes
  rwa [← hdecode htext]

/-- The bytes have the text that is decoded. -/
theorem decodesTo_decode (bytes : List UInt8) : DecodesTo bytes (decode bytes) :=
  decodesTo_iff.2 rfl

/-- A byte below 128 is all of its character. -/
theorem utf8EncodeChar_of_lt {b : UInt8} (hb : b.toNat < 128) :
    String.utf8EncodeChar (Char.ofNat b.toNat) = [b] := by
  rw [utf8EncodeChar_ofNat (.inl (by omega)), if_pos (by omega), UInt8.ofNat_toNat]

/-- Bytes that begin a character and have one below 128 among them are that byte. -/
theorem Begins.eq_of_mem {bytes : List UInt8} (h : Begins bytes) {b : UInt8} (hmem : b ∈ bytes)
    (hb : b.toNat < 128) : bytes = [b] := by
  obtain ⟨c, hc⟩ := h
  rw [eq_of_mem_utf8EncodeChar (hc.subset hmem) hb, utf8EncodeChar_of_lt hb] at hc
  exact hc.eq_of_length_le (List.length_pos_of_mem hmem)

section

variable {b : UInt8} {after : List UInt8}

/-- Bytes that begin a character do not reach over one below 128. -/
theorem Begins.prefix_of_append {bytes more : List UInt8} (h : Begins more) (hb : b.toNat < 128)
    (hne : bytes ≠ []) (hmore : more <+: bytes ++ b :: after) : more <+: bytes := by
  obtain ⟨rest, hrest⟩ := hmore
  rcases List.append_eq_append_iff.1 hrest with ⟨inner, rfl, -⟩ | ⟨outer, rfl, houter⟩
  · exact List.prefix_append _ _
  -- What reaches over the end of the bytes has the byte below 128 in it.
  cases outer with
  | nil => simp
  | cons a outer =>
    obtain ⟨rfl, -⟩ := List.cons_eq_cons.1 houter
    have hlength := congrArg List.length (h.eq_of_mem (by simp) hb)
    have hpos := List.length_pos_iff.2 hne
    simp only [List.length_append, List.length_cons, List.length_nil] at hlength
    omega

/-- A maximal subpart stays one when more follows after a byte below 128. -/
theorem MaximalSubpart.append_cons {bad rest : List UInt8} (h : MaximalSubpart bad rest)
    (hb : b.toNat < 128) : MaximalSubpart bad (rest ++ b :: after) := by
  have hne : bad ++ rest ≠ [] := List.append_ne_nil_of_left_ne_nil h.ne_nil _
  refine ⟨fun c hc => ?_, h.ne_nil, h.begins_or_single, fun more hmore hbegins => ?_⟩
  · rw [← List.append_assoc] at hc
    have hbegins : Begins (String.utf8EncodeChar c) := ⟨c, List.prefix_rfl⟩
    exact h.not_character c (hbegins.prefix_of_append hb hne hc)
  · rw [← List.append_assoc] at hmore
    exact h.maximal more (hbegins.prefix_of_append hb hne hmore) hbegins

/-- What stands on the two sides of a byte below 128 has its text by itself. -/
theorem DecodesTo.append_cons {before : List UInt8} {text more : List Char}
    (h : DecodesTo before text) (hb : b.toNat < 128) (hafter : DecodesTo after more) :
    DecodesTo (before ++ b :: after) (text ++ Char.ofNat b.toNat :: more) := by
  induction h with
  | nil =>
    have h := hafter.character (Char.ofNat b.toNat)
    rwa [utf8EncodeChar_of_lt hb] at h
  | character c _ ih =>
    rw [List.append_assoc]
    exact ih.character c
  | subpart hbad _ ih =>
    rw [List.append_assoc]
    exact ih.subpart (hbad.append_cons hb)

/-- What stands on the two sides of a byte below 128 is decoded separately, and the byte is read as
its character. -/
theorem decode_append_cons (before : List UInt8) (hb : b.toNat < 128) :
    decode (before ++ b :: after) = decode before ++ Char.ofNat b.toNat :: decode after :=
  (decodesTo_iff.1 ((decodesTo_decode before).append_cons hb (decodesTo_decode after))).symm

end

section

variable {bytes : List UInt8} {text : List Char} {c : Char}

/-- A character that is read, other than a replacement, has its bytes there. -/
theorem DecodesTo.subset_of_mem (h : DecodesTo bytes text) (hc : c ∈ text) (hne : c ≠ replacement) :
    String.utf8EncodeChar c ⊆ bytes := by
  induction h with
  | nil => cases hc
  | character c' _ ih =>
    rcases List.mem_cons.1 hc with rfl | hc
    · exact List.subset_append_left _ _
    · exact List.subset_append_of_subset_right _ (ih hc)
  | subpart _ _ ih =>
    have hc := (List.mem_cons.1 hc).resolve_left hne
    exact List.subset_append_of_subset_right _ (ih hc)

/-- Only no bytes have no text. -/
theorem DecodesTo.eq_nil (h : DecodesTo bytes []) : bytes = [] := by
  cases h
  rfl

/-- The character that is read last, unless it is a replacement, has its bytes at the end. -/
theorem DecodesTo.suffix_of_getLast? (h : DecodesTo bytes text) (hc : text.getLast? = some c)
    (hne : c ≠ replacement) : String.utf8EncodeChar c <:+ bytes := by
  induction h with
  | nil => cases hc
  | @character c' rest text hrest ih =>
    cases text with
    | nil =>
      obtain rfl : c' = c := by simpa using hc
      exact ⟨[], by rw [hrest.eq_nil, List.append_nil, List.nil_append]⟩
    | cons d text => exact (ih (by simpa using hc)).trans (List.suffix_append _ _)
  | @subpart bad rest text _ _ ih =>
    cases text with
    | nil => exact absurd (Option.some.inj hc).symm hne
    | cons d text => exact (ih (by simpa using hc)).trans (List.suffix_append _ _)

end

end ArrayHost.Text
