import Mathlib.Data.List.TakeWhile
import ArrayHost.Console.Basic

/-!
# The lines of an input

`Console.lines` are the lines that reading delivers until it fails, and `Text.afterLines` what is
left of the bytes after some of them. A line attempt on an output that can be flushed depends on the
input alone (`readLine_of_none`): it delivers the next line, or fails as the input does at its
end. Of an input that breaks, only the lines with a terminator are delivered (`lines_breaks`).
-/

namespace ArrayHost

namespace Text

/-- The bytes after the first `k` lines. The last of them need not have a terminator. -/
def afterLines : ℕ → List UInt8 → List UInt8
  | 0, bytes => bytes
  | k + 1, bytes => afterLines k ((bytes.dropWhile (· != newline)).drop 1)

/-- No bytes are left after the lines of no bytes. -/
@[simp]
theorem afterLines_nil (k : ℕ) : afterLines k [] = [] := by
  induction k with
  | zero => rfl
  | succ k ih => exact ih

/-- Lines may be counted in two parts. -/
theorem afterLines_add (k m : ℕ) (bytes : List UInt8) :
    afterLines (k + m) bytes = afterLines m (afterLines k bytes) := by
  induction k generalizing bytes with
  | zero => rw [Nat.zero_add, afterLines]
  | succ k ih => rw [Nat.add_right_comm, afterLines, afterLines, ih]

/-- What a cut leaves comes after one line. -/
theorem afterLines_one_of_cutLine? {bytes line rest : List UInt8}
    (h : cutLine? bytes = some (line, rest)) : afterLines 1 bytes = rest := by
  unfold cutLine? at h
  split at h
  · contradiction
  · next b tail hdrop =>
    obtain ⟨rfl, rfl⟩ := by simpa using h
    simp [afterLines, hdrop]

/-- Bytes without a cut come to their end without a newline. -/
theorem dropWhile_of_cutLine?_eq_none {bytes : List UInt8} (h : cutLine? bytes = none) :
    bytes.dropWhile (· != newline) = [] := by
  unfold cutLine? at h
  split at h
  · next hdrop => exact hdrop
  · contradiction

/-- Bytes without a cut are one line. -/
theorem afterLines_one_of_cutLine?_eq_none {bytes : List UInt8} (h : cutLine? bytes = none) :
    afterLines 1 bytes = [] := by
  simp [afterLines, dropWhile_of_cutLine?_eq_none h]

/-- Bytes without a cut have no newline. -/
theorem count_newline_of_cutLine?_eq_none {bytes : List UInt8} (h : cutLine? bytes = none) :
    bytes.count newline = 0 := by
  have hall := List.dropWhile_eq_nil_iff.1 (dropWhile_of_cutLine?_eq_none h)
  rw [List.count_eq_zero]
  -- A newline would be a byte that is dropped although it is one.
  intro hmem
  simpa using hall newline hmem

/-- The line that is cut has no newline. -/
theorem newline_not_mem_of_cutLine? {bytes line rest : List UInt8}
    (h : cutLine? bytes = some (line, rest)) : newline ∉ line := by
  have hline : line = bytes.takeWhile (· != newline) := by
    unfold cutLine? at h
    split at h
    · contradiction
    · simp_all
  intro hmem
  rw [hline] at hmem
  simpa using List.mem_takeWhile_imp hmem

/-- A cut takes the first newline. -/
theorem count_newline_of_cutLine? {bytes line rest : List UInt8}
    (h : cutLine? bytes = some (line, rest)) : bytes.count newline = rest.count newline + 1 := by
  have hcount := List.count_eq_zero.2 (newline_not_mem_of_cutLine? h)
  rw [eq_of_cutLine?_eq_some h, List.count_append, hcount, List.count_cons_self, Nat.zero_add]

end Text

namespace Console

/-- How reading fails where the input ends. -/
def Ending.error : Ending → Error
  | .ends => .endOfInput
  | .breaks => inputBroken

/-- A line attempt that succeeds leaves what comes after one line. -/
theorem Input.take_of_ok {i : Input} {line : List UInt8} (h : i.take.line = .ok line) :
    i.take.input = { i with unread := Text.afterLines 1 i.unread } := by
  unfold take at h ⊢
  split
  · next hcut => rw [Text.afterLines_one_of_cutLine? hcut]
  · next hcut =>
    rw [Text.afterLines_one_of_cutLine?_eq_none hcut]
    cases hending : i.ending with
    | breaks => rfl
    -- The last line needs no terminator unless it is empty.
    | ends => by_cases hempty : i.unread = [] <;> simp_all

/-- A line attempt that fails fails as the input ends, and nothing is left. -/
theorem Input.take_of_error {i : Input} {e : Error} (h : i.take.line = .error e) :
    e = i.ending.error ∧ i.take.input = { i with unread := [] } := by
  obtain ⟨unread, ending⟩ := i
  unfold take at h ⊢
  split at h
  · simp at h
  · cases ending with
    | breaks => simp_all [Ending.error]
    | ends => by_cases hempty : unread = [] <;> simp_all [Ending.error]

/-- An input that ends has nothing left when a line attempt fails. -/
theorem Input.unread_of_error {i : Input} {e : Error} (h : i.take.line = .error e)
    (hends : i.ending = .ends) : i.unread = [] := by
  unfold take at h
  split at h
  · simp at h
  · by_cases hempty : i.unread = []
    · exact hempty
    · simp_all

/-- A console with the given input whose streams do not fail before the input ends. -/
def faultless (input : Input) : Console where
  input := input
  output := { written := #[], capacity := none, failingFlush := none, flushes := 0 }
  events := []

/-- The lines that reading delivers until it fails. -/
def lines (c : Console) : List (List Char) :=
  match _h : c.readLine with
  | (.ok line, after) => line :: lines after
  | (.error _, _) => []
termination_by c.input.unread.length
decreasing_by
  have := @unread_readLine_lt c line (by rw [_h])
  simpa [_h] using this

section

variable {c : Console}

/-- The lines after one that is read are the rest of the lines. -/
theorem lines_of_ok {line : List Char} (h : c.readLine.1 = .ok line) :
    c.lines = line :: c.readLine.2.lines := by
  rw [lines]
  split
  · next h' => simp_all
  · next h' => simp_all

/-- There are no lines where none is read. -/
theorem lines_of_error {e : Error} (h : c.readLine.1 = .error e) : c.lines = [] := by
  rw [lines]
  split
  · next h' => simp_all
  · rfl

/-- An output whose flushes do not fail is flushed. -/
theorem flush_of_none (h : c.output.failingFlush = none) : c.flush = (.ok (),
    { c with
      output := { c.output with flushes := c.output.flushes + 1 }
      events := .flushed true :: c.events }) := by
  simp [flush, Output.flush, h, Except.isOk, Except.toBool]

/-- On an output whose flushes do not fail, a line is read as the input gives it. -/
theorem readLine_of_none (h : c.output.failingFlush = none) :
    c.readLine = (c.input.take.line.map Text.decode,
      { input := c.input.take.input
        output := { c.output with flushes := c.output.flushes + 1 }
        events := .took c.input.take.count :: .flushed true :: c.events }) := by
  rw [readLine, flush_of_none h]
  rfl

/-- On outputs whose flushes do not fail, the lines depend on the input alone. -/
theorem lines_congr {d : Console} (hc : c.output.failingFlush = none)
    (hd : d.output.failingFlush = none) (hinput : c.input = d.input) : c.lines = d.lines := by
  fun_induction lines c generalizing d with
  | case1 c line after hread ih =>
    rw [readLine_of_none hc, Prod.mk.injEq] at hread
    obtain ⟨hline, rfl⟩ := hread
    have hr := readLine_of_none hd
    rw [@lines_of_ok d line (by rw [hr, ← hinput, hline])]
    rw [ih hc (d := d.readLine.2) (by rw [hr]; exact hd) (by rw [hr, hinput])]
  | case2 c e after hread =>
    rw [readLine_of_none hc, Prod.mk.injEq] at hread
    rw [lines_of_error (c := d) (e := e) (by rw [readLine_of_none hd, ← hinput, hread.1])]

/-- What a line attempt does on an output whose flushes do not fail: it delivers the next line and
leaves what comes after it, or fails as the input ends and leaves nothing. -/
theorem readLine_cases (h : c.output.failingFlush = none) :
    (∃ line, c.readLine.1 = .ok line ∧ c.lines = line :: c.readLine.2.lines ∧
      c.readLine.2.input = { c.input with unread := Text.afterLines 1 c.input.unread }) ∨
    (c.readLine.1 = .error c.input.ending.error ∧ c.lines = [] ∧ c.readLine.2.lines = [] ∧
      c.readLine.2.input = { c.input with unread := [] }) := by
  have hr := readLine_of_none h
  cases htake : c.input.take.line with
  | ok bytes =>
    have hline : c.readLine.1 = .ok (Text.decode bytes) := by rw [hr, htake]; rfl
    exact .inl ⟨_, hline, lines_of_ok hline, by rw [hr, ← Input.take_of_ok htake]⟩
  | error e =>
    obtain ⟨rfl, hinput⟩ := Input.take_of_error htake
    have hline : c.readLine.1 = .error c.input.ending.error := by rw [hr, htake]; rfl
    refine .inr ⟨hline, lines_of_error hline, ?_, by rw [hr, ← hinput]⟩
    -- An input of which nothing is left has no line.
    have hnone : c.readLine.2.output.failingFlush = none := by rw [hr]; exact h
    have hafter : c.readLine.2.input = { c.input with unread := [] } := by rw [hr, ← hinput]
    apply lines_of_error (e := c.input.ending.error)
    rw [readLine_of_none hnone, hafter]
    obtain ⟨⟨unread, ending⟩, output, events⟩ := c
    cases ending <;> rfl

/-- No byte follows the lines of an input that ends. -/
theorem afterLines_length_lines (h : c.output.failingFlush = none)
    (hends : c.input.ending = .ends) :
    Text.afterLines c.lines.length c.input.unread = [] := by
  fun_induction lines c with
  | case1 c line after hread ih =>
    rcases readLine_cases h with ⟨line', -, -, hinput⟩ | ⟨hline, -⟩
    -- The bytes after all lines are those after the lines that follow the first.
    · rw [hread] at hinput
      have houtput : after.output.failingFlush = none := by
        rw [readLine_of_none h, Prod.mk.injEq] at hread
        rw [← hread.2]
        exact h
      rw [hinput] at ih
      rw [List.length_cons, Nat.add_comm, Text.afterLines_add]
      exact ih houtput hends
    · simp [hread] at hline
  | case2 c e after hread =>
    rw [readLine_of_none h, Prod.mk.injEq] at hread
    cases htake : c.input.take.line with
    | ok bytes => simp [htake, Except.map] at hread
    | error e => exact Input.unread_of_error htake hends

end

/-- A line that is taken is decoded, and is followed by the lines of what is left. -/
theorem lines_of_take {i rest : Input} {line : List UInt8} {count : ℕ}
    (h : i.take = ⟨.ok line, count, rest⟩) :
    (faultless i).lines = Text.decode line :: (faultless rest).lines := by
  have hr := readLine_of_none (c := faultless i) rfl
  rw [lines_of_ok (by rw [hr]; exact congrArg (fun taken => taken.line.map Text.decode) h)]
  rw [lines_congr (d := faultless rest) (by rw [hr]; rfl) rfl
    (by rw [hr]; exact congrArg Taken.input h)]

/-- The first line of an input is the one before its first newline. -/
theorem lines_of_cutLine? {bytes line rest : List UInt8} (ending : Ending)
    (h : Text.cutLine? bytes = some (line, rest)) : (faultless ⟨bytes, ending⟩).lines =
      Text.decode (Text.dropReturn line) :: (faultless ⟨rest, ending⟩).lines := by
  have htake : (Input.mk bytes ending).take =
      ⟨.ok (Text.dropReturn line), line.length + 1, ⟨rest, ending⟩⟩ := by
    simp [Input.take, h]
  exact lines_of_take htake

/-- An input that ends and has no newline is one line, unless it is empty. -/
theorem lines_of_cutLine?_eq_none {bytes : List UInt8} (h : Text.cutLine? bytes = none) :
    (faultless ⟨bytes, .ends⟩).lines = if bytes = [] then [] else [Text.decode bytes] := by
  have hnil : (faultless ⟨[], .ends⟩).lines = [] :=
    lines_of_error (e := .endOfInput) (by rw [readLine_of_none rfl]; rfl)
  split
  · next hempty => rw [hempty, hnil]
  · next hempty =>
    have htake : (Input.mk bytes .ends).take = ⟨.ok bytes, bytes.length, ⟨[], .ends⟩⟩ := by
      simp [Input.take, h, hempty]
    rw [lines_of_take htake, hnil]

-- A return before the newline is dropped, a line may be empty, and the last one is decoded as it is.
example : (scripted [49, 50, 13, 10, 10, 255]).lines = [['1', '2'], [], ['\uFFFD']] := by
  cbv

/-- An input that breaks delivers those lines of the one that ends that have a terminator. -/
theorem lines_breaks (bytes : List UInt8) : (faultless ⟨bytes, .breaks⟩).lines =
    (faultless ⟨bytes, .ends⟩).lines.take (bytes.count Text.newline) := by
  induction hlength : bytes.length using Nat.strongRecOn generalizing bytes with
  | ind n ih =>
    cases hcut : Text.cutLine? bytes with
    | none =>
      -- What has no terminator is lost.
      rw [Text.count_newline_of_cutLine?_eq_none hcut, List.take_zero]
      apply lines_of_error (e := inputBroken)
      rw [readLine_of_none rfl]
      simp [faultless, Input.take, hcut, Except.map]
    | some cut =>
      obtain ⟨line, rest⟩ := cut
      have hbytes := Text.eq_of_cutLine?_eq_some hcut
      rw [lines_of_cutLine? .breaks hcut, lines_of_cutLine? .ends hcut,
        Text.count_newline_of_cutLine? hcut, List.take_succ_cons,
        ih rest.length (by simp [← hlength, hbytes]; omega) rest rfl]

end Console

end ArrayHost
