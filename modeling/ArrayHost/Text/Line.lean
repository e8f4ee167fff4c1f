import ArrayHost.Text.Utf8

/-!
# Lines

The first line of a run of bytes. A line ends with its newline byte; a carriage return right before
the newline belongs to the terminator. What follows the last newline is a line without a terminator,
which keeps every byte.
-/

namespace ArrayHost.Text

/-- The byte that ends a line. -/
def newline : UInt8 := 10

/-- The byte that may stand before the one that ends a line. -/
def carriageReturn : UInt8 := 13

/-- Cuts the bytes at their first newline: those before it and those after it. There is no cut when
no byte is a newline. -/
def cutLine? (bytes : List UInt8) : Option (List UInt8 × List UInt8) :=
  match bytes.dropWhile (· != newline) with
  | [] => none
  | _ :: rest => some (bytes.takeWhile (· != newline), rest)

/-- A cut loses the newline alone. -/
theorem eq_of_cutLine?_eq_some {bytes line rest : List UInt8}
    (h : cutLine? bytes = some (line, rest)) : bytes = line ++ newline :: rest := by
  unfold cutLine? at h
  split at h
  · contradiction
  · next b tail hdrop =>
    obtain ⟨rfl, rfl⟩ := by simpa using h
    have hb : b = newline := by
      have := List.head_dropWhile_not (p := (· != newline)) (l := bytes) (by simp [hdrop])
      simpa [hdrop] using this
    subst hb
    rw [← hdrop, List.takeWhile_append_dropWhile]

/-- The bytes of a line before its newline, without one carriage return at their end. -/
def dropReturn (line : List UInt8) : List UInt8 :=
  if line.getLast? = some carriageReturn then line.dropLast else line

end ArrayHost.Text
