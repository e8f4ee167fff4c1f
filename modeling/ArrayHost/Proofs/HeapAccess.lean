import Mathlib.Data.Int.Notation
import Mathlib.Data.Nat.Notation
import ArrayHost.Heap.Operation

/-!
# Access to a heap

When the operations on a heap are admitted, and what they leave. A word names an element of an array
of anything when it is not negative and below the length (`at?_eq_some_iff`); handles and indices
are both admitted by this one rule, the handle first. A change that is admitted acts on one place of
the table (`push_of_array`, `set_of_get`), and one that is refused leaves the table alone.
-/

namespace ArrayHost.Heap

/-- A word finds an element when it is not negative and the element at its value exists. -/
theorem at?_eq_some_iff {α : Type} {xs : Array α} {i : Int32} {x : α} :
    at? xs i = some x ↔ 0 ≤ i.toInt ∧ xs[i.toInt.toNat]? = some x := by
  unfold at?
  split
  · next h => exact ⟨fun hx => ⟨h, hx⟩, fun hx => hx.2⟩
  · next h => exact ⟨fun hx => by simp at hx, fun hx => absurd hx.1 h⟩

/-- A word finds nothing when it is negative or not below the length. -/
theorem at?_eq_none_iff {α : Type} {xs : Array α} {i : Int32} :
    at? xs i = none ↔ i.toInt < 0 ∨ (xs.size : ℤ) ≤ i.toInt := by
  unfold at?
  split
  · next h =>
    rw [Array.getElem?_eq_none_iff]
    omega
  · next h =>
    simp
    omega

/-- A place that a word of the same value names. -/
theorem at?_of_toInt_eq {α : Type} (xs : Array α) {i : Int32} {n : ℕ} (h : i.toInt = n) :
    at? xs i = xs[n]? := by
  unfold at?
  rw [h, if_pos (by omega), Int.toNat_natCast]

variable {t : Heap} {h i x : Int32}

/-- An array is found exactly when the handle finds it in the table. -/
theorem array_eq_ok_iff {contents : Array Int32} :
    t.array h = .ok contents ↔ at? t.arrays h = some contents := by
  unfold array
  split <;> simp_all

/-- An array is missed exactly when the handle finds nothing, and the error names the handle. -/
theorem array_eq_error_iff {e : Error} :
    t.array h = .error e ↔ at? t.arrays h = none ∧ e = .invalidHandle h := by
  unfold array
  split
  · next ha => simp [ha]
  · next ha => simp [ha, eq_comm]

/-- The slot of a handle that names an array is its value. -/
theorem slot_of_array {contents : Array Int32} (ha : t.array h = .ok contents) :
    t.slot h = .ok h.toInt.toNat := by
  simp [slot, ha, Except.map]

/-- A handle that names no array has no slot, for the same reason. -/
theorem slot_of_error {e : Error} (ha : t.array h = .error e) : t.slot h = .error e := by
  simp [slot, ha, Except.map]

/-- An element is read exactly when the handle finds an array and the index finds the element. -/
theorem get_eq_ok_iff : t.get h i = .ok x ↔
    ∃ contents, t.array h = .ok contents ∧ at? contents i = some x := by
  unfold get
  cases ha : t.array h with
  | error e => simp [bind, Except.bind]
  | ok contents =>
    simp only [bind, Except.bind, Except.ok.injEq, exists_eq_left']
    split <;> simp_all

/-- An element is missed because of the handle or, when that is valid, because of the index. -/
theorem get_eq_error_iff {e : Error} : t.get h i = .error e ↔
    t.array h = .error e ∨
      ∃ contents, t.array h = .ok contents ∧ at? contents i = none ∧ e = .indexOutOfBounds i := by
  unfold get
  cases t.array h with
  | error e' => simp [bind, Except.bind]
  | ok contents =>
    simp only [bind, Except.bind]
    split
    · next hi => simp [hi]
    · next hi => simp [hi, eq_comm]

/-- A value is added to an array that the handle names. -/
theorem push_of_array {contents : Array Int32} (ha : t.array h = .ok contents) :
    t.push h x = ⟨.ok (), ⟨t.arrays.modify h.toInt.toNat (·.push x)⟩, [.pushed h x]⟩ := by
  simp [push, slot_of_array ha]

/-- A value is not added when the handle names no array. -/
theorem push_of_error {e : Error} (ha : t.array h = .error e) :
    t.push h x = t.unchanged (.error e) := by
  simp [push, slot_of_error ha]

/-- An element that can be read is overwritten. -/
theorem set_of_get {y : Int32} (hg : t.get h i = .ok y) : t.set h i x =
    ⟨.ok (), ⟨t.arrays.modify h.toInt.toNat (·.setIfInBounds i.toInt.toNat x)⟩,
      [.overwritten h i x]⟩ := by
  simp [set, position, hg, Except.map]

/-- An element that cannot be read is not overwritten, for the same reason. -/
theorem set_of_error {e : Error} (hg : t.get h i = .error e) :
    t.set h i x = t.unchanged (.error e) := by
  simp [set, position, hg, Except.map]

/-- An array of a number of zeroes that is not negative is allocated. -/
theorem allocateZeroed_of_nonneg {n : Int32} (hn : 0 ≤ n.toInt) :
    t.allocateZeroed n = t.allocate (Array.replicate n.toInt.toNat 0) := by
  rw [allocateZeroed, if_neg (by omega), Array.pop_replicate, Nat.add_sub_cancel]

/-- An array of a negative number of zeroes is refused. -/
theorem allocateZeroed_of_neg {n : Int32} (hn : n.toInt < 0) :
    t.allocateZeroed n = t.unchanged (.error (.negativeSize n)) := by
  rw [allocateZeroed, if_pos hn]

end ArrayHost.Heap
