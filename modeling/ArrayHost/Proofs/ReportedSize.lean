import Mathlib.Tactic.ByContra
import ArrayHost.Proofs.SessionParts
import ArrayHost.Proofs.Trace

/-!
# The size that is reported

The size of an array is answered as a signed word, but an index is checked against the number of
elements itself, and an addition is never refused for want of a word. `Indexes` and `Grows` say what
a size is for: it bounds the indices that are accepted, and it counts additions and finds the value
added last. An array does the first as long as its number of elements is the value of a word, and
both as long as that holds after an addition too (`size_governs_iff`). From there on the word wraps:
an array of 2 ^ 31 elements reports a negative size although all its elements can be read.
-/

namespace ArrayHost

namespace Heap

variable {t : Heap} {h i : Int32} {contents : Array Int32}

/-- An element of an array that exists can be read exactly when the index is not negative and below
the number of elements. -/
theorem exists_get_iff (ha : t.array h = .ok contents) :
    (∃ y, t.get h i = .ok y) ↔ 0 ≤ i.toInt ∧ i.toInt < contents.size := by
  simp only [get_eq_ok_iff, ha, Except.ok.injEq, exists_eq_left']
  rw [← Option.isSome_iff_exists, Option.isSome_iff_ne_none, ne_eq, at?_eq_none_iff]
  omega

/-- An array to which a value is added holds it at the end. -/
theorem array_push (ha : t.array h = .ok contents) (x : Int32) :
    (t.push h x).heap.array h = .ok (contents.push x) := by
  obtain ⟨h0, hc⟩ := at?_eq_some_iff.1 (array_eq_ok_iff.1 ha)
  rw [push_of_array ha, array_eq_ok_iff, at?_eq_some_iff, Array.getElem?_modify, if_pos rfl, hc]
  exact ⟨h0, rfl⟩

end Heap

namespace Session

/-- The word `n` is the size of array `h` to those that index it. -/
structure Indexes (s : Session) (h n : Int32) : Prop where
  /-- The word is reported as the size. -/
  size_eq : (s.call (.size h)).1 = .ok (some n)
  /-- It is not negative. -/
  nonneg : 0 ≤ n.toInt
  /-- An element can be read exactly when its index is below the size. -/
  get_iff : ∀ i, (s.call (.get h i)).1.isOk = true ↔ 0 ≤ i.toInt ∧ i.toInt < n.toInt
  /-- An element can be overwritten exactly when its index is below the size. -/
  set_iff : ∀ i x, (s.call (.set h i x)).1.isOk = true ↔ 0 ≤ i.toInt ∧ i.toInt < n.toInt

/-- The word `n` is the size of array `h` to those that add to it. -/
structure Grows (s : Session) (h n : Int32) : Prop where
  /-- An addition that succeeds makes the size greater by one, and the last element by the new size
  is the value added. -/
  add : ∀ x, (s.call (.add h x)).1.isOk = true → ∃ m,
    ((s.call (.add h x)).2.call (.size h)).1 = .ok (some m) ∧ m.toInt = n.toInt + 1 ∧
      ((s.call (.add h x)).2.call (.get h (m - 1))).1 = .ok (some x)

variable {s : Session} {h i x : Int32} {contents : Array Int32}

/-- The size of an array is its number of elements, reduced to a word. -/
theorem call_size_of_array (ha : s.heap.array h = .ok contents) :
    (s.call (.size h)).1 = .ok (some (Int32.ofNat contents.size)) :=
  congrArg Prod.fst (perform_size_of_array ha)

/-- A reading is answered exactly when the index is below the number of elements. -/
theorem call_get_isOk_iff (ha : s.heap.array h = .ok contents) :
    (s.call (.get h i)).1.isOk = true ↔ 0 ≤ i.toInt ∧ i.toInt < contents.size := by
  rw [← Heap.exists_get_iff ha]
  cases hg : s.heap.get h i with
  | ok y =>
    have hanswer : (s.call (.get h i)).1 = .ok (some y) :=
      congrArg Prod.fst (perform_get_of_get hg)
    simp [hanswer, Except.isOk, Except.toBool]
  | error e =>
    have hanswer : (s.call (.get h i)).1 = .error ⟨"get", .heap e⟩ :=
      congrArg Prod.fst (perform_get_of_error hg)
    simp [hanswer, Except.isOk, Except.toBool]

/-- An element is overwritten exactly when the index is below the number of elements. -/
theorem call_set_isOk_iff (ha : s.heap.array h = .ok contents) :
    (s.call (.set h i x)).1.isOk = true ↔ 0 ≤ i.toInt ∧ i.toInt < contents.size := by
  rw [← Heap.exists_get_iff ha]
  cases hg : s.heap.get h i with
  | ok y =>
    have hanswer : (s.call (.set h i x)).1 = .ok none :=
      congrArg Prod.fst (perform_set_of_get hg)
    simp [hanswer, Except.isOk, Except.toBool]
  | error e =>
    have hanswer : (s.call (.set h i x)).1 = .error ⟨"set", .heap e⟩ :=
      congrArg Prod.fst (perform_set_of_error hg)
    simp [hanswer, Except.isOk, Except.toBool]

/-- An addition to an array that exists is not refused, and leaves the value at the end. -/
theorem call_add_of_array (ha : s.heap.array h = .ok contents) :
    (s.call (.add h x)).1 = .ok (some 0) ∧
      (s.call (.add h x)).2.heap.array h = .ok (contents.push x) := by
  have hadd : s.call (.add h x) = _ := perform_add_of_array ha
  rw [hadd]
  refine ⟨rfl, ?_⟩
  have hpush := Heap.array_push ha x
  rwa [Heap.push_of_array ha] at hpush

/-- The size bounds the indices as long as the number of elements is the value of a word. -/
theorem exists_indexes_iff (ha : s.heap.array h = .ok contents) :
    (∃ n, s.Indexes h n) ↔ contents.size < 2147483648 := by
  constructor
  · rintro ⟨n, hn⟩
    -- Otherwise the greatest index is below the number of elements, but not below any word.
    by_contra hlong
    have hget := (call_get_isOk_iff (i := Int32.maxValue) ha).2
      ⟨by decide, by rw [Int32.toInt_maxValue]; omega⟩
    have hmax := ((hn.get_iff Int32.maxValue).1 hget).2
    have hn31 := n.toInt_lt
    rw [Int32.toInt_maxValue] at hmax
    omega
  · intro hshort
    have hn : (Int32.ofNat contents.size).toInt = contents.size := Int32.toInt_ofNat_of_lt hshort
    refine ⟨Int32.ofNat contents.size, call_size_of_array ha, by omega, fun i => ?_, fun i x => ?_⟩
    · rw [hn, call_get_isOk_iff ha]
    · rw [hn, call_set_isOk_iff ha]

/-- An array grows by additions if the number of elements is still the value of a word after one. -/
theorem grows_of_lt (ha : s.heap.array h = .ok contents) (hshort : contents.size + 1 < 2147483648) :
    s.Grows h (Int32.ofNat contents.size) := by
  refine ⟨fun x _ => ?_⟩
  obtain ⟨-, hafter⟩ := call_add_of_array (x := x) ha
  have hn : (Int32.ofNat contents.size).toInt = contents.size :=
    Int32.toInt_ofNat_of_lt (by omega)
  have hm : (Int32.ofNat (contents.size + 1)).toInt = (contents.size + 1 : ℕ) :=
    Int32.toInt_ofNat_of_lt hshort
  have hlast : Int32.ofNat (contents.size + 1) - 1 = Int32.ofNat contents.size := by
    simp [Int32.ofNat_add]
  refine ⟨Int32.ofNat (contents.size + 1), ?_, by omega, ?_⟩
  · rw [call_size_of_array hafter, Array.size_push]
  · have hget : (s.call (.add h x)).2.heap.get h (Int32.ofNat contents.size) = .ok x := by
      rw [Heap.get_eq_ok_iff]
      refine ⟨_, hafter, ?_⟩
      rw [Heap.at?_of_toInt_eq _ hn, Array.getElem?_push_size]
    rw [hlast]
    exact congrArg Prod.fst (perform_get_of_get hget)

/-- An array that fills the range of a word does not grow by an addition. -/
theorem not_grows_of_full (ha : s.heap.array h = .ok contents)
    (hfull : contents.size + 1 = 2147483648) : ¬ s.Grows h (Int32.ofNat contents.size) := by
  intro hgrows
  obtain ⟨hadd, hafter⟩ := call_add_of_array (x := 0) ha
  obtain ⟨m, hm, hone, -⟩ := hgrows.add 0 (by rw [hadd]; rfl)
  rw [call_size_of_array hafter, Array.size_push, hfull] at hm
  obtain rfl : Int32.ofNat 2147483648 = m := by simpa using hm
  have hn : (Int32.ofNat contents.size).toInt = contents.size :=
    Int32.toInt_ofNat_of_lt (by omega)
  -- The next word after the greatest is the least.
  have hwraps : (Int32.ofNat 2147483648).toInt = -2147483648 := by decide
  omega

/-- When a size governs. It bounds the indices that are accepted exactly as long as the number of
elements is the value of a word, and it counts additions besides exactly as long as this holds of
one element more. -/
theorem size_governs_iff (ha : s.heap.array h = .ok contents) :
    ((∃ n, s.Indexes h n) ↔ contents.size < 2147483648) ∧
      ((∃ n, s.Indexes h n ∧ s.Grows h n) ↔ contents.size + 1 < 2147483648) := by
  refine ⟨exists_indexes_iff ha, ?_, ?_⟩
  · rintro ⟨n, hindexes, hgrows⟩
    have hshort := (exists_indexes_iff ha).1 ⟨n, hindexes⟩
    -- Only the reported size can be the word.
    obtain rfl : Int32.ofNat contents.size = n := by
      simpa [call_size_of_array ha] using hindexes.size_eq
    by_contra hlong
    exact not_grows_of_full ha (by omega) hgrows
  · intro hshort
    obtain ⟨n, hindexes⟩ := (exists_indexes_iff ha).2 (by omega)
    obtain rfl : Int32.ofNat contents.size = n := by
      simpa [call_size_of_array ha] using hindexes.size_eq
    exact ⟨_, hindexes, grows_of_lt ha hshort⟩

/-- The first array of a run that makes `n` zeroes and adds a value to them has one element more. -/
theorem exists_array_new_add {n : Int32} (hn : 0 ≤ n.toInt) (x : Int32) : ∃ contents,
    ((start (.scripted [])).performAll [.call (.new n), .call (.add 0 x)]).heap.array 0 =
      .ok contents ∧ contents.size = n.toInt.toNat + 1 := by
  have hnew := perform_new_of_nonneg (s := start (.scripted [])) hn
  rw [performAll_cons, hnew]
  refine ⟨(Array.replicate n.toInt.toNat 0).push x, (call_add_of_array (x := x) ?_).2, ?_⟩
  · rw [Heap.array_eq_ok_iff, Heap.at?_of_toInt_eq (n := 0) _ rfl]
    rfl
  · rw [Array.size_push, Array.size_replicate]

/-- The size of three elements governs. -/
theorem size_governs_three :
    let s := (start (.scripted [])).performAll [.call (.new 2), .call (.add 0 9)]
    (∃ contents, s.heap.array 0 = .ok contents) ∧ ∃ n, s.Indexes 0 n ∧ s.Grows 0 n := by
  intro s
  obtain ⟨contents, ha, hsize⟩ := exists_array_new_add (n := 2) (by decide) 9
  exact ⟨⟨contents, ha⟩, (size_governs_iff ha).2.2 (by rw [hsize]; decide)⟩

/-- No size governs 2 ^ 31 elements. The one that is reported is negative, and yet the first element
and the last can be read. -/
theorem size_of_long_array_negative :
    let s := (start (.scripted [])).performAll [.call (.new 2147483647), .call (.add 0 7)]
    (s.call (.size 0)).1 = .ok (some (-2147483648)) ∧
      (s.call (.get 0 0)).1.isOk = true ∧ (s.call (.get 0 2147483647)).1.isOk = true ∧
      ∀ n, ¬ s.Indexes 0 n := by
  intro s
  obtain ⟨contents, ha, hsize⟩ := exists_array_new_add (n := 2147483647) (by decide) 7
  replace hsize : contents.size = 2147483648 := hsize
  refine ⟨?_, ?_, ?_, fun n hn => ?_⟩
  · rw [call_size_of_array ha, hsize]
    rfl
  · exact (call_get_isOk_iff ha).2 ⟨by decide, by rw [hsize]; decide⟩
  · exact (call_get_isOk_iff ha).2 ⟨by decide, by rw [hsize]; decide⟩
  · have hshort := (exists_indexes_iff ha).1 ⟨n, hn⟩
    omega

end Session

end ArrayHost
