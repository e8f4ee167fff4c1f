import ArrayHost.Proofs.HeapTrace

/-!
# Operations on different arrays

The operations that do not add an array are each on the array of one handle. Such an operation is
framed by it: the answer depends on nothing but that array (`result_perform_congr`), and nothing but
that array is changed (`heap_perform`). What is refused is covered as well, because a change of an
array that does not exist is none.

Operations on different arrays therefore commute (`perform_comm`). One that is carried out before a
sequence of operations on other arrays may be carried out after it, and neither sees the other
(`answers_perform`, `performAll_perform`, `result_performAll`). From this, by induction on how two
sequences are interleaved, it does not matter how they are (`answers_interleaved`).
-/

namespace ArrayHost.Heap

/-- The handle of the array that an operation is on. One that adds an array is on none. -/
def Operation.handle? : Operation → Option Int32
  | .allocate _ | .allocateZeroed _ => none
  | .slot h | .position h _ | .array h | .length h | .push h _ | .get h _ | .set h _ _ => some h

/-- What an operation makes of the array that it is on. -/
def Operation.change : Operation → Array Int32 → Array Int32
  | .push _ x, contents => contents.push x
  | .set _ i x, contents => if 0 ≤ i.toInt then contents.setIfInBounds i.toInt.toNat x else contents
  | _, contents => contents

/-- The heap with the array of a handle changed. Without such an array it stays as it is. -/
def edit (t : Heap) (h : Int32) (f : Array Int32 → Array Int32) : Heap :=
  if 0 ≤ h.toInt then ⟨t.arrays.modify h.toInt.toNat f⟩ else t

variable {t u : Heap} {h k : Int32} {f g : Array Int32 → Array Int32} {op a b : Operation}

/-- An element that does not exist is not overwritten. -/
theorem Operation.change_set_of_none {i x : Int32} {contents : Array Int32}
    (hi : at? contents i = none) : change (.set h i x) contents = contents := by
  rcases at?_eq_none_iff.1 hi with hneg | hlarge
  · exact if_neg (Int.not_le.2 hneg)
  · rw [change, Array.setIfInBounds_eq_of_size_le (by omega), ite_self]

/-- A change that leaves the element at a place as it is, if there is one, leaves the array. -/
theorem modify_eq_self {α : Type} {xs : Array α} {i : ℕ} {f : α → α}
    (hf : ∀ x, xs[i]? = some x → f x = x) : xs.modify i f = xs := by
  refine Array.ext_getElem? fun j => ?_
  rw [Array.getElem?_modify]
  split
  · next hj =>
    subst hj
    cases hx : xs[i]? with
    | none => rfl
    | some x => exact congrArg some (hf x hx)
  · rfl

/-- A change that leaves the array of the handle as it is, if there is one, leaves the heap. -/
theorem edit_eq_self (hf : ∀ contents, t.array h = .ok contents → f contents = contents) :
    t.edit h f = t := by
  unfold edit
  split
  · next hh =>
    have hkeep (contents : Array Int32) (hc : t.arrays[h.toInt.toNat]? = some contents) :
        f contents = contents :=
      hf contents (array_eq_ok_iff.2 (at?_eq_some_iff.2 ⟨hh, hc⟩))
    rw [modify_eq_self hkeep]
  · rfl

/-- A change of an array that exists. -/
theorem edit_of_array {contents : Array Int32} (ha : t.array h = .ok contents) :
    t.edit h f = ⟨t.arrays.modify h.toInt.toNat f⟩ :=
  if_pos (at?_eq_some_iff.1 (array_eq_ok_iff.1 ha)).1

/-- Different handles that are not negative have different places. -/
theorem toNat_ne (hne : h ≠ k) (hh : 0 ≤ h.toInt) (hk : 0 ≤ k.toInt) :
    h.toInt.toNat ≠ k.toInt.toNat := by
  intro heq
  exact hne (Int32.toInt_inj.1 (by omega))

/-- A change at one handle is not seen at another. -/
theorem array_edit_of_ne (hne : h ≠ k) : (t.edit h f).array k = t.array k := by
  unfold edit
  split
  · next hh =>
    unfold array at?
    by_cases hk : 0 ≤ k.toInt
    · rw [if_pos hk, if_pos hk, Array.getElem?_modify, if_neg (toNat_ne hne hh hk)]
    · rw [if_neg hk, if_neg hk]
  · rfl

/-- Changes at different places of an array commute. -/
theorem modify_comm {α : Type} (xs : Array α) {i j : ℕ} (hne : i ≠ j) (f g : α → α) :
    (xs.modify i f).modify j g = (xs.modify j g).modify i f := by
  refine Array.ext_getElem? fun n => ?_
  simp only [Array.getElem?_modify]
  by_cases hi : i = n
  · have hj : ¬ j = n := fun hj => hne (hi.trans hj.symm)
    rw [if_pos hi, if_neg hj, if_neg hj, if_pos hi]
  · rw [if_neg hi, if_neg hi]

/-- Changes at different handles commute. -/
theorem edit_comm (hne : h ≠ k) : (t.edit h f).edit k g = (t.edit k g).edit h f := by
  unfold edit
  by_cases hh : 0 ≤ h.toInt
  · by_cases hk : 0 ≤ k.toInt
    · rw [if_pos hh, if_pos hk, if_pos hk, if_pos hh, modify_comm _ (toNat_ne hne hh hk)]
    · rw [if_neg hk, if_neg hk]
  · rw [if_neg hh, if_neg hh]

/-- An operation on an array changes nothing else. -/
theorem heap_perform (hop : op.handle? = some h) : (t.perform op).heap = t.edit h op.change := by
  cases op with
  | allocate | allocateZeroed => cases hop
  | push k x =>
    obtain rfl : k = h := Option.some.inj hop
    cases ha : t.array k with
    | error e =>
      rw [edit_eq_self (by simp [ha]), perform, push_of_error ha]
      rfl
    | ok contents =>
      rw [edit_of_array ha, perform, push_of_array ha]
      rfl
  | set k i x =>
    obtain rfl : k = h := Option.some.inj hop
    cases hg : t.get k i with
    | error e =>
      have hkeep (contents : Array Int32) (ha : t.array k = .ok contents) :
          Operation.change (.set k i x) contents = contents := by
        refine Operation.change_set_of_none ?_
        rcases get_eq_error_iff.1 hg with he | ⟨contents', ha', hi, -⟩
        · cases ha.symm.trans he
        · cases ha.symm.trans ha'
          exact hi
      rw [edit_eq_self hkeep, perform, set_of_error hg]
      rfl
    | ok y =>
      obtain ⟨contents, ha, hy⟩ := get_eq_ok_iff.1 hg
      have hchange : Operation.change (.set k i x) = (·.setIfInBounds i.toInt.toNat x) :=
        funext fun _ => if_pos (at?_eq_some_iff.1 hy).1
      rw [edit_of_array ha, perform, set_of_get hg, hchange]
      rfl
  | slot | position | array | length | get => exact (edit_eq_self fun _ _ => rfl).symm

/-- The answer of an operation on an array depends on nothing else. -/
theorem result_perform_congr (hop : op.handle? = some h) (harray : t.array h = u.array h) :
    (t.perform op).result = (u.perform op).result := by
  have hget (i : Int32) : t.get h i = u.get h i := by
    unfold get
    rw [harray]
  cases op with
  | allocate | allocateZeroed => cases hop
  | push k x =>
    obtain rfl : k = h := Option.some.inj hop
    cases ha : u.array k with
    | error e =>
      rw [perform, perform, push_of_error ha, push_of_error (harray.trans ha)]
      rfl
    | ok contents =>
      rw [perform, perform, push_of_array ha, push_of_array (harray.trans ha)]
      rfl
  | set k i x =>
    obtain rfl : k = h := Option.some.inj hop
    cases hg : u.get k i with
    | error e =>
      rw [perform, perform, set_of_error hg, set_of_error ((hget i).trans hg)]
      rfl
    | ok y =>
      rw [perform, perform, set_of_get hg, set_of_get ((hget i).trans hg)]
      rfl
  | slot | position | array | length | get =>
    obtain rfl := Option.some.inj hop
    simp only [perform, unchanged, slot, position, length, harray, hget]

/-- The operations are on arrays, and on different ones. -/
def Operation.Apart (a b : Operation) : Prop :=
  ∃ h k, a.handle? = some h ∧ b.handle? = some k ∧ h ≠ k

/-- Operations on arrays are on different ones when their handles differ. -/
theorem Operation.Apart.of_handle?_ne (ha : a.handle? ≠ none) (hb : b.handle? ≠ none)
    (hne : a.handle? ≠ b.handle?) : a.Apart b := by
  obtain ⟨h, hh⟩ := Option.ne_none_iff_exists'.1 ha
  obtain ⟨k, hk⟩ := Option.ne_none_iff_exists'.1 hb
  exact ⟨h, k, hh, hk, fun heq => hne (by rw [hh, hk, heq])⟩

theorem Operation.Apart.symm (hapart : a.Apart b) : b.Apart a := by
  obtain ⟨h, k, ha, hb, hne⟩ := hapart
  exact ⟨k, h, hb, ha, hne.symm⟩

/-- An operation answers the same after one on another array. -/
theorem result_perform_perform (hapart : a.Apart b) :
    ((t.perform a).heap.perform b).result = (t.perform b).result := by
  obtain ⟨h, k, ha, hb, hne⟩ := hapart
  rw [heap_perform ha]
  exact result_perform_congr hb (array_edit_of_ne hne)

/-- Operations on different arrays commute. -/
theorem perform_comm (hapart : a.Apart b) :
    ((t.perform a).heap.perform b).heap = ((t.perform b).heap.perform a).heap := by
  obtain ⟨h, k, ha, hb, hne⟩ := hapart
  rw [heap_perform ha, heap_perform hb, heap_perform hb, heap_perform ha]
  exact edit_comm hne

/-- The answers to a sequence of operations, in order. -/
def answers (t : Heap) (ops : List Operation) : List (Except Error Answer) :=
  (t.trace ops).map Step.answer

theorem answers_cons (t : Heap) (op : Operation) (ops : List Operation) :
    t.answers (op :: ops) = (t.perform op).result :: (t.perform op).heap.answers ops := rfl

variable {as bs ops : List Operation}

/-- Operations on other arrays answer the same after an operation as before it. -/
theorem answers_perform (hapart : ∀ a ∈ as, a.Apart b) :
    (t.perform b).heap.answers as = t.answers as := by
  induction as generalizing t with
  | nil => rfl
  | cons a as ih =>
    obtain ⟨ha, hrest⟩ := List.forall_mem_cons.1 hapart
    rw [answers_cons, answers_cons, result_perform_perform ha.symm, ← perform_comm ha, ih hrest]

/-- An operation leaves the same before a sequence of operations on other arrays as after it. -/
theorem performAll_perform (hapart : ∀ a ∈ as, a.Apart b) :
    (t.perform b).heap.performAll as = ((t.performAll as).perform b).heap := by
  induction as generalizing t with
  | nil => rfl
  | cons a as ih =>
    obtain ⟨ha, hrest⟩ := List.forall_mem_cons.1 hapart
    rw [performAll_cons, performAll_cons, ← perform_comm ha, ih hrest]

/-- An operation answers the same before a sequence of operations on other arrays as after it. -/
theorem result_performAll (hapart : ∀ a ∈ as, a.Apart b) :
    ((t.performAll as).perform b).result = (t.perform b).result := by
  induction as generalizing t with
  | nil => rfl
  | cons a as ih =>
    obtain ⟨ha, hrest⟩ := List.forall_mem_cons.1 hapart
    rw [performAll_cons, ih hrest, result_perform_perform ha]

/-- Which of two lists the next element is from. -/
inductive Turn where
  /-- The first list. -/
  | first
  /-- The second list. -/
  | second

/-- The last list is made of the elements of the two before it, each of which keeps its order, and
the turns say which of them each element is from. -/
inductive Interleaves {α : Type} : List Turn → List α → List α → List α → Prop where
  /-- Nothing is left. -/
  | nil : Interleaves [] [] [] []
  /-- The first list has its turn. -/
  | first {turns : List Turn} {as bs cs : List α} (a : α) (h : Interleaves turns as bs cs) :
    Interleaves (.first :: turns) (a :: as) bs (a :: cs)
  /-- The second list has its turn. -/
  | second {turns : List Turn} {as bs cs : List α} (b : α) (h : Interleaves turns as bs cs) :
    Interleaves (.second :: turns) as (b :: bs) (b :: cs)

/-- Two sequences of operations of which none adds an array and none of the one is on a handle that
the other uses. Interleaved in any way they give every operation the answer that it has, and leave
the heap that is left, when the first sequence is carried out before the second. -/
theorem answers_interleaved (t : Heap) {turns : List Turn} (hops : Interleaves turns as bs ops)
    (has : ∀ a ∈ as, a.handle? ≠ none) (hbs : ∀ b ∈ bs, b.handle? ≠ none)
    (hhandles : ∀ a ∈ as, ∀ b ∈ bs, a.handle? ≠ b.handle?) :
    Interleaves turns (t.answers as) ((t.performAll as).answers bs) (t.answers ops) ∧
      t.performAll ops = (t.performAll as).performAll bs := by
  have hapart (a : Operation) (ha : a ∈ as) (b : Operation) (hb : b ∈ bs) : a.Apart b :=
    .of_handle?_ne (has a ha) (hbs b hb) (hhandles a ha b hb)
  clear has hbs hhandles
  induction hops generalizing t with
  | nil => exact ⟨.nil, rfl⟩
  | first a h ih =>
    obtain ⟨hanswers, hheap⟩ := ih (t.perform a).heap fun a' ha' => hapart a' (.tail _ ha')
    exact ⟨.first _ hanswers, hheap⟩
  | @second turns as bs ops b h ih =>
    -- The operation that is carried out first here has all of the first sequence before it there.
    have hb (a : Operation) (ha : a ∈ as) : a.Apart b := hapart a ha b (.head _)
    obtain ⟨hanswers, hheap⟩ :=
      ih (t.perform b).heap fun a ha b' hb' => hapart a ha b' (.tail _ hb')
    rw [answers_perform hb, performAll_perform hb] at hanswers
    rw [performAll_perform hb] at hheap
    refine ⟨?_, hheap⟩
    rw [answers_cons, answers_cons, result_performAll hb]
    exact .second _ hanswers

/-- Arrays that grow and are overwritten in turns. An index is admitted only after its own array
has grown, and a handle that names no array counts as another one. -/
theorem answers_interleaved_growing :
    let t : Heap := ⟨#[#[1], #[2, 3]]⟩
    let as : List Operation := [.get 0 1, .push 0 5, .get 0 1]
    let bs : List Operation := [.set 1 2 6, .push 1 6, .length (-1)]
    let ops : List Operation := [.get 0 1, .set 1 2 6, .push 1 6, .push 0 5, .length (-1), .get 0 1]
    let turns : List Turn := [.first, .second, .second, .first, .second, .first]
    Interleaves turns as bs ops ∧
      (t.answers as = [.error (.indexOutOfBounds 1), .ok .done, .ok (.word 5)] ∧
        (t.performAll as).answers bs =
          [.error (.indexOutOfBounds 2), .ok .done, .error (.invalidHandle (-1))]) ∧
      Interleaves turns (t.answers as) ((t.performAll as).answers bs) (t.answers ops) ∧
      t.performAll ops = (t.performAll as).performAll bs ∧
      t.performAll ops = ⟨#[#[1, 5], #[2, 3, 6]]⟩ := by
  intro t as bs ops turns
  have hops : Interleaves turns as bs ops :=
    .first _ (.second _ (.second _ (.first _ (.second _ (.first _ .nil)))))
  obtain ⟨hanswers, hheap⟩ := answers_interleaved t hops (by decide) (by decide) (by decide)
  exact ⟨hops, ⟨rfl, rfl⟩, hanswers, hheap, by decide +kernel⟩

end ArrayHost.Heap
