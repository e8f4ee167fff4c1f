import ArrayHost.Proofs.HeapAccess

/-!
# Sequences of heap operations

A heap that is used on its own goes through a sequence of operations, of which some may be refused.
`Heap.trace` lists its steps, each with the heap that it starts on. `Step.acts` says all that a step
can do: it adds an array, it adds a value to an array or overwrites one there, or it leaves the heap
alone and journals nothing.
-/

namespace ArrayHost.Heap

/-- The operation is one that is there to change the heap. -/
def Operation.changes : Operation → Bool
  | .allocate _ | .allocateZeroed _ | .push _ _ | .set _ _ _ => true
  | _ => false

/-- The array that the operation asks for. An array of a negative size is none. -/
def Operation.requested? : Operation → Option (Array Int32)
  | .allocate contents => some contents
  | .allocateZeroed n => if 0 ≤ n.toInt then some (Array.replicate n.toInt.toNat 0) else none
  | _ => none

/-- An operation that asks for an array is there to change the heap. -/
theorem Operation.changes_of_requested? {op : Operation} {contents : Array Int32}
    (h : op.requested? = some contents) : op.changes = true := by
  cases op with
  | allocate | allocateZeroed => rfl
  | _ => cases h

/-- What is asked for by size is an array of zeroes. -/
theorem Operation.requested?_allocateZeroed {n : Int32} {contents : Array Int32} :
    requested? (.allocateZeroed n) = some contents ↔
      0 ≤ n.toInt ∧ Array.replicate n.toInt.toNat 0 = contents := by
  simp [requested?]

/-- An operation and the heap that it is carried out on. -/
structure Step where
  /-- The heap before the operation. -/
  before : Heap
  /-- The operation. -/
  operation : Operation

namespace Step

/-- What the operation leaves. -/
def outcome (st : Step) : Outcome Answer := st.before.perform st.operation

/-- The answer of the operation. -/
def answer (st : Step) : Except Error Answer := st.outcome.result

/-- The heap after the operation. -/
def after (st : Step) : Heap := st.outcome.heap

/-- The entries that the operation journals. -/
def journal (st : Step) : List Entry := st.outcome.journal

/-- What a step does, with its answer and what it journals. -/
inductive Acts (st : Step) : Prop where
  /-- It adds the array that is asked for, under the number of arrays so far. -/
  | allocate (contents : Array Int32) (hop : st.operation.requested? = some contents)
    (houtcome : st.outcome = ⟨.ok (.word (Int32.ofNat st.before.size)),
      ⟨st.before.arrays.push contents⟩, [.allocated (Int32.ofNat st.before.size) contents.size]⟩)
  /-- It adds a value to an array that exists. -/
  | push (h x : Int32) (contents : Array Int32) (hop : st.operation = .push h x)
    (hcontents : at? st.before.arrays h = some contents)
    (houtcome : st.outcome = ⟨.ok .done,
      ⟨st.before.arrays.modify h.toInt.toNat (·.push x)⟩, [.pushed h x]⟩)
  /-- It overwrites an element that exists. -/
  | set (h i x old : Int32) (contents : Array Int32) (hop : st.operation = .set h i x)
    (hcontents : at? st.before.arrays h = some contents) (hold : at? contents i = some old)
    (houtcome : st.outcome = ⟨.ok .done,
      ⟨st.before.arrays.modify h.toInt.toNat (·.setIfInBounds i.toInt.toNat x)⟩,
      [.overwritten h i x]⟩)
  /-- It is refused or only looks. The heap stays as it is, and nothing is journaled. -/
  | keep (result : Except Error Answer) (houtcome : st.outcome = st.before.unchanged result)
    (hfails : st.operation.changes = true → ∃ e, result = .error e)

/-- All that a step can do. -/
theorem acts (st : Step) : st.Acts := by
  obtain ⟨t, op⟩ := st
  cases op with
  | allocate contents => exact .allocate contents rfl rfl
  | allocateZeroed n =>
    by_cases hn : 0 ≤ n.toInt
    · refine .allocate (Array.replicate n.toInt.toNat 0) (if_pos hn) ?_
      simp only [outcome, perform, allocateZeroed_of_nonneg hn]
      rfl
    · refine .keep (.error (.negativeSize n)) ?_ fun _ => ⟨_, rfl⟩
      simp only [outcome, perform, allocateZeroed_of_neg (t := t) (Int.not_le.1 hn)]
      rfl
  | push h x =>
    cases ha : t.array h with
    | error e =>
      refine .keep (.error e) ?_ fun _ => ⟨e, rfl⟩
      simp only [outcome, perform, push_of_error ha]
      rfl
    | ok contents =>
      refine .push h x contents rfl (array_eq_ok_iff.1 ha) ?_
      simp only [outcome, perform, push_of_array ha]
      rfl
  | set h i x =>
    cases hg : t.get h i with
    | error e =>
      refine .keep (.error e) ?_ fun _ => ⟨e, rfl⟩
      simp only [outcome, perform, set_of_error hg]
      rfl
    | ok old =>
      obtain ⟨contents, ha, hold⟩ := get_eq_ok_iff.1 hg
      refine .set h i x old contents rfl (array_eq_ok_iff.1 ha) hold ?_
      simp only [outcome, perform, set_of_get hg]
      rfl
  -- The operations that only look are left.
  | slot | position | array | length | get => exact .keep _ rfl fun hchanges => by cases hchanges

/-- No step removes an array. -/
theorem size_le_after (st : Step) : st.before.size ≤ st.after.size := by
  rw [after]
  cases st.acts with
  | allocate contents _ houtcome =>
    rw [houtcome, size, size, Array.size_push]
    exact Nat.le_succ _
  | push h x contents _ _ houtcome | set h i x old contents _ _ _ houtcome =>
    have hsize : st.outcome.heap.size = st.before.size := by
      rw [houtcome, size, size, Array.size_modify]
    exact Nat.le_of_eq hsize.symm
  | keep result houtcome =>
    rw [houtcome]
    exact Nat.le_refl _

end Step

/-- The heap after a sequence of operations, of which some may have been refused. -/
def performAll (t : Heap) (ops : List Operation) : Heap :=
  ops.foldl (fun t op => (t.perform op).heap) t

/-- The steps of a sequence of operations. -/
def trace (t : Heap) : List Operation → List Step
  | [] => []
  | op :: ops => ⟨t, op⟩ :: trace (t.perform op).heap ops

@[simp]
theorem performAll_nil (t : Heap) : t.performAll [] = t := rfl

@[simp]
theorem performAll_cons (t : Heap) (op : Operation) (ops : List Operation) :
    t.performAll (op :: ops) = (t.perform op).heap.performAll ops := rfl

/-- No sequence of operations removes an array. -/
theorem size_le_performAll (t : Heap) (ops : List Operation) :
    t.size ≤ (t.performAll ops).size := by
  induction ops generalizing t with
  | nil => exact Nat.le_refl _
  | cons op ops ih => exact Nat.le_trans (Step.size_le_after ⟨t, op⟩) (ih _)

end ArrayHost.Heap
