import Mathlib.Data.List.Induction
import Mathlib.Logic.Basic
import ArrayHost.Proofs.Trace
import ArrayHost.Proofs.SessionParts

/-!
# The heap as the record of a run

What a sequence of operations leaves in the heap is read off its trace. `Step.allocated?`,
`Step.added?` and `Step.assigned?` say what a step that succeeded contributes: a new array with its
initial contents, a value at the end of an array, a value in a cell. `Step.acts` says that this is
all a step does to the heap, `Accounts` ties the table to the contributions of the trace so far, and
`accounts_trace` keeps it from step to step. The law of the whole run, `heap_law`, follows.
-/

namespace ArrayHost.Session

namespace Step

/-- The initial contents of the array that a step allocates: zeroes, the code points of the line
that is read, or what is given. A step that allocates nothing has none. -/
def allocated? (st : Step) : Option (Array Int32) :=
  match st.answer, st.operation with
  | .ok _, .call (.new n) => some (Array.replicate n.toInt.toNat 0)
  | .ok _, .call .reads =>
    st.before.readLine.1.toOption.map fun line => (line.map Text.codePoint).toArray
  | .ok _, .allocate contents => some contents
  | _, _ => none

/-- A step succeeds in allocating an array. -/
def allocates (st : Step) : Bool :=
  match st.answer, st.operation with
  | .ok _, .call (.new _) | .ok _, .call .reads | .ok _, .allocate _ => true
  | _, _ => false

/-- The value that a step adds at the end of array number `j`. -/
def added? (j : ℕ) (st : Step) : Option Int32 :=
  match st.answer, st.operation with
  | .ok _, .call (.add h x) => if h.toInt = j then some x else none
  | _, _ => none

/-- The value that a step puts into cell `i` of array number `j`. -/
def assigned? (j i : ℕ) (st : Step) : Option Int32 :=
  match st.answer, st.operation with
  | .ok _, .call (.set h k x) => if h.toInt = j ∧ k.toInt = i then some x else none
  | _, _ => none

/-- What a step does to the heap, with what it contributes. -/
inductive Acts (st : Step) : Prop where
  /-- It allocates an array and answers its number. -/
  | allocate (contents : Array Int32) (hallocated : st.allocated? = some contents)
    (hadded : ∀ j, st.added? j = none) (hassigned : ∀ j i, st.assigned? j i = none)
    (hanswer : st.answer = .ok (some (Int32.ofNat st.before.heap.size)))
    (hafter : st.after.heap.arrays = st.before.heap.arrays.push contents)
  /-- It adds a value to an array that exists. -/
  | add (j : ℕ) (x : Int32) (hallocated : st.allocated? = none)
    (hadded : ∀ k, st.added? k = if j = k then some x else none)
    (hassigned : ∀ k i, st.assigned? k i = none) (hj : j < st.before.heap.size)
    (hafter : st.after.heap.arrays = st.before.heap.arrays.modify j (·.push x))
  /-- It overwrites a cell that exists. -/
  | assign (j i : ℕ) (x : Int32) (old : Array Int32) (hallocated : st.allocated? = none)
    (hadded : ∀ k, st.added? k = none)
    (hassigned : ∀ k m, st.assigned? k m = if j = k ∧ i = m then some x else none)
    (hold : st.before.heap.arrays[j]? = some old) (hi : i < old.size)
    (hafter : st.after.heap.arrays = st.before.heap.arrays.modify j (·.setIfInBounds i x))
  /-- It leaves the heap alone. -/
  | keep (hallocated : st.allocated? = none) (hadded : ∀ j, st.added? j = none)
    (hassigned : ∀ j i, st.assigned? j i = none) (hafter : st.after.heap = st.before.heap)

/-- A step that fails contributes nothing. -/
theorem contributes_of_error {st : Step} {e : Fatal} (h : st.answer = .error e) :
    st.allocated? = none ∧ (∀ j, st.added? j = none) ∧ ∀ j i, st.assigned? j i = none := by
  simp [allocated?, added?, assigned?, h]

/-- An operation that cannot change the heap contributes nothing. -/
theorem contributes_of_not_changesHeap {st : Step} (h : st.operation.changesHeap = false) :
    st.allocated? = none ∧ (∀ j, st.added? j = none) ∧ ∀ j i, st.assigned? j i = none := by
  unfold allocated? added? assigned?
  refine ⟨?_, fun j => ?_, fun j i => ?_⟩ <;> split <;> simp_all [Operation.changesHeap, Call.changesHeap]

/-- An allocation acts by its contents. -/
theorem acts_of_withArray {st : Step} {s : Session} {contents : Array Int32}
    (hs : s.heap = st.before.heap)
    (h : st.before.perform st.operation =
      (.ok (some (Int32.ofNat st.before.heap.size)), s.withArray contents))
    (hallocated : st.allocated? = some contents) (hadded : ∀ j, st.added? j = none)
    (hassigned : ∀ j i, st.assigned? j i = none) : st.Acts := by
  refine .allocate contents hallocated hadded hassigned ?_ ?_
  · rw [answer, h]
  · rw [after, h, ← hs]
    rfl

/-- A refused operation contributes nothing and leaves the heap alone. -/
theorem acts_of_refused {s t : Session} {op : Operation} {e : Fatal}
    (h : s.perform op = (.error e, t)) (ht : t.heap = s.heap) : Acts ⟨s, op⟩ := by
  have he : Step.answer ⟨s, op⟩ = .error e := by simp [answer, h]
  obtain ⟨h1, h2, h3⟩ := contributes_of_error he
  exact .keep h1 h2 h3 (by simp [after, h, ht])

/-- `add` adds a value to the array that the handle names, or is refused. -/
theorem acts_add (s : Session) (h x : Int32) : Acts ⟨s, .call (.add h x)⟩ := by
  cases ha : s.heap.array h with
  | error e => exact acts_of_refused (perform_add_of_error ha) rfl
  | ok contents =>
    have hp := perform_add_of_array (x := x) ha
    obtain ⟨h0, hc⟩ := Heap.at?_eq_some_iff.1 (Heap.array_eq_ok_iff.1 ha)
    obtain ⟨hlt, -⟩ := Array.getElem?_eq_some_iff.1 hc
    -- The number of the array is the value of the handle, which is not negative.
    refine .add h.toInt.toNat x (by simp [allocated?]) (fun k => ?_) (by simp [assigned?]) hlt
      (by simp [after, hp])
    simp only [added?, answer, hp]
    exact if_congr (by omega) rfl rfl

/-- `set` overwrites the cell that the handle and the index name, or is refused. -/
theorem acts_set (s : Session) (h i x : Int32) : Acts ⟨s, .call (.set h i x)⟩ := by
  cases hg : s.heap.get h i with
  | error e => exact acts_of_refused (perform_set_of_error hg) rfl
  | ok y =>
    have hp := perform_set_of_get (x := x) hg
    obtain ⟨contents, ha, hi⟩ := Heap.get_eq_ok_iff.1 hg
    obtain ⟨h0, hc⟩ := Heap.at?_eq_some_iff.1 (Heap.array_eq_ok_iff.1 ha)
    obtain ⟨i0, hy⟩ := Heap.at?_eq_some_iff.1 hi
    obtain ⟨hlt, -⟩ := Array.getElem?_eq_some_iff.1 hy
    -- Neither the handle nor the index is negative.
    refine .assign h.toInt.toNat i.toInt.toNat x contents (by simp [allocated?])
      (by simp [added?]) (fun k m => ?_) hc hlt (by simp [after, hp])
    simp only [assigned?, answer, hp]
    exact if_congr (by omega) rfl rfl

/-- Every step acts on the heap by what it contributes, or leaves it alone. -/
theorem acts (st : Step) : st.Acts := by
  obtain ⟨s, op⟩ := st
  by_cases hop : op.changesHeap = false
  · obtain ⟨h1, h2, h3⟩ := @contributes_of_not_changesHeap ⟨s, op⟩ hop
    exact .keep h1 h2 h3 (s.heap_perform_of_not_changesHeap hop)
  -- The operations that may change the heap are left: three that allocate, `add` and `set`.
  cases op with
  | finish => simp [Operation.changesHeap] at hop
  | allocate contents =>
    have h := perform_allocate (s := s) contents
    exact acts_of_withArray (s := s) rfl h (by simp [allocated?, answer, h])
      (by simp [added?]) (by simp [assigned?])
  | call c =>
    cases c with
    | printi | printc | prints | println | readi | size | get =>
      simp [Operation.changesHeap, Call.changesHeap] at hop
    | new n =>
      by_cases hn : n.toInt < 0
      · exact acts_of_refused (perform_new_of_neg hn) rfl
      · have h := perform_new_of_nonneg (s := s) (Int.not_lt.1 hn)
        exact acts_of_withArray (s := s) rfl h (by simp [allocated?, answer, h])
          (by simp [added?]) (by simp [assigned?])
    | reads =>
      cases hl : s.readLine.1 with
      | error kind => exact acts_of_refused (perform_reads_of_error hl) rfl
      | ok line =>
        have h := perform_reads_of_line hl
        exact acts_of_withArray (s := s.readLine.2) rfl h
          (by simp [allocated?, answer, h, hl, Except.toOption]) (by simp [added?])
          (by simp [assigned?])
    | add h x => exact acts_add s h x
    | set h i x => exact acts_set s h i x

/-- A step that fails leaves the heap alone. -/
theorem heap_after_of_error {st : Step} {e : Fatal} (h : st.answer = .error e) :
    st.after.heap = st.before.heap := by
  obtain ⟨h1, h2, h3⟩ := contributes_of_error h
  cases st.acts with
  | keep _ _ _ hafter => exact hafter
  | allocate contents hallocated => simp [hallocated] at h1
  | add j x _ hadded => simpa [hadded] using h2 j
  | assign j i x old _ _ hassigned => simpa [hassigned] using h3 j i

/-- A step succeeds in allocating exactly when it has initial contents. -/
theorem allocates_eq (st : Step) : st.allocates = st.allocated?.isSome := by
  obtain ⟨s, op⟩ := st
  unfold allocates allocated?
  split
  · rfl
  · next value hanswer hop =>
    subst hop
    cases hl : s.readLine.1 with
    | error kind => simp [answer, perform_reads_of_error hl] at hanswer
    | ok line => simp [Except.toOption]
  · rfl
  · rfl

/-- An allocation answers the number of the arrays before it. -/
theorem answer_of_allocates {st : Step} (h : st.allocates = true) :
    st.answer = .ok (some (Int32.ofNat st.before.heap.size)) := by
  rw [allocates_eq] at h
  cases st.acts with
  | allocate contents hallocated hadded hassigned hanswer hafter => exact hanswer
  | keep hallocated | add _ _ hallocated | assign _ _ _ _ hallocated => simp [hallocated] at h

end Step

/-- The initial contents of the arrays that are allocated in a trace, in order. -/
def allocations (t : List Step) : List (Array Int32) := t.filterMap Step.allocated?

/-- The values added to array number `j` in a trace, in order. -/
def additions (t : List Step) (j : ℕ) : List Int32 := t.filterMap (Step.added? j)

/-- The values put into cell `i` of array number `j` in a trace, in order. -/
def assignments (t : List Step) (j i : ℕ) : List Int32 := t.filterMap (Step.assigned? j i)

/-- The value of a cell of an array that started with `initial`: the value put there last or, if
there is none, the one that the cell was made with. -/
def cell? (initial : Array Int32) (added : List Int32) (assigned : ℕ → List Int32) (i : ℕ) :
    Option Int32 :=
  (initial.toList ++ added)[i]?.map fun x => (assigned i).getLast?.getD x

/-- An array whose cells are those of its contributions has as many. -/
theorem size_of_cells {contents initial : Array Int32} {added : List Int32}
    {assigned : ℕ → List Int32} (h : ∀ i, contents[i]? = cell? initial added assigned i) :
    contents.size = initial.size + added.length := by
  -- The places without a cell are the same for both.
  have hnone (i : ℕ) : contents.size ≤ i ↔ initial.size + added.length ≤ i := by
    rw [← Array.getElem?_eq_none_iff, h, cell?, Option.map_eq_none_iff, List.getElem?_eq_none_iff]
    simp
  exact Nat.le_antisymm ((hnone _).2 (Nat.le_refl _)) ((hnone _).1 (Nat.le_refl _))

/-- The table holds the arrays with the given initial contents, additions and assignments, and there
are no additions to arrays and no assignments to cells that do not exist. -/
structure Accounts (initials : List (Array Int32)) (added : ℕ → List Int32)
    (assigned : ℕ → ℕ → List Int32) (arrays : Array (Array Int32)) : Prop where
  /-- There is an array for each allocation. -/
  size : arrays.size = initials.length
  /-- Each array has the cells that the contributions give it. -/
  cells : ∀ j initial contents, initials[j]? = some initial → arrays[j]? = some contents →
    ∀ i, contents[i]? = cell? initial (added j) (assigned j) i
  /-- Values are added to arrays that exist. -/
  added_eq_nil : ∀ j, arrays.size ≤ j → added j = []
  /-- Values are put into cells that exist. -/
  assigned_eq_nil : ∀ j i, (arrays[j]?.bind fun contents => contents[i]?) = none →
    assigned j i = []

/-- Nothing is accounted for in an empty table. -/
theorem accounts_empty : Accounts [] (fun _ => []) (fun _ _ => []) #[] where
  size := rfl
  cells := by simp
  added_eq_nil := fun _ _ => rfl
  assigned_eq_nil := fun _ _ _ => rfl

section

variable {initials : List (Array Int32)} {added : ℕ → List Int32} {assigned : ℕ → ℕ → List Int32}
  {arrays : Array (Array Int32)}

/-- A new array is accounted for by its contents: nothing has been added or put into it. -/
theorem Accounts.allocate (h : Accounts initials added assigned arrays) (contents : Array Int32) :
    Accounts (initials ++ [contents]) added assigned (arrays.push contents) where
  size := by simp [h.size]
  cells := by
    intro j initial found hinitial hfound i
    rcases Nat.lt_trichotomy j arrays.size with hj | hj | hj
    · rw [List.getElem?_append_left (by rw [← h.size]; exact hj)] at hinitial
      rw [Array.getElem?_push, if_neg (by omega)] at hfound
      exact h.cells j initial found hinitial hfound i
    · subst hj
      -- The array is new, so no value can have been added or put into it before.
      have hnil (i : ℕ) : assigned arrays.size i = [] := h.assigned_eq_nil _ i (by simp)
      simp only [h.size, List.getElem?_concat_length, Option.some.injEq] at hinitial
      simp only [Array.getElem?_push_size, Option.some.injEq] at hfound
      subst hinitial hfound
      simp [cell?, hnil, h.added_eq_nil arrays.size (Nat.le_refl _)]
    · rw [Array.getElem?_eq_none (by simp; omega)] at hfound
      contradiction
  added_eq_nil := fun j hj => h.added_eq_nil j (by simp at hj; omega)
  assigned_eq_nil := by
    intro j i hnone
    apply h.assigned_eq_nil
    rw [Array.getElem?_push] at hnone
    split at hnone
    · next hj => simp [hj]
    · exact hnone

/-- A value added to an array makes one more cell, into which nothing has been put. -/
theorem Accounts.add (h : Accounts initials added assigned arrays) {k : ℕ} (hk : k < arrays.size)
    (x : Int32) : Accounts initials (fun j => added j ++ if k = j then [x] else []) assigned
      (arrays.modify k (·.push x)) where
  size := by simp [h.size]
  cells := by
    intro j initial found hinitial hfound i
    rw [Array.getElem?_modify] at hfound
    split at hfound
    · next hj =>
      subst hj
      obtain ⟨old, hold, rfl⟩ := Option.map_eq_some_iff.1 hfound
      have hcells := h.cells k initial old hinitial hold
      have hsize := size_of_cells hcells
      -- The new cell is the one at the old size. It did not exist, so nothing was put into it.
      have hnew : assigned k old.size = [] := h.assigned_eq_nil k _ (by simp [hold])
      rw [if_pos rfl, cell?, ← List.append_assoc, Array.getElem?_push, List.getElem?_append]
      simp only [List.length_append, Array.length_toList, ← hsize]
      rcases Nat.lt_trichotomy i old.size with hi | hi | hi
      · rw [if_neg (by omega), if_pos hi, hcells, cell?]
      · simp [hi, hnew]
      · rw [if_neg (by omega), if_neg (by omega), Array.getElem?_eq_none (by omega),
          List.getElem?_eq_none (by simp; omega)]
        rfl
    · next hj =>
      simpa [hj] using h.cells j initial found hinitial hfound i
  added_eq_nil := by
    intro j hj
    rw [Array.size_modify] at hj
    simp [h.added_eq_nil j hj, show k ≠ j by omega]
  assigned_eq_nil := by
    intro j i hnone
    apply h.assigned_eq_nil
    rw [Array.getElem?_modify] at hnone
    split at hnone
    · next hj =>
      cases hold : arrays[j]? with
      | none => rfl
      | some old =>
        simp only [hold, Option.map_some, Option.bind_some, Array.getElem?_eq_none_iff,
          Array.size_push] at hnone ⊢
        omega
    · exact hnone

/-- A value put into a cell is the one put there last. -/
theorem Accounts.assign (h : Accounts initials added assigned arrays) {k m : ℕ} {old : Array Int32}
    (hold : arrays[k]? = some old) (hm : m < old.size) (x : Int32) :
    Accounts initials added (fun j i => assigned j i ++ if k = j ∧ m = i then [x] else [])
      (arrays.modify k (·.setIfInBounds m x)) where
  size := by simp [h.size]
  cells := by
    intro j initial found hinitial hfound i
    rw [Array.getElem?_modify] at hfound
    split at hfound
    · next hj =>
      subst hj
      simp only [hold, Option.map_some, Option.some.injEq] at hfound
      subst hfound
      have hcells := h.cells k initial old hinitial hold i
      rw [Array.getElem?_setIfInBounds]
      by_cases hi : m = i
      -- The cell had a value before, which the new one replaces.
      · subst hi
        rw [Array.getElem?_eq_getElem hm, cell?] at hcells
        obtain ⟨y, hy, -⟩ := Option.map_eq_some_iff.1 hcells.symm
        simp [cell?, hm, hy]
      · simpa [cell?, hi] using hcells
    · next hj =>
      simpa [hj] using h.cells j initial found hinitial hfound i
  added_eq_nil := fun j hj => h.added_eq_nil j (by simpa using hj)
  assigned_eq_nil := by
    intro j i hnone
    rw [Array.getElem?_modify] at hnone
    split at hnone
    · next hj =>
      subst hj
      simp only [hold, Option.map_some, Option.bind_some, Array.getElem?_eq_none_iff,
        Array.size_setIfInBounds] at hnone
      rw [h.assigned_eq_nil k i (by simpa [hold] using hnone), if_neg (by omega)]
      rfl
    · next hj =>
      rw [h.assigned_eq_nil j i hnone, if_neg (by omega)]
      rfl

end

/-- The last step of a trace contributes after all others. -/
theorem filterMap_concat {α : Type} (f : Step → Option α) (t : List Step) (st : Step) :
    (t ++ [st]).filterMap f = t.filterMap f ++ (f st).toList := by
  rw [List.filterMap_append]
  cases h : f st <;> simp [h]

/-- The accounts of a trace with one more step. -/
theorem accounts_concat {t : List Step} {st : Step}
    (h : Accounts (allocations t) (additions t) (assignments t) st.before.heap.arrays) :
    Accounts (allocations (t ++ [st])) (additions (t ++ [st])) (assignments (t ++ [st]))
      st.after.heap.arrays := by
  have e1 : allocations (t ++ [st]) = allocations t ++ st.allocated?.toList :=
    filterMap_concat _ t st
  have e2 : additions (t ++ [st]) = fun j => additions t j ++ (st.added? j).toList :=
    funext fun _ => filterMap_concat _ t st
  have e3 : assignments (t ++ [st]) =
      fun j i => assignments t j i ++ (st.assigned? j i).toList :=
    funext fun _ => funext fun _ => filterMap_concat _ t st
  rw [e1, e2, e3]
  -- Each way to act on the heap is one of the three changes of the accounts.
  cases st.acts with
  | keep hallocated hadded hassigned hafter =>
    simpa [hallocated, hadded, hassigned, hafter] using h
  | allocate contents hallocated hadded hassigned hanswer hafter =>
    simpa [hallocated, hadded, hassigned, hafter] using h.allocate contents
  | add k x hallocated hadded hassigned hk hafter =>
    simpa [hallocated, hadded, hassigned, hafter, apply_ite] using h.add hk x
  | assign k m x old hallocated hadded hassigned hold hm hafter =>
    simpa [hallocated, hadded, hassigned, hafter, apply_ite] using h.assign hold hm x

/-- The table after a sequence of operations on an empty heap holds what its trace contributed. -/
theorem accounts_trace (s : Session) (hs : s.heap = .empty) (ops : List Operation) :
    Accounts (allocations (s.trace ops)) (additions (s.trace ops)) (assignments (s.trace ops))
      (s.performAll ops).heap.arrays := by
  -- The induction is from the left end to the right, since a step depends on those before it.
  induction ops using List.reverseRecOn with
  | nil =>
    rw [performAll_nil, hs]
    exact accounts_empty
  | append_singleton ops op ih =>
    rw [trace_concat, performAll_concat]
    exact accounts_concat ih

/-- The initial contents of the arrays are those of the steps that allocate them. -/
theorem map_some_allocations (t : List Step) :
    (allocations t).map some = (t.filter Step.allocates).map Step.allocated? := by
  induction t with
  | nil => rfl
  | cons st t ih =>
    cases h : st.allocated? with
    | none => simpa [allocations, h, Step.allocates_eq] using ih
    | some contents => simpa [allocations, h, Step.allocates_eq] using ih

/-- Allocation number `j` of a sequence on an empty heap answers `j`. -/
theorem answer_of_filter_allocates {s : Session} (hs : s.heap = .empty) (ops : List Operation)
    {j : ℕ} {st : Step} (h : ((s.trace ops).filter Step.allocates)[j]? = some st) :
    st.answer = .ok (some (Int32.ofNat j)) := by
  induction ops using List.reverseRecOn with
  | nil => simp [trace] at h
  | append_singleton ops op ih =>
    rw [trace_concat, List.filter_append, List.getElem?_append] at h
    split at h
    · exact ih h
    · next hj =>
      -- The last step allocates, and the arrays before it are those of the allocations before it.
      cases hst : Step.allocates ⟨s.performAll ops, op⟩ with
      | false => simp [hst] at h
      | true =>
        rw [List.filter_cons_of_pos hst, List.filter_nil] at h
        have hsize := (accounts_trace s hs ops).size
        rw [← List.length_map some, map_some_allocations, List.length_map] at hsize
        obtain ⟨hk, rfl⟩ := List.getElem?_eq_some_iff.1 h
        rw [List.length_singleton] at hk
        rw [List.getElem_singleton, Step.answer_of_allocates hst]
        have : j = (s.performAll ops).heap.size := by
          rw [Heap.size, hsize]
          omega
        rw [this]

/-- What a run leaves in the heap. In a sequence of operations on an empty heap, failed ones
included, in which fewer than `2^31` arrays are allocated:
there are as many arrays as allocations that succeeded; allocation number `j` answered `j`, which
still names an array at the end, and the length of that array is its initial length plus the number
of values added to it; each of its cells holds the value put there last or, if there is none, the
one that the addition or the allocation made it with; and a step that fails, and one that only
reads, contributes nothing. -/
theorem heap_law (console : Console) (log : Array Record) (ops : List Operation)
    (hn : ((Session.mk .empty console log).trace ops).countP Step.allocates < 2147483648) :
    let t := (Session.mk .empty console log).trace ops
    let heap := ((Session.mk .empty console log).performAll ops).heap
    heap.size = t.countP Step.allocates ∧
    (∀ (j : ℕ) (st : Step), (t.filter Step.allocates)[j]? = some st → ∃ h initial contents,
      st.answer = .ok (some h) ∧ h.toInt = j ∧ st.allocated? = some initial ∧
      heap.array h = .ok contents ∧ contents.size = initial.size + (additions t j).length ∧
      ∀ i, contents[i]? = cell? initial (additions t j) (assignments t j) i) ∧
    ∀ st ∈ t, st.answer.isOk = false ∨ st.operation.changesHeap = false →
      st.after.heap = st.before.heap ∧ st.allocated? = none ∧ (∀ j, st.added? j = none) ∧
      ∀ j i, st.assigned? j i = none := by
  intro t heap
  replace hn : t.countP Step.allocates < 2147483648 := hn
  have haccounts : Accounts (allocations t) (additions t) (assignments t) heap.arrays :=
    accounts_trace _ rfl ops
  have hsize : heap.arrays.size = (t.filter Step.allocates).length := by
    rw [haccounts.size, ← List.length_map some, map_some_allocations, List.length_map]
  rw [List.countP_eq_length_filter] at hn ⊢
  refine ⟨hsize, ?_, ?_⟩
  · intro j st hst
    obtain ⟨hj, hget⟩ := List.getElem?_eq_some_iff.1 hst
    -- There are few enough arrays for their numbers to be handles.
    have hhandle : (Int32.ofNat j).toInt = j := Int32.toInt_ofNat_of_lt (by omega)
    have hallocates : st.allocates = true := (List.mem_filter.1 (List.mem_of_getElem? hst)).2
    rw [Step.allocates_eq, Option.isSome_iff_exists] at hallocates
    obtain ⟨initial, hinitial⟩ := hallocates
    -- So the array of that number is the one that the allocation made, and has its cells.
    have hat : (allocations t)[j]? = some initial := by
      have h := congrArg (fun l => l[j]?) (map_some_allocations t)
      simpa [hst, hinitial] using h
    have hcontents := @Array.getElem?_eq_getElem _ heap.arrays j (by omega)
    have hcells := haccounts.cells j initial _ hat hcontents
    refine ⟨Int32.ofNat j, initial, heap.arrays[j], answer_of_filter_allocates rfl ops hst, hhandle,
      hinitial, ?_, size_of_cells hcells, hcells⟩
    rw [Heap.array_eq_ok_iff, Heap.at?_of_toInt_eq _ hhandle, hcontents]
  · intro st _ h
    rcases h with h | h
    · cases hanswer : st.answer with
      | ok value => simp [hanswer, Except.isOk, Except.toBool] at h
      | error e =>
        exact ⟨Step.heap_after_of_error hanswer, Step.contributes_of_error hanswer⟩
    · exact ⟨st.before.heap_perform_of_not_changesHeap h, Step.contributes_of_not_changesHeap h⟩

/-- The law at a run in which a line is read into array 1, and values are added to it and put into
it between operations that fail. -/
theorem heap_law_mixed :
    let s := Session.start (.scripted [104, 105, 10])
    let ops : List Operation := [.call (.new 2), .call (.set 0 1 7), .call .reads,
      .call (.add 1 33), .call (.set 1 2 63), .call (.new (-1)), .call (.set 0 2 9), .call .reads,
      .call (.add 7 1), .call (.add 1 34), .allocate #[5]]
    (s.trace ops).countP Step.allocates < 2147483648 ∧ (s.performAll ops).heap.size = 3 ∧
      ∃ contents, (s.performAll ops).heap.array 1 = .ok contents ∧ contents.size = 4 ∧
        contents[1]? = some 105 ∧ contents[2]? = some 63 ∧ contents[3]? = some 34 := by
  intro s ops
  have hn : (s.trace ops).countP Step.allocates < 2147483648 := by decide +kernel
  obtain ⟨hsize, harrays, -⟩ := heap_law (.scripted [104, 105, 10]) #[] ops hn
  obtain ⟨h, initial, contents, hanswer, hj, hinitial, harray, hlength, hcells⟩ :=
    harrays 1 ⟨s.performAll [.call (.new 2), .call (.set 0 1 7)], .call .reads⟩ rfl
  obtain rfl : h = 1 := Int32.toInt_inj.1 hj
  obtain rfl : #[104, 105] = initial := Option.some.inj hinitial
  exact ⟨hn, hsize.trans (by decide +kernel), contents, harray, hlength.trans (by decide +kernel),
    (hcells 1).trans (by decide +kernel), (hcells 2).trans (by decide +kernel),
    (hcells 3).trans (by decide +kernel)⟩

end ArrayHost.Session
