import Mathlib.Data.List.Basic
import ArrayHost.Proofs.HeapTrace

/-!
# The journal of a heap

Every change of a heap is journaled, and nothing else is (`Step.journal_eq`). The journal can be
replayed: an entry acts on a table of cells as the change did on the arrays, where the cells of a
new array are not known. A table and a heap that are related cell by cell stay so when a step is
taken on the one side and its entries are replayed on the other (`replays_step`), hence through any
sequence of operations (`replays_trace`). The relation is a parameter. With cells that may be
unknown it says that a known cell has the value of its element (`exists_replay_unknown`); with
zeroes for what is unknown it is equality, which new arrays of zeroes meet too (`replay_zeroed`).
-/

namespace ArrayHost.Heap

/-! ## What is journaled -/

/-- The entry for a change that succeeded, under the handle that was answered or given. -/
def Step.journaled? (st : Step) : Option Entry :=
  match st.operation, st.answer with
  | .allocate contents, .ok (.word h) => some (.allocated h contents.size)
  | .allocateZeroed n, .ok (.word h) => some (.allocated h n.toInt.toNat)
  | .push h x, .ok _ => some (.pushed h x)
  | .set h i x, .ok _ => some (.overwritten h i x)
  | _, _ => none

/-- The journal of a sequence of operations. -/
def journal (t : Heap) (ops : List Operation) : List Entry :=
  (t.trace ops).flatMap Step.journal

/-- A step that is asked for an array and answers its number has an entry for it. -/
theorem Step.journaled?_of_requested? {st : Step} {contents : Array Int32} {h : Int32}
    (hop : st.operation.requested? = some contents) (hanswer : st.answer = .ok (.word h)) :
    st.journaled? = some (.allocated h contents.size) := by
  unfold journaled?
  cases hst : st.operation with
  | allocate given =>
    rw [hst] at hop
    cases hop
    simp only [hanswer]
  | allocateZeroed n =>
    rw [hst, Operation.requested?_allocateZeroed] at hop
    obtain ⟨-, rfl⟩ := hop
    simp only [hanswer, Array.size_replicate]
  | _ =>
    rw [hst] at hop
    cases hop

/-- A step that fails or only looks has no entry. -/
theorem Step.journaled?_eq_none {st : Step}
    (hfails : st.operation.changes = true → ∃ e, st.answer = .error e) : st.journaled? = none := by
  unfold journaled?
  cases hanswer : st.answer with
  | error e => cases st.operation <;> rfl
  | ok answer =>
    -- It does not fail, so its operation is none of those that change the heap.
    have hop : st.operation.changes = false := by simpa [hanswer] using hfails
    cases hst : st.operation <;> simp_all [Operation.changes]

/-- A step that succeeds in a change has one entry and journals it. Any other step journals
nothing. -/
theorem Step.journal_eq (st : Step) : st.journal = st.journaled?.toList ∧
    (st.journaled?.isSome = true ↔
      st.operation.changes = true ∧ ∃ answer, st.answer = .ok answer) := by
  cases st.acts with
  | allocate contents hop houtcome =>
    have hanswer : st.answer = .ok (.word (Int32.ofNat st.before.size)) := by rw [answer, houtcome]
    rw [journal, houtcome, journaled?_of_requested? hop hanswer, hanswer,
      Operation.changes_of_requested? hop]
    simp
  | push h x contents hop _ houtcome =>
    simp [journal, journaled?, answer, houtcome, hop, Operation.changes]
  | set h i x old contents hop _ _ houtcome =>
    simp [journal, journaled?, answer, houtcome, hop, Operation.changes]
  | keep result houtcome hfails =>
    have hanswer : st.answer = result := by rw [answer, houtcome, unchanged]
    rw [← hanswer] at hfails
    rw [journal, houtcome, journaled?_eq_none hfails]
    refine ⟨rfl, ?_⟩
    constructor
    · intro hsome
      cases hsome
    · rintro ⟨hchanges, answer, hok⟩
      obtain ⟨e, he⟩ := hfails hchanges
      rw [he] at hok
      cases hok

/-! ## Cell by cell -/

/-- The arrays have elements at the same places, and these are related. -/
def Pointwise {α β : Type} (R : α → β → Prop) (xs : Array α) (ys : Array β) : Prop :=
  ∀ i : ℕ, Option.Rel R xs[i]? ys[i]?

namespace Pointwise

variable {α β : Type} {R : α → β → Prop} {xs : Array α} {ys : Array β}

/-- The arrays are equally long. -/
theorem size_eq (h : Pointwise R xs ys) : xs.size = ys.size := by
  have hbound (i : ℕ) : xs.size ≤ i ↔ ys.size ≤ i := by
    have hi := h i
    rw [← Array.getElem?_eq_none_iff, ← Array.getElem?_eq_none_iff]
    generalize xs[i]? = x?, ys[i]? = y? at hi
    cases hi <;> simp
  exact Nat.le_antisymm ((hbound _).2 (Nat.le_refl _)) ((hbound _).1 (Nat.le_refl _))

/-- Where the one array has an element, the other has one that is related. -/
theorem exists_getElem? (h : Pointwise R xs ys) {i : ℕ} {x : α} (hx : xs[i]? = some x) :
    ∃ y, ys[i]? = some y ∧ R x y := by
  have hi := h i
  rw [hx] at hi
  cases hi' : ys[i]? with
  | none =>
    rw [hi'] at hi
    cases hi
  | some y =>
    rw [hi'] at hi
    exact ⟨y, rfl, Option.rel_some_some.1 hi⟩

/-- Where the other array has an element, the one has an element that is related to it. -/
theorem exists_getElem?_left (h : Pointwise R xs ys) {i : ℕ} {y : β} (hy : ys[i]? = some y) :
    ∃ x, xs[i]? = some x ∧ R x y := by
  have hi := h i
  rw [hy] at hi
  cases hx : xs[i]? with
  | none =>
    rw [hx] at hi
    cases hi
  | some x =>
    rw [hx] at hi
    exact ⟨x, rfl, Option.rel_some_some.1 hi⟩

/-- What a word finds in the one array is related to what it finds in the other. -/
theorem exists_at? (h : Pointwise R xs ys) {i : Int32} {x : α} (hx : at? xs i = some x) :
    ∃ y, at? ys i = some y ∧ R x y := by
  obtain ⟨h0, hx⟩ := at?_eq_some_iff.1 hx
  obtain ⟨y, hy, hxy⟩ := h.exists_getElem? hx
  exact ⟨y, at?_eq_some_iff.2 ⟨h0, hy⟩, hxy⟩

/-- Related elements are added at the end. -/
theorem push (h : Pointwise R xs ys) {x : α} {y : β} (hxy : R x y) :
    Pointwise R (xs.push x) (ys.push y) := by
  intro i
  rw [Array.getElem?_push, Array.getElem?_push, h.size_eq]
  split
  · exact .some hxy
  · exact h i

/-- Elements at one place are changed so that they are related again. -/
theorem modify (h : Pointwise R xs ys) {f : α → α} {g : β → β} (k : ℕ)
    (hfg : ∀ x y, R x y → R (f x) (g y)) : Pointwise R (xs.modify k f) (ys.modify k g) := by
  intro i
  rw [Array.getElem?_modify, Array.getElem?_modify]
  split
  · have hi := h i
    generalize xs[i]? = x?, ys[i]? = y? at hi
    cases hi with
    | some hxy => exact .some (hfg _ _ hxy)
    | none => exact .none
  · exact h i

/-- Related elements are put at one place. -/
theorem setIfInBounds (h : Pointwise R xs ys) {x : α} {y : β} (k : ℕ) (hxy : R x y) :
    Pointwise R (xs.setIfInBounds k x) (ys.setIfInBounds k y) := by
  intro i
  rw [Array.getElem?_setIfInBounds, Array.getElem?_setIfInBounds, h.size_eq]
  split
  · split
    · exact .some hxy
    · exact .none
  · exact h i

/-- An array is related to copies of one element when all its elements are. -/
theorem replicate {y : β} (hy : ∀ x ∈ xs, R x y) : Pointwise R xs (Array.replicate xs.size y) := by
  intro i
  rw [Array.getElem?_replicate]
  split
  · next hi =>
    rw [Array.getElem?_eq_getElem hi]
    exact .some (hy _ (Array.getElem_mem hi))
  · next hi =>
    rw [Array.getElem?_eq_none (Nat.not_lt.1 hi)]
    exact .none

/-- Elements that are related are related in each weaker way. -/
theorem imp {S : α → β → Prop} (hS : ∀ x y, R x y → S x y) (h : Pointwise R xs ys) :
    Pointwise S xs ys := by
  intro i
  have hi := h i
  generalize xs[i]? = x?, ys[i]? = y? at hi
  cases hi with
  | some hxy => exact .some (hS _ _ hxy)
  | none => exact .none

/-- Arrays with the same elements are the same. -/
theorem eq {xs ys : Array α} (h : Pointwise Eq xs ys) : xs = ys := by
  refine Array.ext_getElem? fun i => ?_
  cases hx : xs[i]? with
  | none =>
    rw [Array.getElem?_eq_none_iff, h.size_eq] at hx
    exact (Array.getElem?_eq_none hx).symm
  | some x =>
    obtain ⟨y, hy, rfl⟩ := h.exists_getElem? hx
    exact hy.symm

end Pointwise

/-! ## Replay -/

section

variable {α : Type} (unknown : α) (known : Int32 → α)

/-- Replays an entry on a table of cells. There is no table afterwards when a new array does not get
the number that the entry says, or the array or the cell of a change is missing. -/
def replayOne? (table : Array (Array α)) : Entry → Option (Array (Array α))
  | .allocated h n =>
    if h.toInt = table.size then some (table.push (Array.replicate n unknown)) else none
  | .pushed h x => do
    let _ ← at? table h
    return table.modify h.toInt.toNat (·.push (known x))
  | .overwritten h i x => do
    let cells ← at? table h
    let _ ← at? cells i
    return table.modify h.toInt.toNat (·.setIfInBounds i.toInt.toNat (known x))

/-- Replays a journal, from the table without arrays. -/
def replay? (entries : List Entry) : Option (Array (Array α)) :=
  entries.foldlM (replayOne? unknown known) #[]

variable {unknown known} {R : Int32 → α → Prop} (hknown : ∀ x, R x (known x))

include hknown

/-- What a step does to a heap, its entries do to a table that is related to it. -/
theorem replays_step {st : Step} {table : Array (Array α)}
    (hR : Pointwise (Pointwise R) st.before.arrays table)
    (hunknown : ∀ contents, st.operation.requested? = some contents → ∀ x ∈ contents, R x unknown)
    (hsize : st.after.size ≤ 2147483648) :
    ∃ next, st.journal.foldlM (replayOne? unknown known) table = some next ∧
      Pointwise (Pointwise R) st.after.arrays next := by
  rw [Step.after] at hsize ⊢
  rw [Step.journal]
  cases st.acts with
  | allocate contents hop houtcome =>
    rw [houtcome] at hsize ⊢
    -- The number of the array is small enough for a word.
    have hlt : st.before.arrays.size < 2147483648 := by
      have := hsize
      rw [size, Array.size_push] at this
      omega
    have hhandle : (Int32.ofNat st.before.size).toInt = table.size := by
      rw [← hR.size_eq]
      exact Int32.toInt_ofNat_of_lt hlt
    refine ⟨table.push (Array.replicate contents.size unknown), ?_,
      hR.push (.replicate (hunknown contents hop))⟩
    simp only [List.foldlM_cons, List.foldlM_nil, replayOne?, if_pos hhandle]
    rfl
  | push h x contents _ hcontents houtcome =>
    obtain ⟨cells, hcells, -⟩ := hR.exists_at? hcontents
    rw [houtcome]
    refine ⟨table.modify h.toInt.toNat (·.push (known x)), ?_,
      hR.modify _ fun _ _ hpair => hpair.push (hknown x)⟩
    simp only [List.foldlM_cons, List.foldlM_nil, replayOne?, hcells]
    rfl
  | set h i x old contents _ hcontents hold houtcome =>
    obtain ⟨cells, hcells, hpair⟩ := hR.exists_at? hcontents
    obtain ⟨cell, hcell, -⟩ := hpair.exists_at? hold
    rw [houtcome]
    refine ⟨table.modify h.toInt.toNat (·.setIfInBounds i.toInt.toNat (known x)), ?_,
      hR.modify _ fun _ _ hpair => hpair.setIfInBounds _ (hknown x)⟩
    simp only [List.foldlM_cons, List.foldlM_nil, replayOne?, hcells, hcell, Option.bind_eq_bind,
      Option.bind_some]
    rfl
  | keep result houtcome =>
    rw [houtcome]
    exact ⟨table, rfl, hR⟩

/-- What a sequence of operations does to a heap, its journal does to a table that is related to
it. -/
theorem replays_trace {t : Heap} {ops : List Operation} {table : Array (Array α)}
    (hR : Pointwise (Pointwise R) t.arrays table)
    (hunknown : ∀ op ∈ ops, ∀ contents, op.requested? = some contents → ∀ x ∈ contents, R x unknown)
    (hsize : (t.performAll ops).size ≤ 2147483648) :
    ∃ last, (t.journal ops).foldlM (replayOne? unknown known) table = some last ∧
      Pointwise (Pointwise R) (t.performAll ops).arrays last := by
  induction ops generalizing t table with
  | nil => exact ⟨table, rfl, hR⟩
  | cons op ops ih =>
    let st : Step := ⟨t, op⟩
    have hafter : st.after.size ≤ 2147483648 := Nat.le_trans (size_le_performAll _ ops) hsize
    have hbefore : Pointwise (Pointwise R) st.before.arrays table := hR
    obtain ⟨next, hnext, hrelated⟩ :=
      replays_step hknown hbefore (hunknown op List.mem_cons_self) hafter
    obtain ⟨last, hlast, hfinal⟩ := ih hrelated
      (fun other hother => hunknown other (List.mem_cons_of_mem op hother)) hsize
    refine ⟨last, ?_, hfinal⟩
    have hjournal : t.journal (op :: ops) = st.journal ++ (t.perform op).heap.journal ops :=
      List.flatMap_cons
    rw [hjournal, List.foldlM_append, hnext]
    exact hlast

/-- A journal that began without arrays can be replayed, and leads to a table that is related to the
heap. -/
theorem exists_replay {ops : List Operation}
    (hunknown : ∀ op ∈ ops, ∀ contents, op.requested? = some contents → ∀ x ∈ contents, R x unknown)
    (hsize : (empty.performAll ops).size ≤ 2147483648) :
    ∃ table, replay? unknown known (empty.journal ops) = some table ∧
      Pointwise (Pointwise R) (empty.performAll ops).arrays table := by
  have hempty : Pointwise (Pointwise R) empty.arrays (#[] : Array (Array α)) := fun _ => .none
  exact replays_trace hknown hempty hunknown hsize

end

/-- One entry is journaled for each step that has one, in the order of the steps. -/
theorem journal_eq_filterMap (t : Heap) (ops : List Operation) :
    t.journal ops = (t.trace ops).filterMap Step.journaled? := by
  rw [journal, List.filterMap_eq_flatMap_toList]
  exact List.flatMap_congr fun st _ => st.journal_eq.1

/-- A replay that marks what is unknown leaves a table with as many arrays as the heap, each as long
as there, in which every cell that is known has the value of its element. -/
theorem exists_replay_unknown {ops : List Operation}
    (hsize : (empty.performAll ops).size ≤ 2147483648) :
    ∃ table : Array (Array (Option Int32)), replay? none some (empty.journal ops) = some table ∧
      table.size = (empty.performAll ops).size ∧
      ∀ (j : ℕ) (contents : Array Int32), (empty.performAll ops).arrays[j]? = some contents →
        ∃ cells, table[j]? = some cells ∧ cells.size = contents.size ∧
          ∀ (i : ℕ) (x : Int32), cells[i]? = some (some x) → contents[i]? = some x := by
  -- A cell that is not known is related to every element.
  have hreplay : ∃ table, replay? none some (empty.journal ops) = some table ∧
      Pointwise (Pointwise fun (x : Int32) (cell : Option Int32) => ∀ y ∈ cell, y = x)
        (empty.performAll ops).arrays table :=
    exists_replay (by simp) (by simp) hsize
  obtain ⟨table, htable, hrelated⟩ := hreplay
  refine ⟨table, htable, hrelated.size_eq.symm, fun j contents hcontents => ?_⟩
  obtain ⟨cells, hcells, hpair⟩ := hrelated.exists_getElem? hcontents
  refine ⟨cells, hcells, hpair.size_eq.symm, fun i x hx => ?_⟩
  obtain ⟨y, hy, hknown⟩ := hpair.exists_getElem?_left hx
  rw [hy, hknown x rfl]

/-- A replay that puts zeroes for what is unknown leaves the arrays of the heap when all of them
began as zeroes. -/
theorem replay_zeroed {ops : List Operation} (hzeroed : ∀ contents, .allocate contents ∉ ops)
    (hsize : (empty.performAll ops).size ≤ 2147483648) :
    replay? 0 id (empty.journal ops) = some (empty.performAll ops).arrays := by
  have hreplay : ∃ table, replay? 0 id (empty.journal ops) = some table ∧
      Pointwise (Pointwise Eq) (empty.performAll ops).arrays table := by
    refine exists_replay (fun x => rfl) (fun op hop contents hrequested x hx => ?_) hsize
    cases op with
    | allocate contents => exact absurd hop (hzeroed contents)
    | allocateZeroed n =>
      obtain ⟨-, rfl⟩ := Operation.requested?_allocateZeroed.1 hrequested
      exact (Array.mem_replicate.1 hx).2
    | _ => cases hrequested
  obtain ⟨table, htable, hrelated⟩ := hreplay
  have hequal : Pointwise Eq (empty.performAll ops).arrays table :=
    hrelated.imp fun _ _ hpair => hpair.eq
  rw [htable, hequal.eq]

/-- The journal of a heap that began without arrays. A step journals one entry if it succeeds in
changing the heap, and nothing if it fails or only looks. With fewer than 2^31 arrays, the journal
can be replayed: each new array gets the number that its entry says, and no array and no cell of a
change is missing. The table afterwards has as many arrays as the heap, each as long as there, and
every cell whose value the journal tells has the value of its element. When all arrays began as
zeroes, a replay that puts zeroes for what is unknown leaves the arrays of the heap. -/
theorem journal_replays (ops : List Operation)
    (hsize : (empty.performAll ops).size < 2147483648) :
    (∀ st ∈ empty.trace ops, st.journal = st.journaled?.toList ∧
      (st.journaled?.isSome = true ↔
        st.operation.changes = true ∧ ∃ answer, st.answer = .ok answer)) ∧
    empty.journal ops = (empty.trace ops).filterMap Step.journaled? ∧
    (∃ table : Array (Array (Option Int32)),
      replay? none some (empty.journal ops) = some table ∧
      table.size = (empty.performAll ops).size ∧
      ∀ (j : ℕ) (contents : Array Int32), (empty.performAll ops).arrays[j]? = some contents →
        ∃ cells, table[j]? = some cells ∧ cells.size = contents.size ∧
          ∀ (i : ℕ) (x : Int32), cells[i]? = some (some x) → contents[i]? = some x) ∧
    ((∀ contents, .allocate contents ∉ ops) →
      replay? 0 id (empty.journal ops) = some (empty.performAll ops).arrays) :=
  ⟨fun st _ => st.journal_eq, journal_eq_filterMap _ _,
    exists_replay_unknown (Nat.le_of_lt hsize), fun hzeroed => replay_zeroed hzeroed
      (Nat.le_of_lt hsize)⟩

/-- The law for arrays that began with contents and as zeroes, with an operation that is refused and
one that only looks. The journal tells nothing of the first cell of array 0. -/
theorem journal_replays_mixed :
    let ops : List Operation := [.allocate #[7, 8], .allocateZeroed 2, .push 0 9, .set 0 5 1,
      .set 0 1 (-8), .get 0 0, .allocateZeroed (-1), .set 1 0 3]
    (empty.performAll ops).size < 2147483648 ∧
      empty.journal ops = [.allocated 0 2, .allocated 1 2, .pushed 0 9, .overwritten 0 1 (-8),
        .overwritten 1 0 3] ∧
      replay? none some (empty.journal ops) = some
        #[#[none, some (-8), some 9], #[some 3, none]] ∧
      ∀ (i : ℕ) (x : Int32), #[none, some (-8), some 9][i]? = some (some x) →
        (#[7, -8, 9] : Array Int32)[i]? = some x := by
  intro ops
  have hsize : (empty.performAll ops).size < 2147483648 := by decide +kernel
  obtain ⟨-, hjournal, ⟨table, htable, -, hcells⟩, -⟩ := journal_replays ops hsize
  have hreplay : replay? none some (empty.journal ops) = some
    #[#[none, some (-8), some 9], #[some 3, none]] := by decide +kernel
  obtain rfl : #[#[none, some (-8), some 9], #[some 3, none]] = table :=
    Option.some.inj (hreplay.symm.trans htable)
  refine ⟨hsize, hjournal.trans (by decide +kernel), hreplay, ?_⟩
  obtain ⟨cells, hfirst, -, hknown⟩ := hcells 0 #[7, -8, 9] (by decide +kernel)
  cases hfirst
  exact hknown

end ArrayHost.Heap
