import ArrayHost.Console.Sinks
import ArrayHost.Proofs.Printing
import Mathlib.Logic.Relation

/-!
# Which sinks share their bytes

What a sequence of operations does to a list of sinks can be told without buffers: `Account` counts
the sinks, and keeps which was cloned from which and what was written through which, in order. Two
sinks are of one family when they are connected by cloning, in either direction and over any number
of clones.

`Follows` is the invariant that holds the buffers to such an account: two sinks have one buffer
exactly when they are of one family, and a buffer has the bytes that were written through the sinks
on it. Each operation preserves it (`Follows.next`), so it holds after any sequence
(`Follows.performAll`), and `sharesByCloning` reads from it what can be seen from outside.
-/

namespace ArrayHost.Console.Sinks

/-- The sink that an operation is on. -/
def Operation.sink? : Operation → Option ℕ
  | .add => none
  | .clone k | .write k _ | .print k _ | .flush k | .bytes k | .contents k => some k

/-- The operation is one that only looks. A flush has nothing to do. -/
def Operation.reads : Operation → Bool
  | .flush _ | .bytes _ | .contents _ => true
  | _ => false

/-- What was done to a list of sinks. -/
structure Account where
  /-- The number of sinks. -/
  count : ℕ
  /-- For each clone, the sink that was cloned and the number of the new one. -/
  clones : List (ℕ × ℕ)
  /-- For each write, in order, the sink and the bytes. -/
  writes : List (ℕ × List UInt8)
  /-- Only sinks that exist are cloned. -/
  clones_lt : ∀ i j, (i, j) ∈ clones → i < count ∧ j < count
  /-- Only sinks that exist are written through. -/
  writes_lt : ∀ w ∈ writes, w.1 < count

namespace Account

/-- One sink, and nothing was done. -/
def start : Account where
  count := 1
  clones := []
  writes := []
  clones_lt := by simp
  writes_lt := by simp

/-- A new sink. -/
def add (a : Account) : Account where
  count := a.count + 1
  clones := a.clones
  writes := a.writes
  clones_lt i j h := (a.clones_lt i j h).imp Nat.lt_succ_of_lt Nat.lt_succ_of_lt
  writes_lt w h := Nat.lt_succ_of_lt (a.writes_lt w h)

/-- A clone of sink `k`, if there is one. -/
def clone (a : Account) (k : ℕ) : Account :=
  if h : k < a.count then
    { a.add with
      clones := a.clones ++ [(k, a.count)]
      clones_lt := by
        intro i j hmem
        rcases List.mem_append.1 hmem with hold | hnew
        · exact a.add.clones_lt i j hold
        · obtain ⟨rfl, rfl⟩ := Prod.mk.inj (List.mem_singleton.1 hnew)
          exact ⟨Nat.lt_succ_of_lt h, Nat.lt_succ_self _⟩ }
  else a

/-- Bytes that are written through sink `k`, if there is one. -/
def write (a : Account) (k : ℕ) (bytes : List UInt8) : Account :=
  if h : k < a.count then
    { a with
      writes := a.writes ++ [(k, bytes)]
      writes_lt := by
        intro w hmem
        rcases List.mem_append.1 hmem with hold | hnew
        · exact a.writes_lt w hold
        · rw [List.mem_singleton.1 hnew]
          exact h }
  else a

/-- The account after an operation. A text is written as its bytes. -/
def note (a : Account) : Operation → Account
  | .add => a.add
  | .clone k => a.clone k
  | .write k bytes => a.write k bytes
  | .print k text => a.write k (Text.encode text)
  | .flush _ | .bytes _ | .contents _ => a

/-- The sinks are of one family: clones connect them, in either direction. -/
def Connected (a : Account) : ℕ → ℕ → Prop :=
  Relation.EqvGen fun i j => (i, j) ∈ a.clones

open Classical in
/-- The bytes that were written through the family of sink `k`, in order. -/
noncomputable def familyBytes (a : Account) (k : ℕ) : List UInt8 :=
  (a.writes.filter fun w => a.Connected w.1 k).flatMap Prod.snd

end Account

/-- The account of a sequence of operations, which start with one sink. -/
def account (ops : List Operation) : Account := ops.foldl Account.note .start

/-- The sinks after an operation. One that has no answer changes nothing. -/
def next (s : Sinks) (op : Operation) : Sinks := (s.perform? op).elim s Prod.snd

/-- The sinks after a sequence of operations. -/
def performAll (s : Sinks) (ops : List Operation) : Sinks := ops.foldl next s

variable {s : Sinks} {a : Account} {op : Operation} {k b : ℕ}

/-- Connected sinks stay connected when one is cloned. -/
theorem Account.Connected.clone {i j : ℕ} (h : a.Connected i j) (k : ℕ) :
    (a.clone k).Connected i j := by
  refine Relation.EqvGen.mono (fun i j hmem => ?_) i j h
  unfold Account.clone
  split
  · exact List.mem_append_left _ hmem
  · exact hmem

/-- A clone is connected to the sink that it was cloned from. -/
theorem Account.connected_clone (a : Account) (hk : k < a.count) :
    (a.clone k).Connected k a.count := by
  refine .rel _ _ ?_
  rw [Account.clone, dif_pos hk]
  exact List.mem_append_right _ (List.mem_singleton.2 rfl)

/-- An operation on a sink that does not exist is not noted. -/
theorem Account.note_of_missing (hop : op.sink? = some k) (hk : ¬ k < a.count) : a.note op = a := by
  cases op with
  | add => cases hop
  | clone | write | print =>
    obtain rfl := Option.some.inj hop
    exact dif_neg hk
  | flush | bytes | contents => rfl

/-- An operation on a sink that does not exist has no answer. -/
theorem perform?_of_missing (hop : op.sink? = some k) (hk : s.family[k]? = none) :
    s.perform? op = none := by
  cases op with
  | add => cases hop
  | _ =>
    obtain rfl := Option.some.inj hop
    simp [perform?, clone?, write?, print?, contents?, bytes?, hk]

/-- A clone has the buffer of the sink that it was cloned from. -/
theorem perform?_clone (hk : s.family[k]? = some b) :
    s.perform? (.clone k) =
      some (.number s.family.size, { s with family := s.family.push b }) := by
  rw [perform?, clone?, hk, Option.map_some, Option.map_some]

/-- A sink takes all bytes that are written through it. -/
theorem perform?_write (hk : s.family[k]? = some b) (bytes : List UInt8) :
    s.perform? (.write k bytes) =
      some (.number bytes.length, { s with buffers := s.buffers.modify b (· ++ bytes) }) := by
  rw [perform?, write?, hk, Option.map_some, Option.map_some]

/-- An operation that only looks changes nothing. -/
theorem next_of_reads (s : Sinks) (h : op.reads = true) : s.next op = s := by
  cases op with
  | flush k | bytes k =>
    rw [next, perform?]
    cases s.bytes? k <;> rfl
  | contents k =>
    rw [next, perform?]
    cases s.contents? k <;> rfl
  | _ => cases h

/-- The sinks are as an account of what was done says. -/
structure Follows (s : Sinks) (a : Account) : Prop where
  /-- There are as many. -/
  size_eq : s.family.size = a.count
  /-- Each has a buffer. -/
  family_lt : ∀ i b : ℕ, s.family[i]? = some b → b < s.buffers.size
  /-- A clone has the buffer of the sink that it was cloned from. -/
  family_eq : ∀ i j : ℕ, (i, j) ∈ a.clones → s.family[i]? = s.family[j]?
  /-- Sinks have a buffer together only if clones connect them. -/
  connected : ∀ i j b : ℕ, s.family[i]? = some b → s.family[j]? = some b → a.Connected i j
  /-- A buffer has the bytes that were written through the sinks on it. -/
  buffers_eq : ∀ b < s.buffers.size, s.buffers[b]? =
    some ((a.writes.filter fun w => s.family[w.1]? = some b).flatMap Prod.snd).toArray

namespace Follows

/-- The first sink. -/
theorem start : Follows .start .start where
  size_eq := rfl
  family_lt := by
    intro i b hi
    obtain ⟨hlt, rfl⟩ := Array.getElem?_eq_some_iff.1 hi
    obtain rfl := Nat.lt_one_iff.1 hlt
    exact Nat.one_pos
  family_eq := by simp [Account.start]
  connected := by
    intro i j b hi hj
    obtain ⟨hi, -⟩ := Array.getElem?_eq_some_iff.1 hi
    obtain ⟨hj, -⟩ := Array.getElem?_eq_some_iff.1 hj
    obtain rfl := Nat.lt_one_iff.1 hi
    obtain rfl := Nat.lt_one_iff.1 hj
    exact .refl _
  buffers_eq := by
    intro b hb
    obtain rfl := Nat.lt_one_iff.1 hb
    rfl

/-- Each sink has a buffer. -/
theorem exists_family (h : Follows s a) (hk : k < a.count) : ∃ b : ℕ, s.family[k]? = some b :=
  ⟨_, Array.getElem?_eq_getElem (h.size_eq ▸ hk)⟩

/-- What has a buffer is a sink. -/
theorem lt_count (h : Follows s a) (hk : s.family[k]? = some b) : k < a.count := by
  obtain ⟨hlt, -⟩ := Array.getElem?_eq_some_iff.1 hk
  exact h.size_eq ▸ hlt

/-- A new sink leaves the buffers of those that exist. -/
theorem family_push_of_lt (h : Follows s a) (b : ℕ) (hk : k < a.count) :
    (s.family.push b)[k]? = s.family[k]? := by
  rw [Array.getElem?_push, if_neg (h.size_eq ▸ Nat.ne_of_lt hk)]

/-- After a new sink, one that has a buffer is the new one or had it before. -/
theorem family_push (h : Follows s a) {b b' : ℕ} (hk : (s.family.push b')[k]? = some b) :
    k = a.count ∧ b = b' ∨ s.family[k]? = some b := by
  rw [Array.getElem?_push, h.size_eq] at hk
  split at hk
  · exact .inl ⟨‹_›, (Option.some.inj hk).symm⟩
  · exact .inr hk

/-- A new sink leaves what was written through those that exist. -/
theorem filter_push (h : Follows s a) (b b' : ℕ) :
    (a.writes.filter fun w => (s.family.push b')[w.1]? = some b) =
      a.writes.filter fun w => s.family[w.1]? = some b :=
  List.filter_congr fun w hw => by rw [h.family_push_of_lt b' (a.writes_lt w hw)]

/-- A sink with a buffer of its own is added. -/
theorem add (h : Follows s a) : Follows s.add.2 a.add where
  size_eq := by
    rw [Sinks.add, Array.size_push, h.size_eq]
    rfl
  family_lt := by
    intro k b hk
    rw [Sinks.add, Array.size_push]
    rcases h.family_push hk with ⟨-, rfl⟩ | hold
    · exact Nat.lt_succ_self _
    · exact Nat.lt_succ_of_lt (h.family_lt k b hold)
  family_eq := by
    intro i j hclone
    obtain ⟨hi, hj⟩ := a.clones_lt i j hclone
    rw [Sinks.add, h.family_push_of_lt _ hi, h.family_push_of_lt _ hj]
    exact h.family_eq i j hclone
  connected := by
    intro i j b hi hj
    -- The buffer is new, so no other sink has it.
    have hfresh (k : ℕ) : s.family[k]? ≠ some s.buffers.size := fun hk =>
      Nat.lt_irrefl _ (h.family_lt k _ hk)
    rcases h.family_push hi with ⟨rfl, rfl⟩ | hi <;> rcases h.family_push hj with ⟨rfl, hb⟩ | hj
    · exact .refl _
    · exact absurd hj (hfresh j)
    · exact absurd (hb ▸ hi) (hfresh i)
    · exact h.connected i j b hi hj
  buffers_eq := by
    intro b hb
    have hwrites : a.add.writes = a.writes := rfl
    rw [Sinks.add, hwrites, h.filter_push, Array.getElem?_push]
    split
    · next hnew =>
      have hnone : (a.writes.filter fun w => s.family[w.1]? = some b) = [] := by
        refine List.filter_eq_nil_iff.2 fun w _ hw => ?_
        exact Nat.ne_of_lt (h.family_lt w.1 b (of_decide_eq_true hw)) hnew
      rw [hnone]
      rfl
    · next hold =>
      rw [Sinks.add, Array.size_push] at hb
      exact h.buffers_eq b (by omega)

/-- A sink that exists is cloned. -/
theorem clone (h : Follows s a) (hk : s.family[k]? = some b) :
    Follows { s with family := s.family.push b } (a.clone k) := by
  have hlt := h.lt_count hk
  -- The new sink is connected to those that the cloned one is connected to.
  have hnew := a.connected_clone hlt
  constructor
  case size_eq =>
    rw [Array.size_push, h.size_eq, Account.clone, dif_pos hlt]
    rfl
  case family_lt =>
    intro i b' hi
    rcases h.family_push hi with ⟨-, rfl⟩ | hold
    · exact h.family_lt k b' hk
    · exact h.family_lt i b' hold
  case family_eq =>
    intro i j hclone
    rw [Account.clone, dif_pos hlt] at hclone
    rcases List.mem_append.1 hclone with hold | hlast
    · obtain ⟨hi, hj⟩ := a.clones_lt i j hold
      rw [h.family_push_of_lt _ hi, h.family_push_of_lt _ hj]
      exact h.family_eq i j hold
    · obtain ⟨rfl, rfl⟩ := Prod.mk.inj (List.mem_singleton.1 hlast)
      rw [h.family_push_of_lt _ hlt, hk, ← h.size_eq, Array.getElem?_push_size]
  case connected =>
    intro i j b' hi hj
    rcases h.family_push hi with ⟨rfl, rfl⟩ | hi <;> rcases h.family_push hj with ⟨rfl, hb⟩ | hj
    · exact .refl _
    · exact (hnew.symm _ _).trans _ _ _ ((h.connected k j b' hk hj).clone k)
    · exact ((h.connected i k b' hi (hb ▸ hk)).clone k).trans _ _ _ hnew
    · exact (h.connected i j b' hi hj).clone k
  case buffers_eq =>
    intro b' hb'
    have hwrites : (a.clone k).writes = a.writes := by
      rw [Account.clone, dif_pos hlt]
      rfl
    rw [hwrites, h.filter_push]
    exact h.buffers_eq b' hb'

/-- Bytes are written through a sink that exists. -/
theorem write (h : Follows s a) (hk : s.family[k]? = some b) (bytes : List UInt8) :
    Follows { s with buffers := s.buffers.modify b (· ++ bytes) } (a.write k bytes) := by
  have hlt := h.lt_count hk
  rw [Account.write, dif_pos hlt]
  constructor
  case size_eq => exact h.size_eq
  case family_lt =>
    intro i b' hi
    rw [Array.size_modify]
    exact h.family_lt i b' hi
  case family_eq => exact h.family_eq
  case connected => exact h.connected
  case buffers_eq =>
    intro b' hb'
    rw [Array.size_modify] at hb'
    rw [Array.getElem?_modify, h.buffers_eq b' hb', List.filter_append, List.flatMap_append]
    split
    · next hsame =>
      subst hsame
      simp [hk]
    · next hother =>
      simp [hk, hother]

/-- Sinks have a buffer together exactly when clones connect them. -/
theorem connected_iff (h : Follows s a) {i : ℕ} (hk : s.family[k]? = some b) :
    a.Connected i k ↔ s.family[i]? = some b := by
  refine ⟨fun hik => ?_, fun hi => h.connected i k b hi hk⟩
  rw [← hk]
  exact congrArg (Quot.lift (s.family[·]?) h.family_eq) (Quot.eqvGen_sound hik)

/-- The bytes of a sink are those that were written through its family. -/
theorem bytes?_eq (h : Follows s a) (hk : k < a.count) :
    s.bytes? k = some (a.familyBytes k).toArray := by
  obtain ⟨b, hb⟩ := h.exists_family hk
  have hfilter : (a.writes.filter fun w => s.family[w.1]? = some b) =
      a.writes.filter fun w => @decide (a.Connected w.1 k) (Classical.propDecidable _) :=
    List.filter_congr fun w _ => by simp [h.connected_iff hb]
  rw [bytes?, hb, Option.bind_some, h.buffers_eq b (h.family_lt k b hb), hfilter]
  rfl

/-- A console on a sink takes a whole text, which is a write of its bytes. -/
theorem perform?_print (h : Follows s a) (hk : s.family[k]? = some b) (text : List Char) :
    s.perform? (.print k text) =
      some (.done, { s with buffers := s.buffers.modify b (· ++ Text.encode text) }) := by
  have hlt := h.family_lt k b hk
  have hbuffer : s.buffers[b]? = some s.buffers[b] := Array.getElem?_eq_getElem hlt
  have hwritten : ((onto s.buffers[b]).write text).2.output.written =
      s.buffers[b] ++ Text.encode text := by
    rw [Console.output_write, Output.write_of_unlimited rfl]
    rfl
  have hmodify : s.buffers.setIfInBounds b (s.buffers[b] ++ Text.encode text) =
      s.buffers.modify b (· ++ Text.encode text) := by
    refine Array.ext_getElem? fun i => ?_
    rw [Array.getElem?_modify, Array.getElem?_setIfInBounds]
    split
    · next hi => rw [← hi, hbuffer, Option.map_some]
    · rfl
  have hprint : s.print? k text =
      some { s with buffers := s.buffers.modify b (· ++ Text.encode text) } := by
    simp [print?, hk, hbuffer, hwritten, hmodify]
  rw [perform?, hprint, Option.map_some]

/-- What an operation does to sinks and to the account of them. -/
inductive Acts (s : Sinks) (a : Account) (op : Operation) : Prop where
  /-- It adds a sink with a buffer of its own. -/
  | add (hnext : s.next op = s.add.2) (hnote : a.note op = a.add)
  /-- It clones a sink that exists. -/
  | clone (k b : ℕ) (hk : s.family[k]? = some b)
    (hnext : s.next op = { s with family := s.family.push b }) (hnote : a.note op = a.clone k)
  /-- It writes bytes through a sink that exists. -/
  | write (k b : ℕ) (bytes : List UInt8) (hsink : op.sink? = some k) (hk : s.family[k]? = some b)
    (hnext : s.next op = { s with buffers := s.buffers.modify b (· ++ bytes) })
    (hnote : a.note op = a.write k bytes)
  /-- It only looks, or its sink does not exist. -/
  | keep (hnext : s.next op = s) (hnote : a.note op = a)

/-- All that an operation can do. -/
theorem acts (h : Follows s a) (op : Operation) : Acts s a op := by
  cases hsink : op.sink? with
  | none =>
    cases op with
    | add => exact .add rfl rfl
    | _ => cases hsink
  | some k =>
    by_cases hlt : k < a.count
    · obtain ⟨b, hk⟩ := h.exists_family hlt
      cases op with
      | add => cases hsink
      | clone i =>
        obtain rfl := Option.some.inj hsink
        exact .clone i b hk (by rw [Sinks.next, perform?_clone hk]; rfl) rfl
      | write i bytes =>
        obtain rfl := Option.some.inj hsink
        exact .write i b bytes hsink hk (by rw [Sinks.next, perform?_write hk]; rfl) rfl
      | print i text =>
        obtain rfl := Option.some.inj hsink
        exact .write i b (Text.encode text) hsink hk
          (by rw [Sinks.next, h.perform?_print hk]; rfl) rfl
      | flush | bytes | contents => exact .keep (next_of_reads s rfl) rfl
    · have hk : s.family[k]? = none := Array.getElem?_eq_none (h.size_eq ▸ Nat.le_of_not_lt hlt)
      refine .keep ?_ (Account.note_of_missing hsink hlt)
      rw [Sinks.next, perform?_of_missing hsink hk]
      rfl

/-- Every operation leaves the sinks as its account says. -/
theorem next (h : Follows s a) (op : Operation) : Follows (s.next op) (a.note op) := by
  cases h.acts op with
  | add hnext hnote =>
    rw [hnext, hnote]
    exact h.add
  | clone k b hk hnext hnote =>
    rw [hnext, hnote]
    exact h.clone hk
  | write k b bytes _ hk hnext hnote =>
    rw [hnext, hnote]
    exact h.write hk bytes
  | keep hnext hnote =>
    rw [hnext, hnote]
    exact h

/-- No operation through another family changes the bytes of a sink. -/
theorem bytes?_next (h : Follows s a) (hk : k < a.count)
    (hop : ∀ i, op.sink? = some i → ¬ a.Connected i k) : (s.next op).bytes? k = s.bytes? k := by
  obtain ⟨b, hb⟩ := h.exists_family hk
  have hlt := h.family_lt k b hb
  cases h.acts op with
  | add hnext =>
    have hfamily : s.add.2.family[k]? = s.family[k]? := h.family_push_of_lt _ hk
    have hbuffers : s.add.2.buffers[b]? = s.buffers[b]? := by
      rw [Sinks.add, Array.getElem?_push, if_neg (Nat.ne_of_lt hlt)]
    rw [hnext, bytes?, bytes?, hfamily, hb, Option.bind_some, Option.bind_some, hbuffers]
  | clone i b' _ hnext => rw [hnext, bytes?, bytes?, h.family_push_of_lt _ hk]
  | write i b' bytes hsink hi hnext =>
    have hne : b' ≠ b := fun heq => hop i hsink ((h.connected_iff hb).2 (heq ▸ hi))
    rw [hnext, bytes?, bytes?, hb, Option.bind_some, Option.bind_some, Array.getElem?_modify,
      if_neg hne]
  | keep hnext => rw [hnext]

/-- Every sequence of operations leaves the sinks as its account says. -/
theorem performAll (h : Follows s a) (ops : List Operation) :
    Follows (s.performAll ops) (ops.foldl Account.note a) := by
  induction ops generalizing s a with
  | nil => exact h
  | cons op ops ih => exact ih (h.next op)

end Follows

/-- The sinks answer as an account of what was done says. -/
structure SharesByCloning (s : Sinks) (a : Account) : Prop where
  /-- An operation on a sink that does not exist has no answer. -/
  missing : ∀ op k, op.sink? = some k → a.count ≤ k → s.perform? op = none
  /-- A new sink has the next number. -/
  add : ∃ t, s.perform? .add = some (.number a.count, t)
  /-- So has a clone. -/
  clone : ∀ k < a.count, ∃ t, s.perform? (.clone k) = some (.number a.count, t)
  /-- A write takes all bytes. -/
  write : ∀ k < a.count, ∀ bytes, ∃ t,
    s.perform? (.write k bytes) = some (.number bytes.length, t)
  /-- A console takes the whole text, with the effect of a write of its bytes. -/
  print : ∀ k < a.count, ∀ text, (∃ t, s.perform? (.print k text) = some (.done, t)) ∧
    (∃ buffer, s.bytes? k = some buffer ∧ ((onto buffer).write text).1 = .ok ()) ∧
    s.next (.print k text) = s.next (.write k (Text.encode text))
  /-- A flush does nothing. -/
  flush : ∀ k < a.count, s.perform? (.flush k) = some (.done, s)
  /-- The bytes of a sink are all that was written through its family, in order. -/
  bytes : ∀ k < a.count, s.perform? (.bytes k) = some (.bytes (a.familyBytes k).toArray, s)
  /-- The text of a sink is that of all those bytes together. -/
  contents : ∀ k < a.count,
    s.perform? (.contents k) = some (.text (Text.decode (a.familyBytes k)), s)
  /-- What is done through other families is not seen. -/
  bytes_next : ∀ k < a.count, ∀ op, (∀ i, op.sink? = some i → ¬ a.Connected i k) →
    (s.next op).bytes? k = s.bytes? k

/-- After any sequence of operations, sinks share their bytes exactly as far as they are connected
by cloning: a sink has all bytes that were written through its family, in whatever pieces and also
before it was cloned, and none of those that were written through other families. -/
theorem sharesByCloning (ops : List Operation) :
    SharesByCloning (start.performAll ops) (account ops) := by
  have h : Follows (start.performAll ops) (account ops) := Follows.start.performAll ops
  generalize start.performAll ops = s at h
  generalize account ops = a at h
  constructor
  case missing =>
    intro op k hsink hk
    exact perform?_of_missing hsink (Array.getElem?_eq_none (h.size_eq ▸ hk))
  case add => exact ⟨_, by rw [← h.size_eq]; rfl⟩
  case clone =>
    intro k hk
    obtain ⟨b, hb⟩ := h.exists_family hk
    exact ⟨_, by rw [perform?_clone hb, h.size_eq]⟩
  case write =>
    intro k hk bytes
    obtain ⟨b, hb⟩ := h.exists_family hk
    exact ⟨_, perform?_write hb bytes⟩
  case print =>
    intro k hk text
    obtain ⟨b, hb⟩ := h.exists_family hk
    refine ⟨⟨_, h.perform?_print hb text⟩, ⟨_, h.bytes?_eq hk, ?_⟩, ?_⟩
    · rw [Console.fst_write, Output.write_of_unlimited rfl]
    · rw [next, next, h.perform?_print hb, perform?_write hb]
      rfl
  case flush =>
    intro k hk
    rw [perform?, h.bytes?_eq hk, Option.map_some]
  case bytes =>
    intro k hk
    rw [perform?, h.bytes?_eq hk, Option.map_some]
  case contents =>
    intro k hk
    rw [perform?, contents?, h.bytes?_eq hk, Option.map_some, Option.map_some]
  case bytes_next => exact fun k hk op hop => h.bytes?_next hk hop

/-- A character that is cut into two writes, through a sink and its clone, is one in the text of
both, whatever is written through another sink in between. -/
example :
    let s := start.performAll
      [.write 0 [0xE2, 0x82], .clone 0, .add, .write 2 [0x41], .write 1 [0xAC]]
    s.contents? 0 = some ['€'] ∧ s.contents? 1 = some ['€'] ∧ s.contents? 2 = some ['A'] := by
  decide

end ArrayHost.Console.Sinks
