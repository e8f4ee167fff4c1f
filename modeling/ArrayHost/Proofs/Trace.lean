import ArrayHost.Session

/-!
# Sequences of operations

A session that is driven from outside goes through a sequence of operations, and a failure does not
stop it. `Session.trace` keeps what happened as a list of steps, each with the session that it
started on, so that the answer of a step and the session after it can be read off. Laws of whole
sequences are proved from the left end to the right: `trace_concat` adds the last step.
-/

namespace ArrayHost.Session

/-- An operation and the session that it is carried out on. -/
structure Step where
  /-- The session before the operation. -/
  before : Session
  /-- The operation. -/
  operation : Operation

namespace Step

/-- The answer of the operation. -/
def answer (st : Step) : Except Fatal (Option Int32) := (st.before.perform st.operation).1

/-- The session after the operation. -/
def after (st : Step) : Session := (st.before.perform st.operation).2

end Step

/-- The session after a sequence of operations, of which some may have failed. -/
def performAll (s : Session) (ops : List Operation) : Session :=
  ops.foldl (fun s op => (s.perform op).2) s

/-- The steps of a sequence of operations. -/
def trace (s : Session) : List Operation → List Step
  | [] => []
  | op :: ops => ⟨s, op⟩ :: trace (s.perform op).2 ops

@[simp]
theorem performAll_nil (s : Session) : s.performAll [] = s := rfl

@[simp]
theorem performAll_cons (s : Session) (op : Operation) (ops : List Operation) :
    s.performAll (op :: ops) = (s.perform op).2.performAll ops := rfl

/-- One sequence after another is carried out on the session that the first leaves. -/
theorem performAll_append (s : Session) (ops more : List Operation) :
    s.performAll (ops ++ more) = (s.performAll ops).performAll more := by
  simp [performAll]

/-- The last operation of a sequence is carried out on the session that the others leave. -/
theorem performAll_concat (s : Session) (ops : List Operation) (op : Operation) :
    s.performAll (ops ++ [op]) = ((s.performAll ops).perform op).2 := by
  rw [performAll_append]
  rfl

/-- The trace of one sequence after another. -/
theorem trace_append (s : Session) (ops more : List Operation) :
    s.trace (ops ++ more) = s.trace ops ++ (s.performAll ops).trace more := by
  induction ops generalizing s with
  | nil => rfl
  | cons op ops ih => simp [trace, ih]

/-- The last step of a sequence starts on the session that the others leave. -/
theorem trace_concat (s : Session) (ops : List Operation) (op : Operation) :
    s.trace (ops ++ [op]) = s.trace ops ++ [⟨s.performAll ops, op⟩] := by
  rw [trace_append]
  rfl

/-- A step of a sequence starts on the session that those before it leave. -/
theorem getElem?_trace (s : Session) (ops : List Operation) (i : Nat) :
    (s.trace ops)[i]? = ops[i]?.map fun op => ⟨s.performAll (ops.take i), op⟩ := by
  induction ops generalizing s i with
  | nil => rfl
  | cons op ops ih =>
    cases i with
    | zero => rfl
    | succ i => simp [trace, ih]

/-- The first steps of a sequence are those of its first operations. -/
theorem take_trace (s : Session) (ops : List Operation) (i : Nat) :
    (s.trace ops).take i = s.trace (ops.take i) := by
  induction ops generalizing s i with
  | nil => simp [trace]
  | cons op ops ih =>
    cases i with
    | zero => rfl
    | succ i => simp [trace, ih]

end ArrayHost.Session
