import ArrayHost.Proofs.Alike
import ArrayHost.Wasm.Machine

/-!
# The host calls of module code

`Machine.hostCalls` lists the calls of host functions that a machine makes, each with the session
that it is made on. A move that asks for none leaves the session as it is, and one that asks for one
leads to the session after the call, with the answer or to a halt with the failure. So a run does to
the session what its host calls do, one after another until one fails, by induction on its moves
(`leads_run`). Nothing more is assumed of the machine.
-/

namespace ArrayHost

/-- A call of a host function and the session that it is made on. -/
structure HostCall where
  /-- The session before the call. -/
  session : Session
  /-- The call. -/
  call : Call

/-- The answer of the host function. -/
def HostCall.answer (x : HostCall) : Except Fatal (Option Int32) := (x.session.call x.call).1

/-- The operation on a session that a host call is. -/
def HostCall.operation (x : HostCall) : Session.Operation := .call x.call

namespace Session

/-- Host calls that are made one after another, from one session to another, when nothing but the
log changes between them. All of them succeed, or the last one fails and no other does. -/
inductive Leads : Session → List HostCall → Option Fatal → Session → Prop where
  /-- No call is made. -/
  | nil {s t : Session} (ht : s.Alike t) : Leads s [] none t
  /-- A call succeeds, and others may follow. -/
  | ok {s u t : Session} {c : Call} {answer : Option Int32} {calls : List HostCall}
      {fatal? : Option Fatal} (hs : s.Alike u) (hcall : (u.call c).1 = .ok answer)
      (hrest : Leads (u.call c).2 calls fatal? t) : Leads s (⟨u, c⟩ :: calls) fatal? t
  /-- A call fails, and no other follows. -/
  | error {s u t : Session} {c : Call} {fatal : Fatal} (hs : s.Alike u)
      (hcall : (u.call c).1 = .error fatal) (ht : (u.call c).2.Alike t) :
      Leads s [⟨u, c⟩] (some fatal) t

namespace Leads

variable {s t u : Session} {calls more : List HostCall} {fatal? : Option Fatal}

/-- The log of the first session makes no difference. -/
theorem alike_left (hs : s.Alike u) (h : u.Leads calls fatal? t) : s.Leads calls fatal? t := by
  cases h with
  | nil ht => exact .nil (hs.trans ht)
  | ok hu hcall hrest => exact .ok (hs.trans hu) hcall hrest
  | error hu hcall ht => exact .error (hs.trans hu) hcall ht

/-- The log of the last session makes no difference. -/
theorem alike_right (h : s.Leads calls fatal? u) (ht : u.Alike t) : s.Leads calls fatal? t := by
  induction h with
  | nil hu => exact .nil (hu.trans ht)
  | ok hs hcall _ ih => exact .ok hs hcall (ih ht)
  | error hs hcall hu => exact .error hs hcall (hu.trans ht)

/-- Calls that all succeed may be followed by others. -/
theorem append (h : s.Leads calls none u) (hmore : u.Leads more fatal? t) :
    s.Leads (calls ++ more) fatal? t := by
  generalize hnone : (none : Option Fatal) = first at h
  induction h with
  | nil hs => exact hmore.alike_left hs
  | ok hs hcall _ ih => exact .ok hs hcall (ih hmore hnone)
  | error => cases hnone

/-- The last session is the one that the calls lead to when they are carried out by themselves. -/
theorem alike_performAll (h : s.Leads calls fatal? t) :
    t.Alike (s.performAll (calls.map HostCall.operation)) := by
  induction h with
  | nil hs => exact hs.symm
  | @ok s u t c _ calls _ hs _ _ ih =>
    -- The first call leads from `s` to a session like the one that it leads to from `u`.
    exact ih.trans ((hs.call c).2.symm.performAll (calls.map HostCall.operation))
  | @error s u t c _ hs _ ht =>
    exact ht.symm.trans (hs.call c).2.symm

/-- The calls answer as they do when they are carried out by themselves. -/
theorem answers_eq (h : s.Leads calls fatal? t) :
    (s.trace (calls.map HostCall.operation)).map Step.answer = calls.map HostCall.answer := by
  induction h with
  | nil hs => rfl
  | @ok s u t c _ calls _ hs _ _ ih =>
    have hfirst : (s.call c).1 = (u.call c).1 := (hs.call c).1
    have hrest := (hs.call c).2.answers (calls.map HostCall.operation)
    simp only [List.map_cons, trace]
    exact List.cons_eq_cons.2 ⟨hfirst, hrest.trans ih⟩
  | @error s u t c _ hs _ _ =>
    have hfirst : (s.call c).1 = (u.call c).1 := (hs.call c).1
    exact congrArg (· :: []) hfirst

/-- All calls but the last succeed. -/
theorem ok_of_mem_dropLast (h : s.Leads calls fatal? t) :
    ∀ x ∈ calls.dropLast, ∃ answer, x.answer = .ok answer := by
  induction h with
  | nil => simp
  | @ok s u t c answer calls _ _ hcall _ ih =>
    intro x hx
    -- The first call is the last one too when no other follows.
    cases calls with
    | nil => simp at hx
    | cons y calls =>
      rw [List.dropLast_cons_of_ne_nil (List.cons_ne_nil y calls)] at hx
      rcases List.mem_cons.1 hx with rfl | hx
      · exact ⟨answer, hcall⟩
      · exact ih x hx
  | error => simp

/-- The last call fails exactly when there is a failure, and with that failure. -/
theorem fatal?_eq_some_iff (h : s.Leads calls fatal? t) (fatal : Fatal) :
    fatal? = some fatal ↔ ∃ x ∈ calls.getLast?, x.answer = .error fatal := by
  induction h with
  | nil => simp
  | @ok s u t c answer calls _ _ hcall hrest ih =>
    rw [ih]
    cases calls with
    | nil => simp [HostCall.answer, hcall]
    | cons y calls => rw [List.getLast?_cons_cons]
  | error _ hcall => simp [HostCall.answer, hcall]

end Leads

end Session

namespace Wasm

/-- The host call that a move asks for, if it asks for one. -/
def Move.hostCall? {State Store : Type} : Move State Store → Option Call
  | .calling c _ _ => some c
  | _ => none

/-- A host call, if there is one, made on a session. -/
def madeOn (s : Session) (c? : Option Call) : List HostCall := c?.toList.map (⟨s, ·⟩)

namespace Machine

section

variable (M : Machine) (inst : Instance)

/-- The host calls of at most `n` moves more. -/
def hostCalls : Nat → M.Progress → List HostCall
  | n + 1, .running s session =>
    let move := M.step inst s
    madeOn session move.hostCall? ++ hostCalls n (M.perform move session)
  | _, _ => []

/-- The host calls that begin with a move on a session, of which at most `n` more follow. -/
def callsFrom (n : Nat) (move : Move M.State M.Store) (s : Session) : List HostCall :=
  madeOn s move.hostCall? ++ M.hostCalls inst n (M.perform move s)

/-- The host calls of a function that is called without arguments. -/
def invokeCalls (n : Nat) (f : Callee) (w : M.World) : List HostCall :=
  M.callsFrom inst n (M.call inst f w.store) w.session

end

variable {M : Machine} {inst : Instance} {n : Nat} {move : Move M.State M.Store} {s t : Session}
  {outcome : Outcome} {w w' : M.World} {f : Callee}

/-- Where the machine goes on, the host call that was made, if any, succeeded. -/
theorem leads_of_running {next : M.State} {calls : List HostCall} {fatal? : Option Fatal}
    {u : Session} (h : M.perform move s = .running next u) (hrest : u.Leads calls fatal? t) :
    s.Leads (madeOn s move.hostCall? ++ calls) fatal? t := by
  cases move with
  | running =>
    cases h
    exact hrest
  | calling c store resume =>
    simp only [perform] at h
    cases hcall : s.call c with
    | mk answer after =>
      cases answer with
      | error => simp [hcall] at h
      | ok answer =>
        simp only [hcall, Progress.running.injEq] at h
        obtain ⟨-, rfl⟩ := h
        refine .ok (.refl s) (by rw [hcall]) ?_
        rw [hcall]
        exact hrest
  | halted | stuck => cases h

/-- Where the machine halts, the host call that was made, if any, failed. -/
theorem leads_of_halted (h : M.perform move s = .halted outcome w) :
    s.Leads (madeOn s move.hostCall?) outcome.fatal? w.session := by
  cases move with
  | halted outcome' store own =>
    cases h
    rw [own]
    exact .nil (.refl s)
  | calling c store resume =>
    simp only [perform] at h
    cases hcall : s.call c with
    | mk answer after =>
      cases answer with
      | ok => simp [hcall] at h
      | error fatal =>
        simp only [hcall, Progress.halted.injEq] at h
        obtain ⟨rfl, rfl⟩ := h
        refine .error (.refl s) (by rw [hcall]) ?_
        rw [hcall]
        exact .refl after
  | running | stuck => cases h

/-- A machine that has halted makes no move. -/
theorem run_halted (inst : Instance) (n : Nat) (outcome : Outcome) (w : M.World) :
    M.run inst n (.halted outcome w) = some (outcome, w) ∧
      M.hostCalls inst n (.halted outcome w) = [] := by
  cases n <;> exact ⟨rfl, rfl⟩

/-- A run does to the session what its host calls do, and ends with the failure of the last of them
if that fails. -/
theorem leads_run (hrun : M.run inst n (M.perform move s) = some (outcome, w)) :
    s.Leads (M.callsFrom inst n move s) outcome.fatal? w.session := by
  -- The induction is on the number of moves that may follow.
  unfold callsFrom
  induction n generalizing move s with
  | zero =>
    cases hmove : M.perform move s with
    | running next u => simp [hmove, run] at hrun
    | stuck => simp [hmove, run] at hrun
    | halted outcome' w' =>
      rw [hmove] at hrun
      cases hrun
      rw [(run_halted inst 0 _ _).2, List.append_nil]
      exact leads_of_halted hmove
  | succ n ih =>
    cases hmove : M.perform move s with
    | running next u =>
      rw [hmove] at hrun
      exact leads_of_running hmove (ih hrun)
    | stuck => simp [hmove, run] at hrun
    | halted outcome' w' =>
      rw [hmove] at hrun
      cases hrun
      rw [(run_halted inst (n + 1) _ _).2, List.append_nil]
      exact leads_of_halted hmove

/-- A call of a function does to the session what its host calls do. -/
theorem leads_invoke (h : M.invoke inst n f w = some (outcome, w')) :
    w.session.Leads (M.invokeCalls inst n f w) outcome.fatal? w'.session :=
  leads_run h

section

variable {x : HostCall} {fatal : Fatal}

/-- A host call that fails leads to a halt with its failure. -/
theorem halted_of_error (hx : x ∈ madeOn s move.hostCall?) (hanswer : x.answer = .error fatal) :
    ∃ w, M.perform move s = .halted (.failed fatal) w := by
  cases move with
  | calling c store resume =>
    obtain rfl : x = ⟨s, c⟩ := by simpa [madeOn, Move.hostCall?] using hx
    have hcall : s.call c = (.error fatal, (s.call c).2) := by
      rw [← hanswer]
      rfl
    refine ⟨⟨(s.call c).2, store⟩, ?_⟩
    simp only [perform]
    rw [hcall]
  | running | halted | stuck => simp [madeOn, Move.hostCall?] at hx

/-- A run in which a host call fails halts with its failure. -/
theorem run_of_error (hx : x ∈ M.callsFrom inst n move s) (hanswer : x.answer = .error fatal) :
    ∃ w, M.run inst n (M.perform move s) = some (.failed fatal, w) := by
  unfold callsFrom at hx
  induction n generalizing move s with
  | zero =>
    have hx : x ∈ madeOn s move.hostCall? := by simpa [hostCalls] using hx
    obtain ⟨w, hmove⟩ := halted_of_error hx hanswer
    rw [hmove]
    exact ⟨w, rfl⟩
  | succ n ih =>
    -- The call is made in this move, or in those that come after.
    rcases List.mem_append.1 hx with hx | hx
    · obtain ⟨w, hmove⟩ := halted_of_error hx hanswer
      rw [hmove]
      exact ⟨w, rfl⟩
    · cases hmove : M.perform move s with
      | running next u =>
        rw [hmove] at hx
        exact ih hx
      | halted outcome w => simp [hmove, hostCalls] at hx
      | stuck => simp [hmove, hostCalls] at hx

/-- A host call that fails ends the call of the function that makes it. -/
theorem invoke_of_error (hx : x ∈ M.invokeCalls inst n f w) (hanswer : x.answer = .error fatal) :
    ∃ w', M.invoke inst n f w = some (.failed fatal, w') :=
  run_of_error hx hanswer

end

end Machine

end Wasm

end ArrayHost
