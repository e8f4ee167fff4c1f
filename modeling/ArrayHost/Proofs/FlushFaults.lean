import ArrayHost.Proofs.Flushing
import ArrayHost.Proofs.RaisedFatal

/-!
# Runs on an output whose flushes fail

A run flushes its output at its end, whatever comes before, and each line attempt of a host call
makes one flush more. `run_of_failing_flush` compares a run whose flushes do not fail with the run
on an output whose flushes fail from number `k` on. They are the same until flush number `k`. If
that is the last one, only its failure can make a difference to the report; if it is made earlier,
by a host call, this host call fails and ends the run.

The comparison follows the run from the machine to the host. A host call is already known to go the
same way until the flush (`BeforeFlush.call`), and a move of a machine has no other part in the
session (`untilFlush_perform`). A whole run of the machine then ends in the same way or stops at a
host call (`EndsUntilFlush`, `untilFlush_run`), and so do the two phases in which module code runs.
-/

namespace ArrayHost

open Session (BeforeFlush StoppedAt)

/-- A host call makes flush number `k`. -/
def HostCall.MakesFlush (k : ℕ) (x : HostCall) : Prop :=
  x.session.flushes < k ∧ k ≤ (x.session.call x.call).2.flushes

instance (k : ℕ) : DecidablePred (HostCall.MakesFlush k) :=
  fun _ => inferInstanceAs (Decidable (_ ∧ _))

/-- The failure of a host call whose flush fails. -/
def HostCall.flushFailure (x : HostCall) : Fatal := ⟨x.call.name, .console Console.flushFailed⟩

/-- Only the functions that read lines make flushes, and they write nothing. -/
theorem HostCall.MakesFlush.reads {k : ℕ} {x : HostCall} (h : x.MakesFlush k) :
    (x.call = .readi ∨ x.call = .reads) ∧
      (x.session.call x.call).2.console.output.written = x.session.console.output.written := by
  obtain ⟨s, c⟩ := x
  obtain ⟨hbefore, hmade⟩ := h
  have hreads : (Session.Operation.call c).readsLines = true := by
    by_contra hquiet
    have hflushes := s.flushes_call_of_not_readsLines (Bool.eq_false_iff.2 hquiet)
    simp only at hbefore hmade
    omega
  obtain ⟨m, -, houtput⟩ := s.output_perform_of_readsLines hreads
  constructor
  · cases c with
    | readi => exact .inl rfl
    | reads => exact .inr rfl
    | printi | printc | prints | println | new | size | add | get | set => cases hreads
  · show (s.perform (.call c)).2.console.output.written = s.console.output.written
    rw [houtput]

/-- The log makes no difference to the flushes. -/
theorem Session.BeforeFlush.alike {k : ℕ} {s t : Session} (h : s.BeforeFlush k) (hst : s.Alike t) :
    t.BeforeFlush k := by
  obtain ⟨hfails, hlt⟩ := h
  rw [flushes, hst.console_eq] at hlt
  exact ⟨by rw [← hst.console_eq, hfails], hlt⟩

/-- No call takes a flush back, or changes which flushes fail. -/
theorem Session.flushing_call (s : Session) (c : Call) :
    (s.call c).2.console.output.failingFlush = s.console.output.failingFlush ∧
      s.flushes ≤ (s.call c).2.flushes := by
  by_cases hreads : (Session.Operation.call c).readsLines = true
  · obtain ⟨m, -, houtput⟩ := s.output_perform_of_readsLines hreads
    have hafter : (s.call c).2.console.output =
        { s.console.output with flushes := s.console.output.flushes + m } := houtput
    rw [flushes, flushes, hafter]
    exact ⟨rfl, Nat.le_add_right _ m⟩
  · have hquiet := Bool.eq_false_iff.2 hreads
    exact ⟨(s.console_perform_of_not_readsLines hquiet).2,
      (s.flushes_call_of_not_readsLines hquiet).ge⟩

/-- The flushes that were made by a host call are among those of the session at the end, and which
flushes fail has not changed. -/
theorem Session.Leads.flushing {s t : Session} {calls : List HostCall} {fatal? : Option Fatal}
    (h : s.Leads calls fatal? t) :
    t.console.output.failingFlush = s.console.output.failingFlush ∧ s.flushes ≤ t.flushes ∧
      ∀ x ∈ calls, (x.session.call x.call).2.flushes ≤ t.flushes := by
  have halike {u v : Session} (huv : u.Alike v) :
      v.console.output.failingFlush = u.console.output.failingFlush ∧ u.flushes = v.flushes := by
    rw [flushes, flushes, huv.console_eq]
    exact ⟨rfl, rfl⟩
  induction h with
  | nil hs => exact ⟨(halike hs).1, (halike hs).2.le, by simp⟩
  | @ok s u t c _ calls _ hs _ _ ih =>
    obtain ⟨hfails, hrest, hcalls⟩ := ih
    obtain ⟨hsame, hcall⟩ := u.flushing_call c
    obtain ⟨hfirst, hstart⟩ := halike hs
    refine ⟨hfails.trans (hsame.trans hfirst), by omega, fun x hx => ?_⟩
    rcases List.mem_cons.1 hx with rfl | hx
    · exact hrest
    · exact hcalls x hx
  | @error s u t c _ hs _ ht =>
    obtain ⟨hsame, hcall⟩ := u.flushing_call c
    obtain ⟨hfirst, hstart⟩ := halike hs
    obtain ⟨hlast, hend⟩ := halike ht
    refine ⟨hlast.trans (hsame.trans hfirst), by omega, fun x hx => ?_⟩
    obtain rfl := List.mem_singleton.1 hx
    exact hend.le

namespace Wasm.Machine

variable {M : Machine} {k : ℕ}

/-- The world on an output whose flushes fail from number `k` on. -/
def World.failingFrom (w : M.World) (k : ℕ) : M.World :=
  { w with session := w.session.failingFrom k }

/-- The progress on an output whose flushes fail from number `k` on. -/
def Progress.failingFrom (k : ℕ) : M.Progress → M.Progress
  | .running s session => .running s (session.failingFrom k)
  | .halted outcome w => .halted outcome (w.failingFrom k)
  | .stuck => .stuck

/-- The flushes of the session do not fail, and number `k` has not been made. -/
def Progress.BeforeFlush (k : ℕ) : M.Progress → Prop
  | .running _ session => session.BeforeFlush k
  | .halted _ w => w.session.BeforeFlush k
  | .stuck => True

/-- What a move leads to on a session whose flushes do not fail, and what it leads to when they fail
from number `k` on: the same unless the host call that it asks for makes that flush, and else a halt
with the failure of this call. -/
inductive Progress.UntilFlush (k : ℕ) (s : Session) (c? : Option Call) (p q : M.Progress) :
    Prop where
  /-- Flush number `k` is not made. -/
  | agrees (hbefore : p.BeforeFlush k) (heq : q = p.failingFrom k)
  /-- Flush number `k` is made by a host call. -/
  | stops {x : HostCall} {w : M.World} (hx : x ∈ madeOn s c?) (hmade : x.MakesFlush k)
      (heq : q = .halted (.failed x.flushFailure) w) (hstop : x.session.StoppedAt k w.session)

/-- A move leads to the same until the flush. -/
theorem untilFlush_perform {s : Session} (hs : s.BeforeFlush k) (move : Move M.State M.Store) :
    (M.perform move s).UntilFlush k s move.hostCall? (M.perform move (s.failingFrom k)) := by
  cases move with
  | running next => exact .agrees hs rfl
  | halted outcome store own => exact .agrees hs rfl
  | stuck => exact .agrees trivial rfl
  | calling c store next =>
    simp only [perform]
    rcases hs.call c with ⟨hbefore, heq⟩ | ⟨hmade, hfails, hstop⟩
    · rw [heq]
      cases hcall : s.call c with
      | mk answer after =>
        rw [hcall] at hbefore
        cases answer with
        | ok answer => exact .agrees hbefore rfl
        | error fatal => exact .agrees hbefore rfl
    · have hfaulty : (s.failingFrom k).call c =
          (.error ⟨c.name, .console Console.flushFailed⟩, ((s.failingFrom k).call c).2) := by
        rw [← hfails]
      rw [hfaulty]
      exact .stops (x := ⟨s, c⟩) (by simp [madeOn, Move.hostCall?]) ⟨hs.flushes_lt, hmade⟩ rfl hstop

/-- How a run of the machine ends when flushes do not fail, and how it ends when they fail from
number `k` on: in the same way unless a host call makes that flush, and else with the failure of
this call. -/
inductive EndsUntilFlush (k : ℕ) (calls : List HostCall) (outcome : Outcome) (w : M.World)
    (ended : Option (Outcome × M.World)) : Prop where
  /-- Flush number `k` is not made. -/
  | agrees (hbefore : w.session.BeforeFlush k) (heq : ended = some (outcome, w.failingFrom k))
  /-- Flush number `k` is made by a host call. -/
  | stops {x : HostCall} {w' : M.World} (hx : x ∈ calls) (hmade : x.MakesFlush k)
      (heq : ended = some (.failed x.flushFailure, w')) (hstop : x.session.StoppedAt k w'.session)

/-- A machine that has halted makes no flush. -/
theorem endsUntilFlush_halted (inst : Instance) (n : ℕ) {calls : List HostCall}
    {outcome : Outcome} {w : M.World} (hw : w.session.BeforeFlush k) :
    EndsUntilFlush k calls outcome w (M.run inst n (.halted outcome (w.failingFrom k))) :=
  .agrees hw (run_halted inst n outcome _).1

/-- A run of the machine goes the same way until the flush. -/
theorem untilFlush_run {inst : Instance} {n : ℕ} {s : Session} {c? : Option Call}
    {p q : M.Progress} {outcome : Outcome} {w : M.World} (h : p.UntilFlush k s c? q)
    (hrun : M.run inst n p = some (outcome, w)) :
    EndsUntilFlush k (madeOn s c? ++ M.hostCalls inst n p) outcome w (M.run inst n q) := by
  -- The induction is on the number of moves that may follow.
  induction n generalizing s c? p q with
  | zero =>
    rcases h with ⟨hbefore, rfl⟩ | ⟨hx, hmade, rfl, hstop⟩
    · cases p with
      | running next session => cases hrun
      | stuck => cases hrun
      | halted outcome w =>
        cases hrun
        exact endsUntilFlush_halted inst 0 hbefore
    · exact .stops (List.mem_append_left _ hx) hmade (run_halted inst 0 _ _).1 hstop
  | succ n ih =>
    rcases h with ⟨hbefore, rfl⟩ | ⟨hx, hmade, rfl, hstop⟩
    · cases p with
      | running next session =>
        rcases ih (untilFlush_perform hbefore (M.step inst next)) hrun with
          ⟨hend, heq⟩ | ⟨hx, hmade, heq, hstop⟩
        · exact .agrees hend heq
        · exact .stops (List.mem_append_right _ hx) hmade heq hstop
      | stuck => cases hrun
      | halted outcome w =>
        cases hrun
        exact endsUntilFlush_halted inst (n + 1) hbefore
    · exact .stops (List.mem_append_left _ hx) hmade (run_halted inst (n + 1) _ _).1 hstop

/-- A call of a function goes the same way until the flush. -/
theorem untilFlush_invoke {inst : Instance} {n : ℕ} {f : Callee} {w w' : M.World}
    {outcome : Outcome} (hw : w.session.BeforeFlush k)
    (h : M.invoke inst n f w = some (outcome, w')) :
    EndsUntilFlush k (M.invokeCalls inst n f w) outcome w'
      (M.invoke inst n f (w.failingFrom k)) :=
  untilFlush_run (untilFlush_perform hw (M.call inst f w.store)) h

end Wasm.Machine

namespace Host

open Wasm.Machine (EndsUntilFlush untilFlush_invoke)

/-- What is reported when flushes do not fail, and what is reported when they fail from number `k`
on: the same unless a host call makes that flush, and else what follows from its failure. -/
inductive ReportsUntilFlush (k : ℕ) (calls : List HostCall) (failure : Fatal → Failure)
    (result : Except Failure Unit) (t : Session)
    (reported : Option (Except Failure Unit × Session)) : Prop where
  /-- Flush number `k` is not made. -/
  | agrees (hbefore : t.BeforeFlush k) (heq : reported = some (result, t.failingFrom k))
  /-- Flush number `k` is made by a host call. -/
  | stops {x : HostCall} {t' : Session} (hx : x ∈ calls) (hmade : x.MakesFlush k)
      (heq : reported = some (.error (failure x.flushFailure), t'))
      (hstop : x.session.StoppedAt k t')

variable {h : Host} {n k : ℕ} {m : Wasm.Module} {imports : Array Wasm.Binding}
  {w : h.machine.World} {s t : Session} {outcome : Wasm.Outcome} {result : Except Failure Unit}

/-- The start function goes the same way until the flush. -/
theorem untilFlush_runStart (hlink : m.link? = some imports) (hs : s.BeforeFlush k)
    (hrun : runStart h.machine (h.instantiate m imports) n s = some (outcome, w)) :
    EndsUntilFlush k (h.callsIn n m s .start) outcome w
      (runStart h.machine (h.instantiate m imports) n (s.failingFrom k)) := by
  rw [callsIn, callIn?_start hlink]
  cases hstart : m.start with
  | none =>
    have hnone : (h.instantiate m imports).module.start = none := hstart
    simp only [runStart, hnone] at hrun ⊢
    cases hrun
    exact .agrees hs rfl
  | some f =>
    rw [runStart_of_start h.machine (h.instantiate m imports) hstart] at hrun ⊢
    exact untilFlush_invoke hs hrun

/-- The report of a call does not depend on which flushes fail. -/
theorem settle_failingFrom (outcome : Wasm.Outcome) (w : h.machine.World) :
    settle (outcome, w.failingFrom k) =
      ((settle (outcome, w)).1, (settle (outcome, w)).2.failingFrom k) := by
  cases outcome <;> rfl

/-- What is refused does not depend on which flushes fail. -/
theorem refuse_failingFrom (h : Host) (m : Wasm.Module) (s : Session) :
    h.refuse m (s.failingFrom k) = ((h.refuse m s).1, (h.refuse m s).2.failingFrom k) := by
  unfold refuse
  cases m.exported? h.config.entryPoint <;> rfl

/-- The entry point goes the same way until the flush. -/
theorem untilFlush_callEntry (hlink : m.link? = some imports)
    (hstart : runStart h.machine (h.instantiate m imports) n s = some (.returned, w))
    (hw : w.session.BeforeFlush k)
    (hrun : h.callEntry (h.instantiate m imports) n w = some (result, t)) :
    ReportsUntilFlush k (h.callsIn n m s .entry) .fatal result t
      (h.callEntry (h.instantiate m imports) n (w.failingFrom k)) := by
  rw [callsIn, callIn?_entry hlink hstart]
  rcases callEntry_cases hrun with
    ⟨hf, hrefuse⟩ | ⟨f, outcome, w', hf, hinvoke, hsettle, -, hafter⟩
  · have hafter := (h.refuse_facts m w.session).2
    have hsame := h.refuse_failingFrom (k := k) m w.session
    rw [show h.refuse m w.session = (result, t) from hrefuse] at hafter hsame
    exact .agrees (hw.alike hafter) ((callEntry_of_none hf).trans (congrArg some hsame))
  · have hsame := settle_failingFrom (k := k) outcome w'
    rw [hsettle] at hsame
    have hcalling : (h.calling w).session.BeforeFlush k := ⟨hw.failingFlush, hw.flushes_lt⟩
    rw [callEntry_of_entryPoint? hf, hf]
    rcases untilFlush_invoke hcalling hinvoke with ⟨hbefore, heq⟩ | ⟨hx, hmade, heq, hstop⟩
    · exact .agrees (hbefore.alike hafter)
        ((congrArg (Option.map settle) heq).trans (congrArg some hsame))
    · exact .stops hx hmade (congrArg (Option.map settle) heq) ⟨hstop.heap, hstop.output⟩

/-- A run goes the same way until the flush, when it is not the last one. -/
theorem untilFlush_execute (hs : s.BeforeFlush k) (hrun : h.execute n m s = some (result, t)) :
    ∃ phase : Phase, ReportsUntilFlush k (h.callsIn n m s phase) (Phase.failure · phase) result t
      (h.execute n m (s.failingFrom k)) := by
  rcases execute_cases hrun with ⟨hlink, rfl, rfl⟩ |
    ⟨imports, outcome, w, hlink, hstart, hends, rfl, rfl⟩ | ⟨imports, w, hlink, hstart, hentry⟩
  · exact ⟨.start, .agrees hs (execute_of_link?_eq_none hlink)⟩
  · refine ⟨.start, ?_⟩
    rcases untilFlush_runStart hlink hs hstart with ⟨hbefore, heq⟩ | ⟨hx, hmade, heq, hstop⟩
    · exact .agrees hbefore (execute_of_ne_returned hlink heq hends)
    · exact .stops hx hmade (execute_of_ne_returned hlink heq (by simp)) hstop
  · rcases untilFlush_runStart hlink hs hstart with ⟨hbefore, heq⟩ | ⟨hx, hmade, heq, hstop⟩
    · refine ⟨.entry, ?_⟩
      rw [execute_of_returned hlink heq]
      exact untilFlush_callEntry hlink hstart hbefore hentry
    · exact ⟨.start, .stops hx hmade (execute_of_ne_returned hlink heq (by simp)) hstop⟩

/-- A host call of a phase is one of the run. -/
theorem mem_hostCalls {phase : Phase} {x : HostCall} (hx : x ∈ h.callsIn n m s phase) :
    x ∈ h.hostCalls n m s := by
  rw [hostCalls, List.mem_append]
  cases phase with
  | start => exact .inl hx
  | entry => exact .inr hx

/-- A run whose flushes do not fail, and the same run on an output whose flushes fail from number
`k` on. The last flush is made at the end, however the run ends. If number `k` comes after it, the
runs are the same. If it is the last flush, its failure is reported unless the run failed before,
and nothing else is changed. If it comes before the last one, it is made by a call of a function
that reads, which writes nothing: the run ends there with the failure of that call, after what was
written before the call, and with one more flush at the end. -/
theorem run_of_failing_flush (hnone : s.console.output.failingFlush = none) (hk : s.flushes < k)
    (hrun : h.run n m s = some (result, t)) :
    s.flushes < t.flushes ∧ t.console.events.head? = some (.flushed true) ∧
      ∃ result' t', h.run n m (s.failingFrom k) = some (result', t') ∧
        (t.flushes < k → result' = result ∧ t' = t.failingFrom k) ∧
        (k = t.flushes → t'.heap = t.heap ∧
          t'.console.output = { t.console.output with failingFlush := some k } ∧
          (result = .ok () →
            result' = .error (.fatal ⟨"finish", .console Console.flushFailed⟩)) ∧
          ∀ failure, result = .error failure → result' = .error failure) ∧
        (k < t.flushes → ∃ phase, ∃ x ∈ h.callsIn n m s phase, x.MakesFlush k ∧
          (x.call = .readi ∨ x.call = .reads) ∧
          (x.session.call x.call).2.console.output.written = x.session.console.output.written ∧
          t'.console.output.written = x.session.console.output.written ∧ t'.flushes = k + 1 ∧
          result' = .error (phase.failure x.flushFailure)) := by
  obtain ⟨⟨executed, u⟩, hexecute, -⟩ := Option.map_eq_some_iff.1 hrun
  -- The flushes of the run are those of its host calls and the last one.
  obtain ⟨fatal?, hleads⟩ := leads_execute hexecute
  obtain ⟨hfails, hstart, hcalls⟩ := hleads.flushing
  rw [hnone] at hfails
  have hfinish := Session.finish_of_none hfails
  have hlast : u.finish.2.flushes = u.flushes + 1 := by rw [hfinish]
  have hran := run_of_execute hexecute
  rw [hrun, hfinish] at hran
  obtain ⟨rfl, rfl⟩ : result = executed ∧ t = u.finish.2 := by
    rw [hfinish]
    cases executed <;> simpa [Except.bind] using hran
  refine ⟨by omega, by rw [hfinish]; rfl, ?_⟩
  obtain ⟨phase, hreports⟩ := untilFlush_execute ⟨hnone, hk⟩ hexecute
  cases hreports with
  | agrees hbefore heq =>
    have hlt := hbefore.flushes_lt
    have hran' := run_of_execute heq
    refine ⟨_, _, hran', fun hafter => ?_, fun hequal => ?_, fun hmade => by omega⟩
    · rw [Session.finish_failingFrom_of_lt hfails (by omega)]
      refine ⟨?_, rfl⟩
      cases result <;> rfl
    · have hle : k ≤ (u.failingFrom k).flushes + 1 := by
        show k ≤ u.flushes + 1
        omega
      rw [Session.finish_of_le rfl hle, hfinish]
      refine ⟨rfl, rfl, ?_, ?_⟩
      · rintro rfl
        rfl
      · rintro failure rfl
        rfl
  | @stops x t' hx hmade heq hstop =>
    have hmost := hcalls x (mem_hostCalls hx)
    have hle := hmade.2
    have hstopped : t'.flushes = k := by rw [Session.flushes, hstop.output]
    -- The last flush fails as well, but the run has failed before.
    have hagain := Session.finish_of_le (s := t') (by rw [hstop.output]) (by omega)
    refine ⟨_, _, run_of_execute heq, fun hafter => by omega, fun hequal => by omega, fun _ => ?_⟩
    rw [hagain]
    refine ⟨phase, x, hx, hmade, hmade.reads.1, hmade.reads.2, ?_, ?_, rfl⟩
    · show t'.console.output.written = _
      rw [hstop.output]
    · show t'.flushes + 1 = _
      rw [hstopped]

/-- A module that prints 7, reads a line, prints 8 and reads a number. -/
def asking : Wasm.Module where
  imports := #[⟨"drac", "printi", .func ⟨[.i32], [.i32]⟩⟩, ⟨"drac", "reads", .func ⟨[], [.i32]⟩⟩,
    ⟨"drac", "readi", .func ⟨[], [.i32]⟩⟩]
  globals := #[]
  funcs := #[⟨⟨[], []⟩, [],
    .instr (.const32 7) (.call (.imported 0) (.instr .drop (.call (.imported 1) (.instr .drop
      (.instr (.const32 8) (.call (.imported 0) (.instr .drop (.call (.imported 2)
        (.instr .drop .done)))))))))⟩]
  exports := [("main", .defined 0)]
  start := none

/-- The run of a module that makes four flushes, when the third one fails: `readi` fails at the
second line that it tries. -/
theorem run_of_failing_flush_readi :
    let s := Session.start (.scripted [97, 10, 98, 10, 53, 10])
    let fatal : Fatal := ⟨"readi", .console Console.flushFailed⟩
    s.console.output.failingFlush = none ∧ s.flushes < 3 ∧
      ∃ t, standard.run 40 asking s = some (.ok (), t) ∧ t.flushes = 4 ∧
      ∃ t', standard.run 40 asking (s.failingFrom 3) = some (.error (.fatal fatal), t') ∧
        t'.flushes = 4 := by
  intro s fatal
  have hended : (standard.run 40 asking s).map (fun r => (r.1, r.2.flushes)) =
    some (.ok (), 4) := by decide +kernel
  obtain ⟨⟨result, t⟩, hrun, hended⟩ := Option.map_eq_some_iff.1 hended
  obtain ⟨rfl, hflushes⟩ : result = .ok () ∧ t.flushes = 4 := by simpa using hended
  obtain ⟨-, -, result', t', hrun', -, -, hstops⟩ :=
    run_of_failing_flush (k := 3) rfl (by decide) hrun
  obtain ⟨phase, x, hx, hmade, -, -, -, hflushes', rfl⟩ := hstops (by omega)
  -- Of the four host calls, one makes the flush.
  have hreadi : ∀ x ∈ standard.callsIn 40 asking s phase, x.MakesFlush 3 →
      phase.failure x.flushFailure = .fatal fatal := by
    cases phase <;> decide +kernel
  rw [hreadi x hx hmade] at hrun'
  exact ⟨rfl, by decide, t, hrun, hflushes, t', hrun', hflushes'⟩

end Host

end ArrayHost
