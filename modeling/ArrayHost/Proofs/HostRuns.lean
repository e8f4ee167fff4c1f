import Mathlib.Control.Monad.Basic
import ArrayHost.Proofs.HostCalls
import ArrayHost.Host

/-!
# The host calls of a run

Module code runs twice in a run, first in the start function and then in the entry point. `callIn?`
is the function that a run calls in a phase, `callsIn` lists the host calls that are made in it, and
`outcomeIn?` is how the machine says that it ends. What is reported of a run follows from how its
module code ends (`execute_of_outcomeIn?`), and what is reported when no entry point is called is
none of the failures that an entry point can have, but for a trap (`report_of_execute`).

A run does to its session what its host calls do and a flush after them, and it stops at the first
that fails. A fatal failure is reported exactly when the last host call of the entry point failed
with it, or the flush after an entry point that returned (`run_acts_through_calls`). All of this
holds of every machine.
-/

namespace ArrayHost

open Session (Alike Leads Step)

/-- The two phases of a run in which module code runs. -/
inductive Phase where
  /-- The start function. -/
  | start
  /-- The entry point. -/
  | entry

namespace Host

/-- What is reported of an entry point that ends in the given way. -/
def reported : Wasm.Outcome → Except Failure Unit
  | .returned => .ok ()
  | .trapped trap => .error (.trap trap.message)
  | .failed fatal => .error (.fatal fatal)
  | .outOfFuel => .error .outOfFuel

/-- What is reported of a run that ends in a phase because module code ends there. -/
def reportedIn (outcome : Wasm.Outcome) : Phase → Except Failure Unit
  | .start => .error notStarted
  | .entry => reported outcome

/-- The failures that are reported of a module whose entry point is not called. -/
inductive BeforeEntry (m : Wasm.Module) : Failure → Prop where
  /-- The module is not linked. -/
  | notLinked (hlink : m.link? = none) : BeforeEntry m notLinked
  /-- The start function does not return. -/
  | notStarted : BeforeEntry m notStarted
  /-- No entry point is exported. -/
  | missingEntryPoint (name : String) : BeforeEntry m (.missingEntryPoint name)
  /-- The entry point takes arguments. -/
  | notApplicable (params : Nat) : BeforeEntry m (notApplicable params)

/-- A host function that fails is reported only of an entry point that was called. -/
theorem BeforeEntry.ne_fatal {m : Wasm.Module} {failure : Failure} (h : BeforeEntry m failure)
    (fatal : Fatal) : failure ≠ .fatal fatal := by
  rintro rfl
  cases h

/-- A function of a module that is called, and what it is called on. -/
structure ModuleCall (h : Host) where
  /-- The instance of the module. -/
  inst : Wasm.Instance
  /-- The function. -/
  callee : Wasm.Callee
  /-- The session and the store at the call. -/
  world : h.machine.World

/-- The host calls that are made in at most `n` moves after a call. -/
def ModuleCall.hostCalls {h : Host} (c : h.ModuleCall) (n : Nat) : List HostCall :=
  h.machine.invokeCalls c.inst n c.callee c.world

/-- How a call ends, if it does in at most `n` moves more. -/
def ModuleCall.outcome? {h : Host} (c : h.ModuleCall) (n : Nat) : Option Wasm.Outcome :=
  (h.machine.invoke c.inst n c.callee c.world).map Prod.fst

/-- The entry point, if it is exported and takes no arguments. -/
def entryPoint? (h : Host) (inst : Wasm.Instance) : Option Wasm.Callee :=
  (inst.module.exported? h.config.entryPoint).filter fun f => inst.module.arity f = 0

/-- What becomes of an entry point that is not called. -/
def refuse (h : Host) (m : Wasm.Module) (s : Session) : Except Failure Unit × Session :=
  match m.exported? h.config.entryPoint with
  | none => (.error (.missingEntryPoint h.config.entryPoint), s)
  | some f => (.error (notApplicable (m.arity f)), s.report (.calling h.config.entryPoint))

/-- Puts on the log that the entry point is called. -/
def calling (h : Host) (w : h.machine.World) : h.machine.World :=
  { w with session := w.session.report (.calling h.config.entryPoint) }

section

variable (h : Host) (n : Nat) (m : Wasm.Module) (s : Session)

/-- The function that a run calls in one of its phases, if it comes to that. -/
def callIn? (phase : Phase) : Option h.ModuleCall :=
  match m.link? with
  | none => none
  | some imports =>
    let inst := h.instantiate m imports
    match phase with
    | .start => m.start.map fun f => ⟨inst, f, ⟨s, h.machine.fresh m⟩⟩
    | .entry =>
      match runStart h.machine inst n s with
      | some (.returned, w) => (h.entryPoint? inst).map fun f => ⟨inst, f, h.calling w⟩
      | _ => none

/-- The host calls that a run makes in one of its phases, in at most `n` moves of it. -/
def callsIn (phase : Phase) : List HostCall :=
  (h.callIn? n m s phase).elim [] fun c => c.hostCalls n

/-- The host calls that a run makes, in order. -/
def hostCalls : List HostCall := h.callsIn n m s .start ++ h.callsIn n m s .entry

/-- How module code ends in one of the phases of a run, if it runs there. -/
def outcomeIn? (phase : Phase) : Option Wasm.Outcome :=
  (h.callIn? n m s phase).bind fun c => c.outcome? n

end

variable {h : Host} {n : Nat} {m : Wasm.Module} {inst : Wasm.Instance} {w : h.machine.World}
  {s t : Session} {outcome : Wasm.Outcome} {result : Except Failure Unit} {f : Wasm.Callee}
  {phase : Phase} {imports : Array Wasm.Binding}

/-! ## The two phases -/

/-- A start function is called on the session of the run. -/
theorem runStart_of_start (machine : Wasm.Machine) (inst : Wasm.Instance)
    (hf : inst.module.start = some f) :
    runStart machine inst n s = machine.invoke inst n f ⟨s, machine.fresh inst.module⟩ := by
  simp only [runStart, hf]

/-- The entry point is called, and how it ends is settled. -/
theorem callEntry_of_entryPoint? (hf : h.entryPoint? inst = some f) :
    h.callEntry inst n w = (h.machine.invoke inst n f (h.calling w)).map settle := by
  obtain ⟨hexported, harity⟩ := Option.filter_eq_some_iff.1 hf
  simp only [callEntry, hexported]
  exact if_pos (of_decide_eq_true harity)

/-- Without an entry point that can be called, this is all that becomes of it. -/
theorem callEntry_of_none (hf : h.entryPoint? inst = none) :
    h.callEntry inst n w = some (h.refuse inst.module w.session) := by
  cases hexported : inst.module.exported? h.config.entryPoint with
  | none => simp only [callEntry, refuse, hexported]
  | some f =>
    have harity : ¬ inst.module.arity f = 0 := by simpa [entryPoint?, hexported] using hf
    simp only [callEntry, refuse, hexported]
    exact if_neg harity

/-- What is refused fails before the entry point, and the log has at most one record more. -/
theorem refuse_facts (h : Host) (m : Wasm.Module) (s : Session) :
    (∃ failure, (h.refuse m s).1 = .error failure ∧ BeforeEntry m failure) ∧
      s.Alike (h.refuse m s).2 := by
  unfold refuse
  cases m.exported? h.config.entryPoint with
  | none => exact ⟨⟨_, rfl, .missingEntryPoint _⟩, .refl s⟩
  | some f => exact ⟨⟨_, rfl, .notApplicable _⟩, ((Alike.refl s).report _).symm⟩

/-- A settled call reports how it ended, and leaves a session that differs in its log at most. -/
theorem settle_facts (outcome : Wasm.Outcome) (w : h.machine.World) :
    (settle (outcome, w)).1 = reported outcome ∧ w.session.Alike (settle (outcome, w)).2 := by
  cases outcome with
  | failed fatal => exact ⟨rfl, ((Alike.refl _).report _).symm⟩
  | returned | trapped | outOfFuel => exact ⟨rfl, .refl _⟩

/-- What becomes of the entry point: it cannot be called, or what is reported is how its call
ended. -/
theorem callEntry_cases (hrun : h.callEntry inst n w = some (result, t)) :
    (h.entryPoint? inst = none ∧ h.refuse inst.module w.session = (result, t)) ∨
    ∃ f outcome w', h.entryPoint? inst = some f ∧
      h.machine.invoke inst n f (h.calling w) = some (outcome, w') ∧
      settle (outcome, w') = (result, t) ∧ result = reported outcome ∧ w'.session.Alike t := by
  cases hf : h.entryPoint? inst with
  | none => exact .inl ⟨rfl, Option.some.inj ((callEntry_of_none hf).symm.trans hrun)⟩
  | some f =>
    rw [callEntry_of_entryPoint? hf] at hrun
    obtain ⟨⟨outcome, w'⟩, hinvoke, hsettle⟩ := Option.map_eq_some_iff.1 hrun
    obtain ⟨hreport, hafter⟩ := settle_facts outcome w'
    rw [hsettle] at hreport hafter
    exact .inr ⟨f, outcome, w', rfl, hinvoke, hsettle, hreport, hafter⟩

/-- The function that is called in the start phase is the start function. -/
theorem callIn?_start (hlink : m.link? = some imports) : h.callIn? n m s .start =
    m.start.map fun f => ⟨h.instantiate m imports, f, ⟨s, h.machine.fresh m⟩⟩ := by
  simp only [callIn?, hlink]

/-- The function that is called in the entry phase is the entry point, once the start function has
returned. -/
theorem callIn?_entry (hlink : m.link? = some imports)
    (hstart : runStart h.machine (h.instantiate m imports) n s = some (.returned, w)) :
    h.callIn? n m s .entry = (h.entryPoint? (h.instantiate m imports)).map fun f =>
      ⟨h.instantiate m imports, f, h.calling w⟩ := by
  simp only [callIn?, hlink, hstart]

/-- No function is called in the entry phase when the start function does not return. -/
theorem callIn?_entry_eq_none (hlink : m.link? = some imports)
    (hstart : ∀ w, runStart h.machine (h.instantiate m imports) n s ≠ some (.returned, w)) :
    h.callIn? n m s .entry = none := by
  simp only [callIn?, hlink]

/-- What has come before a function is called in the entry phase. -/
theorem of_callIn?_entry {c : h.ModuleCall} (hc : h.callIn? n m s .entry = some c) :
    ∃ imports w f, m.link? = some imports ∧
      runStart h.machine (h.instantiate m imports) n s = some (.returned, w) ∧
      h.entryPoint? (h.instantiate m imports) = some f ∧
      c = ⟨h.instantiate m imports, f, h.calling w⟩ := by
  cases hlink : m.link? with
  | none => simp [callIn?, hlink] at hc
  | some imports =>
    cases hstart : runStart h.machine (h.instantiate m imports) n s with
    | none => simp [callIn?_entry_eq_none hlink, hstart] at hc
    | some ended =>
      obtain ⟨first, w⟩ := ended
      cases first with
      | returned =>
        rw [callIn?_entry hlink hstart] at hc
        obtain ⟨f, hf, rfl⟩ := Option.map_eq_some_iff.1 hc
        exact ⟨imports, w, f, rfl, hstart, hf, rfl⟩
      | trapped | failed | outOfFuel => simp [callIn?_entry_eq_none hlink, hstart] at hc

/-- A module that is not linked is not run. -/
theorem execute_of_link?_eq_none (hlink : m.link? = none) :
    h.execute n m s = some (.error notLinked, s) := by
  simp only [execute, hlink]

/-- A run that ends has come through the start function. -/
theorem isSome_runStart_of_execute (hlink : m.link? = some imports)
    (hrun : (h.execute n m s).isSome = true) :
    (runStart h.machine (h.instantiate m imports) n s).isSome = true := by
  simp only [execute, hlink] at hrun
  cases hstart : runStart h.machine (h.instantiate m imports) n s with
  | none => simp [hstart] at hrun
  | some ended => rfl

/-- A run whose start function does not return ends there. -/
theorem execute_of_ne_returned (hlink : m.link? = some imports)
    (hstart : runStart h.machine (h.instantiate m imports) n s = some (outcome, w))
    (hends : outcome ≠ .returned) : h.execute n m s = some (.error notStarted, w.session) := by
  simp only [execute, hlink, hstart]

/-- How a start function ends, if it does not return, is how module code ends in its phase. -/
theorem outcomeIn?_start (hlink : m.link? = some imports)
    (hstart : runStart h.machine (h.instantiate m imports) n s = some (outcome, w))
    (hends : outcome ≠ .returned) : h.outcomeIn? n m s .start = some outcome := by
  rw [outcomeIn?, callIn?_start hlink]
  cases hf : m.start with
  | none =>
    have hnone : (h.instantiate m imports).module.start = none := hf
    simp only [runStart, hnone] at hstart
    cases hstart
    exact absurd rfl hends
  | some f =>
    rw [runStart_of_start h.machine (h.instantiate m imports) hf] at hstart
    exact congrArg (Option.map Prod.fst) hstart

/-- A run whose start function returns comes to its entry point. -/
theorem execute_of_returned (hlink : m.link? = some imports)
    (hstart : runStart h.machine (h.instantiate m imports) n s = some (.returned, w)) :
    h.execute n m s = h.callEntry (h.instantiate m imports) n w := by
  simp only [execute, hlink, hstart]

/-- How a run comes to its flush: its module is not linked, its start function does not return, or
its entry point is called. -/
theorem execute_cases (hrun : h.execute n m s = some (result, t)) :
    (m.link? = none ∧ result = .error notLinked ∧ t = s) ∨
    (∃ imports outcome w, m.link? = some imports ∧
      runStart h.machine (h.instantiate m imports) n s = some (outcome, w) ∧
      outcome ≠ .returned ∧ result = .error notStarted ∧ t = w.session) ∨
    ∃ imports w, m.link? = some imports ∧
      runStart h.machine (h.instantiate m imports) n s = some (.returned, w) ∧
      h.callEntry (h.instantiate m imports) n w = some (result, t) := by
  cases hlink : m.link? with
  | none =>
    rw [execute_of_link?_eq_none hlink] at hrun
    cases hrun
    exact .inl ⟨rfl, rfl, rfl⟩
  | some imports =>
    obtain ⟨⟨outcome, w⟩, hstart⟩ := Option.isSome_iff_exists.1
      (isSome_runStart_of_execute hlink (Option.isSome_of_eq_some hrun))
    by_cases hends : outcome = .returned
    · subst hends
      rw [execute_of_returned hlink hstart] at hrun
      exact .inr (.inr ⟨imports, w, rfl, hstart, hrun⟩)
    · rw [execute_of_ne_returned hlink hstart hends] at hrun
      cases hrun
      exact .inr (.inl ⟨imports, outcome, w, rfl, hstart, hends, rfl, rfl⟩)

/-- A run has no answer exactly when the function that it calls in one of its phases has not ended.
-/
theorem run_eq_none_iff_outcome? : h.run n m s = none ↔
    ∃ phase, ∃ c ∈ h.callIn? n m s phase, c.outcome? n = none := by
  rw [run, Option.map_eq_none_iff]
  cases hlink : m.link? with
  | none => simp [execute_of_link?_eq_none hlink, callIn?, hlink]
  | some imports =>
    constructor
    · intro hrun
      cases hstart : runStart h.machine (h.instantiate m imports) n s with
      | none =>
        cases hf : m.start with
        | none => simp [runStart, instantiate, hf] at hstart
        | some f =>
          rw [runStart_of_start h.machine (h.instantiate m imports) hf] at hstart
          refine ⟨.start, _, by rw [callIn?_start hlink, hf]; rfl, ?_⟩
          exact congrArg (Option.map Prod.fst) hstart
      | some ended =>
        obtain ⟨outcome, w⟩ := ended
        by_cases hends : outcome = .returned
        · subst hends
          rw [execute_of_returned hlink hstart] at hrun
          cases hf : h.entryPoint? (h.instantiate m imports) with
          | none => simp [callEntry_of_none hf] at hrun
          | some f =>
            rw [callEntry_of_entryPoint? hf, Option.map_eq_none_iff] at hrun
            refine ⟨.entry, _, by rw [callIn?_entry hlink hstart, hf]; rfl, ?_⟩
            exact congrArg (Option.map Prod.fst) hrun
        · simp [execute_of_ne_returned hlink hstart hends] at hrun
    · rintro ⟨phase, c, hc, hcall⟩
      have hinvoke := Option.map_eq_none_iff.1 hcall
      cases phase with
      | start =>
        rw [callIn?_start hlink] at hc
        obtain ⟨f, hf, rfl⟩ := Option.map_eq_some_iff.1 hc
        have hstart := (runStart_of_start h.machine (h.instantiate m imports) hf).trans hinvoke
        simp only [execute, hlink, hstart]
      | entry =>
        obtain ⟨imports', w, f, hlink', hstart, hf, rfl⟩ := of_callIn?_entry hc
        rw [execute_of_returned hlink' hstart, callEntry_of_entryPoint? hf]
        exact Option.map_eq_none_iff.2 hinvoke

/-- A run ends in the phase in which module code ends, if it does not go on to the next. -/
theorem execute_of_outcomeIn? (houtcome : h.outcomeIn? n m s phase = some outcome)
    (hends : phase = .start → outcome ≠ .returned) :
    ∃ t, h.execute n m s = some (reportedIn outcome phase, t) := by
  obtain ⟨c, hc, hcall⟩ := Option.bind_eq_some_iff.1 houtcome
  obtain ⟨⟨outcome', w'⟩, hinvoke, rfl⟩ := Option.map_eq_some_iff.1 hcall
  cases phase with
  | start =>
    cases hlink : m.link? with
    | none => simp [callIn?, hlink] at hc
    | some imports =>
      rw [callIn?_start hlink] at hc
      obtain ⟨f, hf, rfl⟩ := Option.map_eq_some_iff.1 hc
      have hstart := (runStart_of_start h.machine (h.instantiate m imports) hf).trans hinvoke
      exact ⟨w'.session, execute_of_ne_returned hlink hstart (hends rfl)⟩
  | entry =>
    obtain ⟨imports, w, f, hlink, hstart, hf, rfl⟩ := of_callIn?_entry hc
    rw [execute_of_returned hlink hstart, callEntry_of_entryPoint? hf]
    refine ⟨(settle (outcome', w')).2, ?_⟩
    rw [reportedIn, ← (settle_facts outcome' w').1]
    exact congrArg (Option.map settle) hinvoke

/-- Until the flush, what is reported of a run is what is reported of its entry point, or of
something that went wrong before the entry point was called. -/
theorem report_of_execute (hrun : h.execute n m s = some (result, t)) :
    (∃ outcome, h.outcomeIn? n m s .entry = some outcome ∧ result = reported outcome) ∨
      h.callIn? n m s .entry = none ∧
        ∃ failure, result = .error failure ∧ BeforeEntry m failure := by
  rcases execute_cases hrun with ⟨hlink, rfl, -⟩ |
    ⟨imports, first, w, hlink, hstart, hends, rfl, -⟩ | ⟨imports, w, hlink, hstart, hentry⟩
  · exact .inr ⟨by simp only [callIn?, hlink], _, rfl, .notLinked hlink⟩
  · exact .inr ⟨callIn?_entry_eq_none hlink (by simp [hstart, hends]), _, rfl, .notStarted⟩
  · have hcall := callIn?_entry hlink hstart
    rcases callEntry_cases hentry with
      ⟨hf, hrefuse⟩ | ⟨f, outcome, w', hf, hinvoke, -, hreport, -⟩
    · obtain ⟨failure, hreport, hbefore⟩ := (h.refuse_facts m w.session).1
      rw [hf] at hcall
      exact .inr ⟨hcall, failure, (congrArg Prod.fst hrefuse).symm.trans hreport, hbefore⟩
    · refine .inl ⟨outcome, ?_, hreport⟩
      rw [outcomeIn?, hcall, hf]
      exact congrArg (Option.map Prod.fst) hinvoke

/-- In each phase, module code ends with the failure of a host function exactly when the last host
call of the phase failed with it. -/
theorem outcomeIn?_eq_failed_iff (houtcome : h.outcomeIn? n m s phase = some outcome)
    (fatal : Fatal) :
    outcome = .failed fatal ↔ ∃ x ∈ (h.callsIn n m s phase).getLast?, x.answer = .error fatal := by
  obtain ⟨c, hc, hcall⟩ := Option.bind_eq_some_iff.1 houtcome
  obtain ⟨⟨outcome', w'⟩, hinvoke, rfl⟩ := Option.map_eq_some_iff.1 hcall
  have hfailed : outcome' = .failed fatal ↔ outcome'.fatal? = some fatal := by
    cases outcome' <;> simp [Wasm.Outcome.fatal?]
  rw [callsIn, hc, hfailed]
  exact (Wasm.Machine.leads_invoke hinvoke).fatal?_eq_some_iff fatal

/-- The start function does to the session what its host calls do. -/
theorem leads_runStart (hlink : m.link? = some imports) {w : h.machine.World}
    (hrun : runStart h.machine (h.instantiate m imports) n s = some (outcome, w)) :
    s.Leads (h.callsIn n m s .start) outcome.fatal? w.session := by
  rw [callsIn, callIn?_start hlink]
  cases hf : m.start with
  | none =>
    have hnone : (h.instantiate m imports).module.start = none := hf
    simp only [runStart, hnone] at hrun
    cases hrun
    exact .nil (.refl s)
  | some f =>
    rw [runStart_of_start h.machine (h.instantiate m imports) hf] at hrun
    exact Wasm.Machine.leads_invoke hrun

/-- The entry point, if it is called, does to the session what its host calls do. -/
theorem leads_callEntry (hlink : m.link? = some imports) {w : h.machine.World}
    (hstart : runStart h.machine (h.instantiate m imports) n s = some (.returned, w))
    (hrun : h.callEntry (h.instantiate m imports) n w = some (result, t)) :
    ∃ fatal?, w.session.Leads (h.callsIn n m s .entry) fatal? t := by
  -- The session that the entry point starts on has one record more on its log.
  have hreport := ((Alike.refl w.session).report (.calling h.config.entryPoint)).symm
  rw [callsIn, callIn?_entry hlink hstart]
  rcases callEntry_cases hrun with
    ⟨hf, hrefuse⟩ | ⟨f, outcome, w', hf, hinvoke, -, -, hafter⟩
  · have hafter := (h.refuse_facts m w.session).2
    rw [show h.refuse m w.session = (result, t) from hrefuse] at hafter
    rw [hf]
    exact ⟨none, .nil hafter⟩
  · rw [hf]
    exact ⟨_, ((Wasm.Machine.leads_invoke hinvoke).alike_left hreport).alike_right hafter⟩

/-! ## Whole runs -/

/-- Until the flush, a run does to its session what its host calls do. -/
theorem leads_execute (hrun : h.execute n m s = some (result, t)) :
    ∃ fatal?, s.Leads (h.hostCalls n m s) fatal? t := by
  rcases execute_cases hrun with ⟨hlink, -, rfl⟩ |
    ⟨imports, first, w, hlink, hstart, hends, -, rfl⟩ | ⟨imports, w, hlink, hstart, hentry⟩
  · refine ⟨none, ?_⟩
    simp only [hostCalls, callsIn, callIn?, hlink]
    exact .nil (.refl t)
  -- Where the start function does not return, the entry point is not called.
  · have hnone := callIn?_entry_eq_none (h := h) (n := n) (s := s) hlink (by simp [hstart, hends])
    have hsecond : h.callsIn n m s .entry = [] := by rw [callsIn, hnone, Option.elim_none]
    exact ⟨_, by simpa only [hostCalls, hsecond, List.append_nil] using leads_runStart hlink hstart⟩
  -- Where it does, its calls all succeeded, and those of the entry point follow.
  · obtain ⟨fatal?, hsecond⟩ := leads_callEntry hlink hstart hentry
    exact ⟨fatal?, (leads_runStart hlink hstart).append hsecond⟩

/-- A run flushes its output at its end. The failure of the flush is reported when nothing failed
before. -/
theorem run_of_execute {executed : Except Failure Unit}
    (hexecute : h.execute n m s = some (executed, t)) :
    h.run n m s = some (executed.bind fun _ => t.finish.1.mapError .fatal, t.finish.2) := by
  simp only [run, hexecute]
  rfl

/-- A run that ends has come to the flush at its end. -/
theorem exists_execute_of_run (hrun : h.run n m s = some (result, t)) :
    ∃ executed u, h.execute n m s = some (executed, u) ∧
      result = executed.bind (fun _ => u.finish.1.mapError .fatal) ∧ t = u.finish.2 := by
  obtain ⟨⟨executed, u⟩, hexecute, hfinish⟩ := Option.map_eq_some_iff.1 hrun
  cases hfinish
  exact ⟨executed, u, hexecute, rfl, rfl⟩

/-- When the entry point is called, the start function has not failed: the last host call of the run
fails when the last one of the entry point does. -/
theorem getLast?_hostCalls (houtcome : h.outcomeIn? n m s .entry = some outcome) (fatal : Fatal) :
    (∃ x ∈ (h.hostCalls n m s).getLast?, x.answer = .error fatal) ↔
      ∃ x ∈ (h.callsIn n m s .entry).getLast?, x.answer = .error fatal := by
  obtain ⟨c, hc, -⟩ := Option.bind_eq_some_iff.1 houtcome
  obtain ⟨imports, w, f, hlink, hstart, -, -⟩ := of_callIn?_entry hc
  have hfirst := (leads_runStart hlink hstart).fatal?_eq_some_iff fatal
  rw [hostCalls, List.getLast?_append]
  cases (h.callsIn n m s .entry).getLast? with
  | none => simpa [Wasm.Outcome.fatal?] using hfirst
  | some x => simp

/-- A run acts on its session only through the host calls of its module. The heap and the console
after it are those that the calls, carried out by themselves, and one flush lead to. All calls but
the last succeed. A fatal failure is reported exactly when the last host call of the entry point
failed with it, or the flush after an entry point that returned. When the entry point is called, the
machine ends with the failure of a host function exactly when the last host call of the run failed
with it, and a trap and the lack of fuel are reported as what they are. -/
theorem run_acts_through_calls (hrun : h.run n m s = some (result, t)) :
    let calls := h.hostCalls n m s
    let ops := calls.map HostCall.operation
    t.Alike (s.performAll (ops ++ [.finish])) ∧
      (s.trace ops).map Step.answer = calls.map HostCall.answer ∧
      (∀ x ∈ calls.dropLast, ∃ answer, x.answer = .ok answer) ∧
      (∀ fatal, result = .error (.fatal fatal) ↔
        (∃ x ∈ (h.callsIn n m s .entry).getLast?, x.answer = .error fatal) ∨
          h.outcomeIn? n m s .entry = some .returned ∧
            (s.performAll ops).finish.1 = .error fatal) ∧
      ∀ outcome, h.outcomeIn? n m s .entry = some outcome →
        (∀ fatal, outcome = .failed fatal ↔ ∃ x ∈ calls.getLast?, x.answer = .error fatal) ∧
        (∀ fatal, outcome = .failed fatal → result = .error (.fatal fatal)) ∧
        (∀ trap, outcome = .trapped trap → result = .error (.trap trap.message)) ∧
        (outcome = .outOfFuel → result = .error .outOfFuel) ∧
        (outcome = .returned → result = (s.performAll ops).finish.1.mapError .fatal) := by
  intro calls ops
  obtain ⟨executed, u, hexecute, rfl, rfl⟩ := exists_execute_of_run hrun
  obtain ⟨fatal?, hleads⟩ := leads_execute hexecute
  have halike := hleads.alike_performAll
  have hflush : u.finish.1 = (s.performAll ops).finish.1 := halike.finish.1
  rw [hflush]
  have hfailed (outcome : Wasm.Outcome) (houtcome : h.outcomeIn? n m s .entry = some outcome)
      (fatal : Fatal) := outcomeIn?_eq_failed_iff houtcome fatal
  refine ⟨?_, hleads.answers_eq, hleads.ok_of_mem_dropLast, fun fatal => ?_,
    fun outcome houtcome => ?_⟩
  -- The flush comes after all calls, and does not replace a failure that came before it.
  · rw [Session.performAll_concat]
    exact (halike.perform .finish).2
  · rcases report_of_execute hexecute with ⟨outcome, houtcome, rfl⟩ | ⟨hnone, failure, rfl, hbefore⟩
    · rw [← hfailed outcome houtcome fatal, houtcome]
      cases outcome with
      | returned =>
        cases (s.performAll ops).finish.1 <;> simp [reported, Except.bind, Except.mapError]
      | trapped | failed | outOfFuel => simp [reported, Except.bind]
    · have hcalls : h.callsIn n m s .entry = [] := by rw [callsIn, hnone, Option.elim_none]
      have houtcome : h.outcomeIn? n m s .entry = none := by
        rw [outcomeIn?, hnone, Option.bind_none]
      rw [hcalls, houtcome]
      simpa [Except.bind] using hbefore.ne_fatal fatal
  · obtain ⟨t', hended⟩ := execute_of_outcomeIn? houtcome (by simp)
    obtain ⟨rfl, rfl⟩ : executed = reported outcome ∧ u = t' := by
      simpa [reportedIn] using hexecute.symm.trans hended
    refine ⟨fun fatal => ?_, ?_, ?_, ?_, ?_⟩
    · rw [getLast?_hostCalls houtcome]
      exact hfailed outcome houtcome fatal
    all_goals
      intros
      subst outcome
      rfl

/-- A module that prints 7 in both phases and then, in the given one, asks for an array of a
negative size. -/
def failingIn (phase : Phase) : Wasm.Module where
  imports := #[⟨"drac", "printi", .func ⟨[.i32], [.i32]⟩⟩, ⟨"drac", "new", .func ⟨[.i32], [.i32]⟩⟩]
  globals := #[]
  funcs := #[⟨⟨[], []⟩, [], .instr (.const32 7) (.call (.imported 0) (.instr .drop .done))⟩,
    ⟨⟨[], []⟩, [], .call (.defined 0)
      (.instr (.const32 (-4)) (.call (.imported 1) (.instr .drop .done)))⟩]
  exports := [("main", .defined (if phase matches .entry then 1 else 0))]
  start := some (.defined (if phase matches .start then 1 else 0))

/-- The failure of a module whose entry point asks for an array of a negative size, and the calls
that explain the session after it. -/
theorem run_acts_through_calls_failing :
    let s := Session.start (.scripted [])
    let fatal : Fatal := ⟨"new", .heap (.negativeSize (-4))⟩
    ∃ result t, standard.run 20 (failingIn .entry) s = some (result, t) ∧
      result = .error (.fatal fatal) ∧
      t.Alike
        (s.performAll [.call (.printi 7), .call (.printi 7), .call (.new (-4)), .finish]) := by
  intro s fatal
  have hsome : (standard.run 20 (failingIn .entry) s).isSome := by decide +kernel
  obtain ⟨⟨result, t⟩, hrun⟩ := Option.isSome_iff_exists.1 hsome
  obtain ⟨hsession, -, -, hfatal, -⟩ := run_acts_through_calls hrun
  have hcalls : (standard.hostCalls 20 (failingIn .entry) s).map HostCall.operation =
    [.call (.printi 7), .call (.printi 7), .call (.new (-4))] := by decide +kernel
  have hlast : (standard.callsIn 20 (failingIn .entry) s .entry).getLast?.map HostCall.answer =
    some (.error fatal) := by decide +kernel
  rw [hcalls] at hsession
  exact ⟨result, t, hrun, (hfatal fatal).2 (.inl (Option.map_eq_some_iff.1 hlast)), hsession⟩

end Host

end ArrayHost
