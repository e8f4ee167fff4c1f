import ArrayHost.Proofs.Budgets
import ArrayHost.Proofs.FlushedInput
import ArrayHost.Proofs.HostRuns

/-!
# Metering only cuts a run short

With more fuel, a metered machine does all that it does with less, and may go on where it stopped. A
run of the machine that is not stopped by its budget is the same run on a larger one
(`run_of_cuts`), and the host calls of a run that is stopped are the first ones of the longer run
(`callsFrom_prefix_of_cuts`). The two phases of a run inherit both.

What a session has written and taken is never undone (`Session.extends_performAll`), so the outputs
and the inputs of the two runs compare as their host calls do.
-/

namespace ArrayHost

namespace Wasm.Machine

variable {M : Machine} {inst : Instance} {b b' n n' : ℕ} {move move' : Move M.State M.Store}
  {s : Session} {outcome : Outcome} {w : M.World}

/-- A number of moves is no less than `n`, or enough for the machine to halt. -/
def Enough (M : Machine) (inst : Instance) (n n' : ℕ) (p : M.Progress) : Prop :=
  n ≤ n' ∨ (M.run inst n' p).isSome = true

/-- After a move, one move less is enough. -/
theorem Enough.step {next : M.State} (h : M.Enough inst (n + 1) n' (.running next s)) :
    ∃ k, n' = k + 1 ∧ M.Enough inst n k (M.perform (M.step inst next) s) := by
  cases n' with
  | zero =>
    rcases h with hle | hsome
    · omega
    · cases hsome
  | succ k =>
    refine ⟨k, rfl, ?_⟩
    rcases h with hle | hsome
    · exact .inl (Nat.le_of_succ_le_succ hle)
    · exact .inr hsome

/-- A run that is not stopped by the smaller budget is the same on the larger one, with the same
host calls. -/
theorem run_of_cuts (hM : M.Metered) (hb : b ≤ b') (h : move.Cuts move')
    (hn : M.Enough (inst.metered b') n n' (M.perform move' s))
    (hrun : M.run (inst.metered b) n (M.perform move s) = some (outcome, w))
    (hfuel : outcome ≠ .outOfFuel) :
    M.run (inst.metered b') n' (M.perform move' s) = some (outcome, w) ∧
      M.callsFrom (inst.metered b') n' move' s = M.callsFrom (inst.metered b) n move s := by
  -- The induction follows the run on the smaller budget. The other one keeps pace with it until a
  -- move that only the smaller budget ends.
  induction n generalizing move move' s n' with
  | zero =>
    cases h with
    | outOfFuel =>
      cases hrun
      exact absurd rfl hfuel
    | same =>
      unfold callsFrom
      cases hp : M.perform move s with
      | halted outcome' w' =>
        rw [hp] at hrun
        cases hrun
        rw [(run_halted (inst.metered b) 0 _ _).2, (run_halted (inst.metered b') n' _ _).2]
        exact ⟨(run_halted (inst.metered b') n' _ _).1, rfl⟩
      | running | stuck => simp [hp, run] at hrun
  | succ n ih =>
    cases h with
    | outOfFuel =>
      cases hrun
      exact absurd rfl hfuel
    | same =>
      unfold callsFrom
      cases hp : M.perform move s with
      | halted outcome' w' =>
        rw [hp] at hrun
        cases hrun
        rw [(run_halted (inst.metered b) _ _ _).2, (run_halted (inst.metered b') n' _ _).2]
        exact ⟨(run_halted (inst.metered b') n' _ _).1, rfl⟩
      | running next t =>
        rw [hp] at hn hrun
        obtain ⟨k, rfl, hk⟩ := hn.step
        obtain ⟨hrest, hcalls⟩ := ih (hM.step inst next hb) hk hrun
        exact ⟨hrest, congrArg (madeOn s move.hostCall? ++ ·) hcalls⟩
      | stuck => simp [hp, run] at hrun

/-- The host calls on the smaller budget are the first ones on the larger. -/
theorem callsFrom_prefix_of_cuts (hM : M.Metered) (hb : b ≤ b') (h : move.Cuts move')
    (hn : M.Enough (inst.metered b') n n' (M.perform move' s)) :
    M.callsFrom (inst.metered b) n move s <+: M.callsFrom (inst.metered b') n' move' s := by
  unfold callsFrom
  induction n generalizing move move' s n' with
  | zero =>
    cases h with
    | outOfFuel => exact List.nil_prefix
    | same => exact (List.prefix_append_right_inj _).2 List.nil_prefix
  | succ n ih =>
    cases h with
    | outOfFuel => exact List.nil_prefix
    | same =>
      refine (List.prefix_append_right_inj _).2 ?_
      cases hp : M.perform move s with
      | running next t =>
        rw [hp] at hn
        obtain ⟨k, rfl, hk⟩ := hn.step
        exact ih (hM.step inst next hb) hk
      | halted | stuck => exact List.nil_prefix

end Wasm.Machine

/-- One console comes after another: it has written more, or as much, and has left as much of the
input unread, or less. -/
structure Console.Extends (d c : Console) : Prop where
  /-- What was written stands. -/
  written : c.output.written.toList <+: d.output.written.toList
  /-- What was taken is gone. -/
  unread : d.input.unread <:+ c.input.unread

/-- An operation extends its console. -/
theorem Session.extends_perform (s : Session) (op : Operation) :
    (s.perform op).2.console.Extends s.console := by
  -- The schedule is that of the session's own output.
  have hflushes : s.console.FlushesBy (fun n => s.console.output.failingFlush.any (· ≤ n)) :=
    fun n _ _ _ => rfl
  obtain ⟨es, hchronicle, -⟩ := chronicle_perform hflushes op
  obtain ⟨bytes, hwritten, -⟩ := hchronicle.written
  obtain ⟨taken, hunread, -⟩ := hchronicle.taken
  exact ⟨⟨bytes, hwritten.symm⟩, ⟨taken, hunread.symm⟩⟩

/-- A sequence of operations extends its console. -/
theorem Session.extends_performAll (s : Session) (ops : List Operation) :
    (s.performAll ops).console.Extends s.console := by
  induction ops generalizing s with
  | nil => exact ⟨List.prefix_rfl, List.suffix_rfl⟩
  | cons op ops ih =>
    have hfirst := s.extends_perform op
    have hrest := ih (s.perform op).2
    exact ⟨hfirst.written.trans hrest.written, hrest.unread.trans hfirst.unread⟩

/-- What is reported when the fuel is used up in a phase. -/
def Phase.outOfFuel : Phase → Failure
  | .start => Host.notStarted
  | .entry => .outOfFuel

namespace Host

/-- The host with metering on, and with the given fuel for each run. Its machine is that of `h`,
also where types have to agree. -/
@[reducible]
def metered (h : Host) (fuel : UInt64) : Host where
  config := { h.config with consumeFuel := true, fuel }
  maxStack_ne_zero := h.maxStack_ne_zero
  machine := h.machine

section

variable {M : Wasm.Machine} (hM : M.Metered) (inst : Wasm.Instance) {b b' n n' : ℕ} {s t : Session}
  {w w' : M.World} {f : Wasm.Callee} {outcome : Wasm.Outcome} (hb : b ≤ b')

include hM hb

/-- A call that is not stopped by the smaller budget is the same on the larger one. -/
theorem invoke_of_le
    (hn : n ≤ n' ∨ (M.invoke (inst.metered b') n' f w).isSome = true)
    (hrun : M.invoke (inst.metered b) n f w = some (outcome, w')) (hfuel : outcome ≠ .outOfFuel) :
    M.invoke (inst.metered b') n' f w = some (outcome, w') ∧
      M.invokeCalls (inst.metered b') n' f w = M.invokeCalls (inst.metered b) n f w :=
  Wasm.Machine.run_of_cuts hM hb (hM.call inst f w.store hb) hn hrun hfuel

/-- The host calls of a call on the smaller budget are the first ones on the larger. -/
theorem invokeCalls_prefix_of_le
    (hn : n ≤ n' ∨ (M.invoke (inst.metered b') n' f w).isSome = true) :
    M.invokeCalls (inst.metered b) n f w <+: M.invokeCalls (inst.metered b') n' f w :=
  Wasm.Machine.callsFrom_prefix_of_cuts hM hb (hM.call inst f w.store hb) hn

/-- A start function that is not stopped by the smaller budget does the same on the larger one. -/
theorem runStart_of_le
    (hn : n ≤ n' ∨ (runStart M (inst.metered b') n' s).isSome = true)
    (hrun : runStart M (inst.metered b) n s = some (outcome, w)) (hfuel : outcome ≠ .outOfFuel) :
    runStart M (inst.metered b') n' s = some (outcome, w) := by
  cases hstart : inst.module.start with
  | none =>
    have hsame : runStart M (inst.metered b') n' s = runStart M (inst.metered b) n s := by
      simp only [runStart, Wasm.Instance.metered, hstart]
    rw [hsame, hrun]
  | some f =>
    rw [runStart_of_start M (inst.metered b') hstart] at hn ⊢
    rw [runStart_of_start M (inst.metered b) hstart] at hrun
    exact (invoke_of_le hM inst hb hn hrun hfuel).1

end

section

variable {h : Host} (hM : h.machine.Metered) {f f' : UInt64} (hf : f ≤ f') {n n' : ℕ}
  {m : Wasm.Module} {s t : Session} {result : Except Failure Unit}

include hM hf

/-- An entry point that is not stopped by the smaller budget does the same on the larger one. -/
theorem callEntry_of_le {imports : Array Wasm.Binding} {w : h.machine.World}
    (hlink : m.link? = some imports)
    (hstart : runStart h.machine ((h.metered f).instantiate m imports) n s = some (.returned, w))
    (hn : n ≤ n' ∨
      ((h.metered f').callEntry ((h.metered f').instantiate m imports) n' w).isSome = true)
    (hrun : (h.metered f).callEntry ((h.metered f).instantiate m imports) n w = some (result, t))
    (hfuel : (h.metered f).outcomeIn? n m s .entry ≠ some .outOfFuel) :
    (h.metered f').callEntry ((h.metered f').instantiate m imports) n' w = some (result, t) := by
  have hb : f.toNat ≤ f'.toNat := UInt64.le_iff_toNat_le.1 hf
  -- Which function is the entry point does not depend on the fuel.
  have hsame : (h.metered f').entryPoint? ((h.metered f').instantiate m imports) =
    (h.metered f).entryPoint? ((h.metered f).instantiate m imports) := rfl
  cases hentry : (h.metered f).entryPoint? ((h.metered f).instantiate m imports) with
  | none =>
    rw [hentry] at hsame
    rw [callEntry_of_none hentry] at hrun
    rw [callEntry_of_none hsame]
    exact hrun
  | some g =>
    rw [hentry] at hsame
    rw [callEntry_of_entryPoint? hentry] at hrun
    rw [callEntry_of_entryPoint? hsame] at hn ⊢
    rw [Option.isSome_map] at hn
    obtain ⟨⟨outcome, w'⟩, hinvoke, hsettle⟩ := Option.map_eq_some_iff.1 hrun
    have hreturns : outcome ≠ .outOfFuel := by
      rintro rfl
      refine hfuel ?_
      rw [outcomeIn?, callIn?_entry hlink hstart, hentry]
      exact congrArg (Option.map Prod.fst) hinvoke
    have hinvoke' := (invoke_of_le hM (h.instantiate m imports) hb hn hinvoke hreturns).1
    exact (congrArg (Option.map settle) hinvoke').trans (congrArg some hsettle)

/-- Until the flush, a run that is not stopped for lack of fuel is the same with more. -/
theorem execute_of_le (hn : n ≤ n' ∨ ((h.metered f').execute n' m s).isSome = true)
    (hrun : (h.metered f).execute n m s = some (result, t))
    (hfuel : ∀ phase, (h.metered f).outcomeIn? n m s phase ≠ some .outOfFuel) :
    (h.metered f').execute n' m s = some (result, t) := by
  have hb : f.toNat ≤ f'.toNat := UInt64.le_iff_toNat_le.1 hf
  cases hlink : m.link? with
  | none =>
    simp only [execute, hlink] at hrun ⊢
    exact hrun
  | some imports =>
    have hstarts := hn.imp_right (isSome_runStart_of_execute hlink)
    obtain ⟨⟨outcome, w⟩, hstart⟩ := Option.isSome_iff_exists.1
      (isSome_runStart_of_execute hlink (Option.isSome_of_eq_some hrun))
    have hreturns : outcome ≠ .outOfFuel := by
      rintro rfl
      exact hfuel .start (outcomeIn?_start hlink hstart (by simp))
    have hstart' := runStart_of_le hM (h.instantiate m imports) hb hstarts hstart hreturns
    by_cases hends : outcome = .returned
    · subst hends
      rw [execute_of_returned hlink hstart] at hrun
      rw [execute_of_returned (h := h.metered f') hlink hstart'] at hn ⊢
      exact callEntry_of_le hM hf hlink hstart hn hrun (hfuel .entry)
    · rw [execute_of_ne_returned hlink hstart hends] at hrun
      rw [execute_of_ne_returned (h := h.metered f') hlink hstart' hends]
      exact hrun

/-- A run that is not stopped for lack of fuel is the same with more. -/
theorem run_of_le (hn : n ≤ n' ∨ ((h.metered f').run n' m s).isSome = true)
    (hrun : (h.metered f).run n m s = some (result, t))
    (hfuel : ∀ phase, (h.metered f).outcomeIn? n m s phase ≠ some .outOfFuel) :
    (h.metered f').run n' m s = some (result, t) := by
  obtain ⟨executed, u, hexecute, rfl, rfl⟩ := exists_execute_of_run hrun
  rw [run, Option.isSome_map] at hn
  exact run_of_execute (execute_of_le hM hf hn hexecute hfuel)

/-- The host calls of the entry point are the first ones of the entry point with more fuel. -/
theorem callsIn_entry_prefix_of_le {imports : Array Wasm.Binding} {w : h.machine.World}
    (hlink : m.link? = some imports)
    (hstart : runStart h.machine ((h.metered f).instantiate m imports) n s = some (.returned, w))
    (hstart' : runStart h.machine ((h.metered f').instantiate m imports) n' s =
      some (.returned, w))
    (hn : n ≤ n' ∨
      ((h.metered f').callEntry ((h.metered f').instantiate m imports) n' w).isSome = true) :
    (h.metered f).callsIn n m s .entry <+: (h.metered f').callsIn n' m s .entry := by
  have hb : f.toNat ≤ f'.toNat := UInt64.le_iff_toNat_le.1 hf
  have hsame : (h.metered f').entryPoint? ((h.metered f').instantiate m imports) =
    (h.metered f).entryPoint? ((h.metered f).instantiate m imports) := rfl
  rw [callsIn, callsIn, callIn?_entry hlink hstart, callIn?_entry hlink hstart', hsame]
  cases hentry : (h.metered f).entryPoint? ((h.metered f).instantiate m imports) with
  | none => exact List.prefix_rfl
  | some g =>
    rw [hentry] at hsame
    rw [callEntry_of_entryPoint? hsame, Option.isSome_map] at hn
    exact invokeCalls_prefix_of_le hM (h.instantiate m imports) hb hn

/-- The host calls of the start function are the first ones of the start function with more fuel,
and all of them if it returns. -/
theorem callsIn_start_of_le {imports : Array Wasm.Binding} (hlink : m.link? = some imports)
    (hn : n ≤ n' ∨
      (runStart h.machine ((h.metered f').instantiate m imports) n' s).isSome = true) :
    (h.metered f).callsIn n m s .start <+: (h.metered f').callsIn n' m s .start ∧
      ∀ outcome w,
        runStart h.machine ((h.metered f).instantiate m imports) n s = some (outcome, w) →
          outcome ≠ .outOfFuel →
            (h.metered f').callsIn n' m s .start = (h.metered f).callsIn n m s .start := by
  have hb : f.toNat ≤ f'.toNat := UInt64.le_iff_toNat_le.1 hf
  rw [callsIn, callsIn, callIn?_start hlink, callIn?_start hlink]
  cases hstart : m.start with
  | none => exact ⟨List.prefix_rfl, fun _ _ _ _ => rfl⟩
  | some g =>
    rw [runStart_of_start h.machine ((h.metered f').instantiate m imports) hstart] at hn
    refine ⟨invokeCalls_prefix_of_le hM (h.instantiate m imports) hb hn,
      fun outcome w hrun hfuel => ?_⟩
    rw [runStart_of_start h.machine ((h.metered f).instantiate m imports) hstart] at hrun
    exact (invoke_of_le hM (h.instantiate m imports) hb hn hrun hfuel).2

/-- The host calls of a run are the first ones of the run with more fuel. -/
theorem hostCalls_prefix_of_le (hn : n ≤ n' ∨ ((h.metered f').run n' m s).isSome = true) :
    (h.metered f).hostCalls n m s <+: (h.metered f').hostCalls n' m s := by
  rw [run, Option.isSome_map] at hn
  have hb : f.toNat ≤ f'.toNat := UInt64.le_iff_toNat_le.1 hf
  simp only [hostCalls]
  cases hlink : m.link? with
  | none =>
    simp only [callsIn, callIn?, hlink]
    exact List.nil_prefix
  | some imports =>
    have hstarts := hn.imp_right (isSome_runStart_of_execute hlink)
    obtain ⟨hfirst, hall⟩ := callsIn_start_of_le hM hf hlink hstarts
    by_cases hreturns : ∃ w,
      runStart h.machine ((h.metered f).instantiate m imports) n s = some (.returned, w)
    · -- The start function is the same with more fuel, and the entry point follows it.
      obtain ⟨w, hstart⟩ := hreturns
      have hstart' := runStart_of_le hM (h.instantiate m imports) hb hstarts hstart (by simp)
      rw [execute_of_returned (h := h.metered f') hlink hstart'] at hn
      rw [hall _ w hstart (by simp)]
      exact (List.prefix_append_right_inj _).2
        (callsIn_entry_prefix_of_le hM hf hlink hstart hstart' hn)
    · have hnone : (h.metered f).callsIn n m s .entry = [] := by
        have hcall := callIn?_entry_eq_none (h := h.metered f) hlink
          fun w hstart => hreturns ⟨w, hstart⟩
        rw [callsIn, hcall, Option.elim_none]
      rw [hnone, List.append_nil]
      exact hfirst.trans (List.prefix_append _ _)

end

section

variable {h : Host} {n : ℕ} {m : Wasm.Module} {s t : Session} {result : Except Failure Unit}

/-- What is reported of a run that is stopped for lack of fuel in one of its phases, and when the
lack of fuel is reported. -/
theorem report_of_outOfFuel (hrun : h.run n m s = some (result, t)) :
    (∀ phase, h.outcomeIn? n m s phase = some .outOfFuel → result = .error phase.outOfFuel) ∧
      (result = .error .outOfFuel ↔ h.outcomeIn? n m s .entry = some .outOfFuel) := by
  obtain ⟨executed, u, hexecute, rfl, rfl⟩ := exists_execute_of_run hrun
  have hstops (phase : Phase) (hfuel : h.outcomeIn? n m s phase = some .outOfFuel) :
      executed = .error phase.outOfFuel := by
    obtain ⟨t, hended⟩ := execute_of_outcomeIn? hfuel (by simp)
    have hreport := congrArg Prod.fst (Option.some.inj (hexecute.symm.trans hended))
    rw [show executed = reportedIn .outOfFuel phase from hreport]
    cases phase <;> rfl
  refine ⟨fun phase hfuel => by rw [hstops phase hfuel]; rfl, fun hreport => ?_,
    fun hfuel => by rw [hstops .entry hfuel]; rfl⟩
  -- Neither the flush at the end nor what comes before the entry point lacks fuel.
  rcases report_of_execute hexecute with ⟨outcome, houtcome, rfl⟩ | ⟨-, failure, rfl, hbefore⟩
  · cases outcome with
    | outOfFuel => exact houtcome
    | returned =>
      cases hflush : u.finish.1 <;>
        simp [hflush, reported, Except.bind, Except.mapError] at hreport
    | trapped | failed => simp [reported, Except.bind] at hreport
  · obtain rfl : failure = .outOfFuel := Except.error.inj hreport
    cases hbefore

end

/-- Of two runs on one session, let the second make the host calls of the first and maybe more. Then
the consoles come after one another. -/
theorem extends_of_hostCalls {h h' : Host} {n n' : ℕ} {m : Wasm.Module} {s t t' : Session}
    {result result' : Except Failure Unit} (hrun : h.run n m s = some (result, t))
    (hrun' : h'.run n' m s = some (result', t'))
    (hcalls : h.hostCalls n m s <+: h'.hostCalls n' m s) :
    t.console.Extends s.console ∧ t'.console.Extends t.console := by
  obtain ⟨executed, u, hexecute, -, rfl⟩ := exists_execute_of_run hrun
  obtain ⟨executed', u', hexecute', -, rfl⟩ := exists_execute_of_run hrun'
  obtain ⟨fatal?, hleads⟩ := leads_execute hexecute
  obtain ⟨fatal?', hleads'⟩ := leads_execute hexecute'
  obtain ⟨more, hmore⟩ := hcalls
  have hu := hleads.alike_performAll.console_eq
  have hu' := hleads'.alike_performAll.console_eq
  rw [← hmore, List.map_append, Session.performAll_append] at hu'
  have hfirst : u.console.Extends s.console := by
    rw [hu]
    exact s.extends_performAll _
  have hrest : u'.console.Extends u.console := by
    rw [hu, hu']
    exact Session.extends_performAll _ _
  -- The flushes at the end change neither what was written nor what is unread.
  exact ⟨⟨hfirst.written, hfirst.unread⟩, ⟨hrest.written, hrest.unread⟩⟩

/-- Metering only cuts a run short, on a machine whose budget only cuts short what it does. Take a
run with metering on that ends, and the same run with at least as much fuel. If the lack of fuel
stops neither the start function nor the entry point, the run with more fuel ends as well, with the
same report and the same session. If it stops one of them, this is what is reported, and the lack of
fuel is reported of nothing else than the entry point. In each case, the host calls are the first
ones of the run with more fuel; the output is the beginning of its output, and the input that was
consumed is the beginning of what it consumes. -/
theorem metering_cuts_short (h : Host) (hM : h.machine.Metered) {f f' : UInt64} (hf : f ≤ f')
    {n : ℕ} {m : Wasm.Module} {s t : Session} {result : Except Failure Unit}
    (hrun : (h.metered f).run n m s = some (result, t)) :
    ((∀ phase, (h.metered f).outcomeIn? n m s phase ≠ some .outOfFuel) →
      (h.metered f').run n m s = some (result, t) ∧
      ∀ n' ended, (h.metered f').run n' m s = some ended → ended = (result, t)) ∧
    (∀ phase, (h.metered f).outcomeIn? n m s phase = some .outOfFuel →
      result = .error phase.outOfFuel) ∧
    (result = .error .outOfFuel ↔ (h.metered f).outcomeIn? n m s .entry = some .outOfFuel) ∧
    (∀ n', n ≤ n' → (h.metered f).hostCalls n m s <+: (h.metered f').hostCalls n' m s) ∧
    ∀ n' result' t', (h.metered f').run n' m s = some (result', t') →
      t.console.output.written.toList <+: t'.console.output.written.toList ∧
      ∃ consumed consumed', consumed <+: consumed' ∧
        s.console.input.unread = consumed ++ t.console.input.unread ∧
        s.console.input.unread = consumed' ++ t'.console.input.unread := by
  obtain ⟨hphase, hreported⟩ := report_of_outOfFuel hrun
  refine ⟨fun hfuel => ⟨?_, fun n' ended hrun' => ?_⟩, hphase, hreported,
    fun n' hn => hostCalls_prefix_of_le hM hf (.inl hn), ?_⟩
  · exact run_of_le hM hf (.inl (Nat.le_refl n)) hrun hfuel
  · have hsame := run_of_le hM hf (.inr (Option.isSome_of_eq_some hrun')) hrun hfuel
    exact Option.some.inj (hrun'.symm.trans hsame)
  · intro n' result' t' hrun'
    have hcalls := hostCalls_prefix_of_le (n := n) hM hf (.inr (Option.isSome_of_eq_some hrun'))
    obtain ⟨⟨-, consumed, htaken⟩, hwritten, more, hmore⟩ :=
      extends_of_hostCalls hrun hrun' hcalls
    refine ⟨hwritten, consumed, consumed ++ more, List.prefix_append _ _, htaken.symm, ?_⟩
    rw [List.append_assoc, hmore, htaken]

/-- A module that reads a line and prints 7, again and again. -/
def rereading : Wasm.Module where
  imports := #[⟨"drac", "printi", .func ⟨[.i32], [.i32]⟩⟩, ⟨"drac", "reads", .func ⟨[], [.i32]⟩⟩]
  globals := #[]
  funcs := #[⟨⟨[], []⟩, [], .loop (.call (.imported 1) (.instr .drop (.instr (.const32 7)
    (.call (.imported 0) (.instr .drop (.br 0 .done)))))) .done⟩]
  exports := [("main", .defined 0)]
  start := none

/-- A run that is stopped in its third round, and the run with more fuel, which is stopped by the
end of the input: the output of the one is the beginning of the other's. -/
theorem metering_cuts_short_rereading :
    let s := Session.start (.scripted [97, 10, 98, 10, 99, 10])
    ∃ t t', (standard.metered 9).run 40 rereading s = some (.error .outOfFuel, t) ∧
      (standard.metered 1000).run 40 rereading s =
        some (.error (.fatal ⟨"reads", .console .endOfInput⟩), t') ∧
      t.console.output.written.toList <+: t'.console.output.written.toList ∧
      t.console.output.written = #[55, 55] ∧ t'.console.output.written = #[55, 55, 55] := by
  intro s
  have hshort : ((standard.metered 9).run 40 rereading s).map
      (fun r => (r.1, r.2.console.output.written)) = some (.error .outOfFuel, #[55, 55]) := by
    decide +kernel
  have hlong : ((standard.metered 1000).run 40 rereading s).map
      (fun r => (r.1, r.2.console.output.written)) =
        some (.error (.fatal ⟨"reads", .console .endOfInput⟩), #[55, 55, 55]) := by decide +kernel
  obtain ⟨⟨result, t⟩, hrun, hends⟩ := Option.map_eq_some_iff.1 hshort
  obtain ⟨⟨result', t'⟩, hrun', hends'⟩ := Option.map_eq_some_iff.1 hlong
  obtain ⟨rfl, hwritten⟩ := Prod.mk.inj hends
  obtain ⟨rfl, hwritten'⟩ := Prod.mk.inj hends'
  have hfuel : (9 : UInt64) ≤ 1000 := by decide
  obtain ⟨-, -, -, -, hextends⟩ :=
    metering_cuts_short standard (Wasm.interpreter_metered _) hfuel hrun
  exact ⟨t, t', hrun, hrun', (hextends 40 _ t' hrun').1, hwritten, hwritten'⟩

end Host

end ArrayHost
