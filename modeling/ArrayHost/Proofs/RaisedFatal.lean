import ArrayHost.Proofs.HostRuns

/-!
# Where a fatal error keeps its identity

A host call that fails halts the machine with its failure, in whichever phase of the run it is made
and however deep in the module's code. What is reported depends on the phase: the failure itself
when it is the entry point that fails, but only that the module was not instantiated when it is the
start function.
-/

namespace ArrayHost

/-- What is reported of a host function that fails in a phase. -/
def Phase.failure (fatal : Fatal) : Phase → Failure
  | .start => Host.notStarted
  | .entry => .fatal fatal

namespace Host

variable {h : Host} {n : Nat} {m : Wasm.Module} {s : Session} {phase : Phase} {x : HostCall}
  {fatal : Fatal}

/-- A host call that fails in a phase ends module code there. -/
theorem outcomeIn?_of_error (hx : x ∈ h.callsIn n m s phase) (hanswer : x.answer = .error fatal) :
    h.outcomeIn? n m s phase = some (.failed fatal) := by
  cases hc : h.callIn? n m s phase with
  | none => simp [callsIn, hc] at hx
  | some c =>
    rw [callsIn, hc, Option.elim_some] at hx
    obtain ⟨w, hinvoke⟩ := Wasm.Machine.invoke_of_error hx hanswer
    rw [outcomeIn?, hc]
    exact congrArg (Option.map Prod.fst) hinvoke

/-- A host call that fails in a phase ends the run there. -/
theorem execute_of_error (hx : x ∈ h.callsIn n m s phase) (hanswer : x.answer = .error fatal) :
    ∃ t, h.execute n m s = some (.error (phase.failure fatal), t) := by
  obtain ⟨t, hexecute⟩ := execute_of_outcomeIn? (outcomeIn?_of_error hx hanswer) (by simp)
  refine ⟨t, hexecute.trans ?_⟩
  cases phase <;> rfl

/-- A run in which a host call fails reports a failure. It is that of the host call, and with it the
exit status is 1, exactly when the call was made in the entry point. -/
theorem run_of_raised (hx : x ∈ h.callsIn n m s phase) (hanswer : x.answer = .error fatal) :
    ∃ t, h.run n m s = some (.error (phase.failure fatal), t) ∧
      (phase.failure fatal = .fatal fatal ↔ phase = .entry) ∧
      ((phase.failure fatal).exitStatus = 1 ↔ phase = .entry) := by
  obtain ⟨t, hexecute⟩ := execute_of_error hx hanswer
  refine ⟨t.finish.2, ?_, ?_, ?_⟩
  · simp only [run, hexecute]
    rfl
  · cases phase <;> simp [Phase.failure, notStarted]
  · cases phase <;> simp [Phase.failure, notStarted, Failure.exitStatus]

/-- The text of `failingIn`. -/
def failingSource (phase : Phase) : Wasm.Source where
  imports := [(⟨"drac", "printi", .func ⟨[.i32], [.i32]⟩⟩, some "printi"),
    (⟨"drac", "new", .func ⟨[.i32], [.i32]⟩⟩, some "new")]
  globals := []
  funcs := [⟨"seven", ⟨[], []⟩, [],
      .instr (.const32 7) (.call "printi" (.instr .drop .done))⟩,
    ⟨"fails", ⟨[], []⟩, [], .call "seven"
      (.instr (.const32 (-4)) (.call "new" (.instr .drop .done)))⟩]
  exports := [⟨"main", if phase matches .entry then "fails" else "seven", .func⟩]
  start := some (if phase matches .start then "fails" else "seven")

/-- The modules that fail in the one phase or the other can be loaded. -/
theorem load_failingSource (phase : Phase) :
    standard.load (some (failingSource phase)) = .ok (failingIn phase) := by
  cases phase <;> decide +kernel

/-- The failure of a `new` is reported where it fails in the entry point. -/
theorem run_of_raised_new :
    let s := Session.start (.scripted [])
    let fatal : Fatal := ⟨"new", .heap (.negativeSize (-4))⟩
    (∃ x ∈ standard.callsIn 20 (failingIn .entry) s .entry, x.answer = .error fatal) ∧
      ∃ t, standard.run 20 (failingIn .entry) s = some (.error (.fatal fatal), t) := by
  intro s fatal
  have hraised : ∃ x ∈ standard.callsIn 20 (failingIn .entry) s .entry,
    x.answer = .error fatal := by decide +kernel
  obtain ⟨x, hx, hanswer⟩ := hraised
  obtain ⟨t, hrun, -⟩ := run_of_raised hx hanswer
  exact ⟨⟨x, hx, hanswer⟩, t, hrun⟩

/-- The failure of a `new` is not reported where it fails in the start function, although the module
can be loaded and linked: the failure that is reported is another, and the exit status is 2. -/
theorem raised_in_start_not_reported :
    let s := Session.start (.scripted [])
    let fatal : Fatal := ⟨"new", .heap (.negativeSize (-4))⟩
    standard.load (some (failingSource .start)) = .ok (failingIn .start) ∧
      (failingIn .start).link?.isSome ∧
      (∃ x ∈ standard.hostCalls 20 (failingIn .start) s, x.answer = .error fatal) ∧
      (standard.run 20 (failingIn .start) s).map (fun r => r.1) ≠ some (.error (.fatal fatal)) ∧
      (standard.run 20 (failingIn .start) s).map (fun r => r.1.mapError Failure.exitStatus) =
        some (.error 2) := by
  intro s fatal
  refine ⟨load_failingSource .start, ?_, ?_, ?_, ?_⟩ <;> decide +kernel

end Host

end ArrayHost
