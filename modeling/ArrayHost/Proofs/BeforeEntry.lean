import ArrayHost.Proofs.HostRuns

/-!
# Failures before the entry point is called

A failure with exit status 2 ends a run before the entry point is called: an import is not linked,
the start function fails, or no entry point is exported. Of the module's code, at most the start
function has run by then. So such a run has done to its session what the host calls of the start
function do, and nothing if there are none (`run_of_exitStatus_two`). What these calls did stands: a
run can have printed, read and allocated before it fails so (`exitStatus_two_after_host_calls`).
-/

namespace ArrayHost.Host

variable {h : Host} {n : Nat} {m : Wasm.Module} {s t : Session} {failure : Failure}

/-- Until the flush, a run that fails with exit status 2 does not call its entry point. -/
theorem callIn?_entry_of_execute (hexecute : h.execute n m s = some (.error failure, t))
    (hstatus : failure.exitStatus = 2) : h.callIn? n m s .entry = none := by
  rcases report_of_execute hexecute with ⟨outcome, -, hreport⟩ | ⟨hnone, -⟩
  · -- The failures of an entry point that is called have exit status 1.
    cases outcome <;> cases hreport <;> simp [Failure.exitStatus] at hstatus
  · exact hnone

/-- A module that is not linked, or has no start function, makes no host calls in it. -/
theorem callsIn_start_of_none (h : Host) (n : Nat) (s : Session)
    (hm : m.link? = none ∨ m.start = none) : h.callsIn n m s .start = [] := by
  have hnone : h.callIn? n m s .start = none := by
    cases hlink : m.link? with
    | none => simp only [callIn?, hlink]
    | some imports =>
      have hstart : m.start = none := by simpa [hlink] using hm
      rw [callIn?_start hlink, hstart, Option.map_none]
  rw [callsIn, hnone, Option.elim_none]

/-- A run that fails with exit status 2 has failed before the flush at its end. -/
theorem exists_execute_of_exitStatus_two (hrun : h.run n m s = some (.error failure, t))
    (hstatus : failure.exitStatus = 2) :
    ∃ u, h.execute n m s = some (.error failure, u) ∧ t = u.finish.2 := by
  obtain ⟨executed, u, hexecute, hresult, rfl⟩ := exists_execute_of_run hrun
  cases executed with
  | error e =>
    cases hresult
    exact ⟨u, hexecute, rfl⟩
  | ok =>
    -- A flush that fails has exit status 1.
    cases hflush : u.finish.1 with
    | ok =>
      rw [hflush] at hresult
      cases hresult
    | error fatal =>
      rw [hflush] at hresult
      cases hresult
      simp [Failure.exitStatus] at hstatus

/-- A run that fails with exit status 2 has made no host calls in its entry point: all are those of
the start function. The heap and the console after it are those that these calls, carried out by
themselves, and one flush lead to. Without such calls, nothing was allocated, read or written, and
there are none when the module is not linked or has no start function. -/
theorem run_of_exitStatus_two (hrun : h.run n m s = some (.error failure, t))
    (hstatus : failure.exitStatus = 2) :
    h.hostCalls n m s = h.callsIn n m s .start ∧
      t.Alike (s.performAll ((h.callsIn n m s .start).map HostCall.operation ++ [.finish])) ∧
      (h.callsIn n m s .start = [] → t.heap = s.heap ∧
        t.console.input = s.console.input ∧
        t.console.output.written = s.console.output.written) ∧
      (m.link? = none ∨ m.start = none → h.callsIn n m s .start = []) := by
  obtain ⟨u, hexecute, rfl⟩ := exists_execute_of_exitStatus_two hrun hstatus
  have hentry : h.callsIn n m s .entry = [] := by
    rw [callsIn, callIn?_entry_of_execute hexecute hstatus, Option.elim_none]
  have hcalls : h.hostCalls n m s = h.callsIn n m s .start := by
    rw [hostCalls, hentry, List.append_nil]
  obtain ⟨fatal?, hleads⟩ := leads_execute hexecute
  rw [hcalls] at hleads
  have halike : u.finish.2.Alike
      (s.performAll ((h.callsIn n m s .start).map HostCall.operation ++ [.finish])) := by
    rw [Session.performAll_concat]
    exact (hleads.alike_performAll.perform .finish).2
  refine ⟨hcalls, halike, fun hnone => ?_, callsIn_start_of_none h n s⟩
  -- The flush at the end is all that is left.
  rw [hnone] at halike
  have hconsole := halike.console_eq
  exact ⟨halike.heap_eq, by rw [hconsole]; rfl, by rw [hconsole]; rfl⟩

/-- A module whose start function prints 7, reads a line and then asks for an array of a negative
size. Its entry point does nothing. -/
def failingStart : Wasm.Module where
  imports := #[⟨"drac", "printi", .func ⟨[.i32], [.i32]⟩⟩, ⟨"drac", "reads", .func ⟨[], [.i32]⟩⟩,
    ⟨"drac", "new", .func ⟨[.i32], [.i32]⟩⟩]
  globals := #[]
  funcs := #[⟨⟨[], []⟩, [], .instr (.const32 7) (.call (.imported 0) (.instr .drop
      (.call (.imported 1) (.instr .drop
        (.instr (.const32 (-4)) (.call (.imported 2) (.instr .drop .done)))))))⟩,
    ⟨⟨[], []⟩, [], .done⟩]
  exports := [("main", .defined 1)]
  start := some (.defined 0)

/-- The text of `failingStart`. -/
def failingStartSource : Wasm.Source where
  imports := [(⟨"drac", "printi", .func ⟨[.i32], [.i32]⟩⟩, some "printi"),
    (⟨"drac", "reads", .func ⟨[], [.i32]⟩⟩, some "reads"),
    (⟨"drac", "new", .func ⟨[.i32], [.i32]⟩⟩, some "new")]
  globals := []
  funcs := [⟨"starts", ⟨[], []⟩, [], .instr (.const32 7) (.call "printi" (.instr .drop
      (.call "reads" (.instr .drop
        (.instr (.const32 (-4)) (.call "new" (.instr .drop .done)))))))⟩,
    ⟨"enters", ⟨[], []⟩, [], .done⟩]
  exports := [⟨"main", "enters", .func⟩]
  start := some "starts"

/-- What a module did whose start function failed is what the host calls of that function did. -/
theorem run_of_exitStatus_two_failingStart :
    let s := Session.start (.scripted [104, 105, 10])
    ∃ failure t, standard.run 20 failingStart s = some (.error failure, t) ∧
      failure.exitStatus = 2 ∧
      t.Alike (s.performAll [.call (.printi 7), .call .reads, .call (.new (-4)), .finish]) := by
  intro s
  have hrun : (standard.run 20 failingStart s).map (fun r => r.1.mapError Failure.exitStatus) =
    some (.error 2) := by decide +kernel
  obtain ⟨⟨result, t⟩, hrun, hresult⟩ := Option.map_eq_some_iff.1 hrun
  cases result with
  | ok => cases hresult
  | error failure =>
    have hstatus : failure.exitStatus = 2 := by simpa using hresult
    obtain ⟨-, halike, -⟩ := run_of_exitStatus_two hrun hstatus
    have hcalls : (standard.callsIn 20 failingStart s .start).map HostCall.operation =
      [.call (.printi 7), .call .reads, .call (.new (-4))] := by decide +kernel
    rw [hcalls] at halike
    exact ⟨failure, t, hrun, hstatus, halike⟩

/-- A run can fail with exit status 2 after its module has written, read and allocated: the start
function of a module that can be loaded and linked has done so before it fails. -/
theorem exitStatus_two_after_host_calls :
    let s := Session.start (.scripted [104, 105, 10])
    standard.load (some failingStartSource) = .ok failingStart ∧
      failingStart.link?.isSome ∧
      ∃ failure t, standard.run 20 failingStart s = some (.error failure, t) ∧
        failure.exitStatus = 2 ∧ t.console.output.written = #[55] ∧
        t.console.input.unread = [] ∧ t.heap.arrays = #[#[104, 105]] := by
  intro s
  refine ⟨by decide +kernel, by decide +kernel, ?_⟩
  have hrun : (standard.run 20 failingStart s).map (fun r =>
    (r.1.mapError Failure.exitStatus, r.2.console.output.written, r.2.console.input.unread,
      r.2.heap.arrays)) = some (.error 2, #[55], [], #[#[104, 105]]) := by decide +kernel
  obtain ⟨⟨result, t⟩, hrun, hparts⟩ := Option.map_eq_some_iff.1 hrun
  simp only [Prod.mk.injEq] at hparts
  obtain ⟨hresult, hwritten, hunread, harrays⟩ := hparts
  cases result with
  | ok => cases hresult
  | error failure => exact ⟨failure, t, hrun, by simpa using hresult, hwritten, hunread, harrays⟩

end ArrayHost.Host
