import Mathlib.Data.Option.Basic
import ArrayHost.Proofs.HostRuns

/-!
# Runs without an answer

`Machine.run` has no answer when the machine gets stuck, and none when it has not halted by then. On
a sound machine only the latter happens: `Machine.Invariant` holds of every state in which the code
of a valid module is, each move keeps it whatever a host function answers, and nothing that is stuck
has it. So a run of a valid module has no answer exactly when its start function or its entry point
is still running (`run_eq_none_iff`), and what is said of runs that have an answer is said of every
run that comes to its end.
-/

namespace ArrayHost

namespace Wasm

/-- A module is well typed when its functions are, those that it exports exist, and its start
function takes and returns nothing. -/
theorem Module.isWellTyped_iff {m : Module} : m.isWellTyped = true ↔
    (∀ f ∈ m.funcs, f.isValid m = true) ∧ (∀ e ∈ m.exports, (m.funcType? e.2).isSome = true) ∧
      ∀ f, m.start = some f → m.funcType? f = some ⟨[], []⟩ := by
  simp only [isWellTyped, Bool.and_eq_true, Array.all_eq_true', List.all_eq_true, and_assoc]
  cases m.start <;> simp

/-- A function that a well-typed module exports exists. -/
theorem Module.exists_funcType?_of_exported? {m : Module} (hm : m.isWellTyped = true)
    {name : String} {f : Callee} (hf : m.exported? name = some f) :
    ∃ type, m.funcType? f = some type := by
  obtain ⟨before, after, hexports, -⟩ := List.lookup_eq_some_iff.1 hf
  have hmem : (name, f) ∈ m.exports := by simp [hexports]
  exact Option.isSome_iff_exists.1 ((isWellTyped_iff.1 hm).2.1 _ hmem)

/-- A valid module is well typed. -/
theorem Module.isWellTyped_of_ofSource? {source : Source} {m : Module}
    (hm : ofSource? source = some m) : m.isWellTyped = true := by
  simp only [ofSource?, Option.bind_eq_bind, Option.bind_eq_some_iff, Option.guard_eq_some',
    Option.pure_def, Option.some.injEq] at hm
  obtain ⟨-, -, -, -, m', -, -, hwell, rfl⟩ := hm
  exact hwell

/-- An instance of a well-typed module, with the host functions that its imports are linked to. -/
structure Instance.IsValid (inst : Instance) : Prop where
  /-- The module is well typed. -/
  wellTyped : inst.module.isWellTyped = true
  /-- The imports are linked. -/
  linked : inst.module.link? = some inst.imports

/-- A move is not stuck, and keeps to the given states and stores, whatever a host function answers
that does not fail. -/
inductive Move.Within {State Store : Type} (P : State → Prop) (Q : Store → Prop) :
    Move State Store → Prop where
  | running {s : State} (hs : P s) : Within P Q (.running s)
  | calling {c : Call} {store : Store} {next : Option Int32 → State} (hstore : Q store)
      (hnext : ∀ (s : Session) answer, (s.call c).1 = .ok answer → P (next answer)) :
      Within P Q (.calling c store next)
  | halted {outcome : Outcome} {store : Store} {own : outcome.fatal? = none} (hstore : Q store) :
      Within P Q (.halted outcome store own)

namespace Machine

/-- What holds of the states and stores of a machine that carries out the code of an instance. -/
structure Invariant (M : Machine) (inst : Instance) where
  /-- What holds of the states. -/
  OfState : M.State → Prop
  /-- What holds of the stores. -/
  OfStore : M.Store → Prop
  /-- It holds at first. -/
  fresh : OfStore (M.fresh inst.module)
  /-- It holds when a function without parameters is called. -/
  call : ∀ {f : Callee} {results : List ValType} {store : M.Store},
    inst.module.funcType? f = some ⟨[], results⟩ → OfStore store →
      (M.call inst f store).Within OfState OfStore
  /-- A step keeps it. -/
  step : ∀ {s : M.State}, OfState s → (M.step inst s).Within OfState OfStore

/-- A machine is sound when the code of a valid instance keeps an invariant. -/
def Sound (M : Machine) : Prop := ∀ inst : Instance, inst.IsValid → Nonempty (M.Invariant inst)

/-- How far the machine comes in at most `n` moves more. -/
def after (M : Machine) (inst : Instance) : ℕ → M.Progress → M.Progress
  | n + 1, .running s session => after M inst n (M.perform (M.step inst s) session)
  | _, p => p

/-- How a call of a function ended, if the machine has halted. -/
def Progress.ended? {M : Machine} : M.Progress → Option (Outcome × M.World)
  | .halted outcome w => some (outcome, w)
  | _ => none

/-- The invariant holds of what the machine has come to. -/
def Progress.Within {M : Machine} {inst : Instance} (I : M.Invariant inst) : M.Progress → Prop
  | .running s _ => I.OfState s
  | .halted _ w => I.OfStore w.store
  | .stuck => False

variable {M : Machine} {inst : Instance} {p : M.Progress}

/-- The answer of a run is how the call ended, if it has. -/
theorem run_eq_ended? (inst : Instance) (n : ℕ) (p : M.Progress) :
    M.run inst n p = (M.after inst n p).ended? := by
  induction n generalizing p with
  | zero => cases p <;> rfl
  | succ n ih =>
    cases p with
    | running s session => exact ih _
    | halted | stuck => rfl

/-- Carrying out a move keeps the invariant. -/
theorem Invariant.perform (I : M.Invariant inst) {move : Move M.State M.Store}
    (h : move.Within I.OfState I.OfStore) (s : Session) : (M.perform move s).Within I := by
  cases h with
  | running hs => exact hs
  | halted hstore => exact hstore
  | @calling c store next hstore hnext =>
    have hanswer := hnext s
    simp only [Machine.perform]
    cases hcall : s.call c with
    | mk answer t =>
      rw [hcall] at hanswer
      cases answer with
      | ok answer => exact hanswer answer rfl
      | error fatal => exact hstore

/-- Any number of moves keeps the invariant. -/
theorem Invariant.after (I : M.Invariant inst) (n : ℕ) (hp : p.Within I) :
    (M.after inst n p).Within I := by
  induction n generalizing p with
  | zero => cases p <;> exact hp
  | succ n ih =>
    cases p with
    | running s session => exact ih (I.perform (I.step hp) session)
    | halted | stuck => exact hp

/-- What has the invariant and has not ended is still running. -/
theorem Progress.Within.ended?_eq_none_iff {I : M.Invariant inst} (hp : p.Within I) :
    p.ended? = none ↔ ∃ s session, p = .running s session := by
  cases p with
  | running s session => simp [ended?]
  | halted outcome w => simp [ended?]
  | stuck => exact hp.elim

end Machine

end Wasm

namespace Host

variable {h : Host} {n : ℕ} {m : Wasm.Module} {s : Session} {phase : Phase} {c : h.ModuleCall}

/-- How far a call comes in at most `n` moves. -/
def ModuleCall.progress (c : h.ModuleCall) (n : ℕ) : h.machine.Progress :=
  h.machine.after c.inst n
    (h.machine.perform (h.machine.call c.inst c.callee c.world.store) c.world.session)

/-- The answer of a call is how it ended, if it has. -/
theorem ModuleCall.invoke_eq_ended? (c : h.ModuleCall) (n : ℕ) :
    h.machine.invoke c.inst n c.callee c.world = (c.progress n).ended? :=
  Wasm.Machine.run_eq_ended? c.inst n _

/-- A call of a function without parameters keeps the invariant. -/
theorem ModuleCall.within_progress (c : h.ModuleCall) (I : h.machine.Invariant c.inst)
    {results : List Wasm.ValType} (hf : c.inst.module.funcType? c.callee = some ⟨[], results⟩)
    (hstore : I.OfStore c.world.store) (n : ℕ) : (c.progress n).Within I :=
  I.after n (I.perform (I.call hf hstore) c.world.session)

/-- The invariant holds of the store that a start function leaves. -/
theorem ofStore_of_runStart {inst : Wasm.Instance} (hinst : inst.IsValid)
    (I : h.machine.Invariant inst) {outcome : Wasm.Outcome} {w : h.machine.World}
    (hrun : runStart h.machine inst n s = some (outcome, w)) : I.OfStore w.store := by
  cases hstart : inst.module.start with
  | none =>
    simp only [runStart, hstart] at hrun
    cases hrun
    exact I.fresh
  | some f =>
    have hf := (Wasm.Module.isWellTyped_iff.1 hinst.wellTyped).2.2 f hstart
    let c : h.ModuleCall := ⟨inst, f, ⟨s, h.machine.fresh inst.module⟩⟩
    have hwithin : (c.progress n).Within I := c.within_progress I hf I.fresh n
    rw [runStart_of_start h.machine inst hstart] at hrun
    have hended : (c.progress n).ended? = some (outcome, w) :=
      (c.invoke_eq_ended? n).symm.trans hrun
    cases hp : c.progress n with
    | halted outcome' w' =>
      rw [hp] at hended hwithin
      cases hended
      exact hwithin
    | running | stuck => simp [hp, Wasm.Machine.Progress.ended?] at hended

/-- The function that a run of a valid module calls in a phase keeps the invariant of its instance.
-/
theorem exists_within_of_callIn? (hM : h.machine.Sound) (hm : m.isWellTyped = true)
    (hc : h.callIn? n m s phase = some c) (k : ℕ) :
    ∃ I : h.machine.Invariant c.inst, (c.progress k).Within I := by
  cases phase with
  | start =>
    cases hlink : m.link? with
    | none => simp [callIn?, hlink] at hc
    | some imports =>
      have hinst : (h.instantiate m imports).IsValid := ⟨hm, hlink⟩
      obtain ⟨I⟩ := hM _ hinst
      rw [callIn?_start hlink] at hc
      obtain ⟨f, hf, rfl⟩ := Option.map_eq_some_iff.1 hc
      have htype := (Wasm.Module.isWellTyped_iff.1 hm).2.2 f hf
      let c : h.ModuleCall := ⟨h.instantiate m imports, f, ⟨s, h.machine.fresh m⟩⟩
      exact ⟨I, c.within_progress I htype I.fresh k⟩
  | entry =>
    obtain ⟨imports, w, f, hlink, hstart, hf, rfl⟩ := of_callIn?_entry hc
    have hinst : (h.instantiate m imports).IsValid := ⟨hm, hlink⟩
    obtain ⟨I⟩ := hM _ hinst
    obtain ⟨hexported, harity⟩ := Option.filter_eq_some_iff.1 hf
    obtain ⟨⟨params, results⟩, htype⟩ := Wasm.Module.exists_funcType?_of_exported? hm hexported
    -- The entry point is called when it has no parameters.
    have hparams : params = [] := by
      have harity := of_decide_eq_true harity
      simpa [Wasm.Module.arity, instantiate, htype] using harity
    subst hparams
    have hstore := ofStore_of_runStart hinst I hstart
    let c : h.ModuleCall := ⟨h.instantiate m imports, f, h.calling w⟩
    exact ⟨I, c.within_progress I htype hstore k⟩

/-- What a host loads is well typed. -/
theorem isWellTyped_of_load {source : Option Wasm.Source} (hload : h.load source = .ok m) :
    m.isWellTyped = true := by
  unfold load at hload
  split at hload
  · cases hload
  · next m' hm =>
    obtain ⟨source, -, hsource⟩ := Option.bind_eq_some_iff.1 hm
    split at hload
    · cases hload
    · obtain rfl := Except.ok.inj hload
      exact Wasm.Module.isWellTyped_of_ofSource? hsource

/-- The code of a valid module does not get stuck. -/
theorem progress_ne_stuck (hM : h.machine.Sound) (hm : m.isWellTyped = true)
    (hc : h.callIn? n m s phase = some c) (k : ℕ) : c.progress k ≠ .stuck := by
  obtain ⟨I, hwithin⟩ := exists_within_of_callIn? hM hm hc k
  intro hstuck
  rw [hstuck] at hwithin
  exact hwithin

/-- A run of a valid module has no answer exactly when the function that it calls in one of its
phases is still running. -/
theorem run_eq_none_iff (hM : h.machine.Sound) (hm : m.isWellTyped = true) :
    h.run n m s = none ↔ ∃ phase, ∃ c ∈ h.callIn? n m s phase,
      ∃ state session, c.progress n = .running state session := by
  rw [run_eq_none_iff_outcome?]
  refine exists_congr fun phase => exists_congr fun c => and_congr_right fun hc => ?_
  obtain ⟨I, hwithin⟩ := exists_within_of_callIn? hM hm hc n
  rw [ModuleCall.outcome?, Option.map_eq_none_iff, c.invoke_eq_ended?]
  exact hwithin.ended?_eq_none_iff

end Host

end ArrayHost
