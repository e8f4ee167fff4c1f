import Mathlib.Data.Nat.Notation
import ArrayHost.Wasm.Interpreter

/-!
# Budgets

What a metered machine does with its budget: it charges the same fuel whatever the budget is, and
the budget only makes it halt. `Machine.Metered` says so for one move, and this is all that is asked
of a machine where runs with different budgets are compared.

The interpreter is such a machine (`interpreter_metered`). It asks for the budget where it enters a
function of the module and where it starts or repeats a loop, and nowhere else.
-/

namespace ArrayHost.Wasm

/-- The instance with a limited budget. -/
def Instance.metered (inst : Instance) (budget : ℕ) : Instance :=
  { inst with budget := some budget }

/-- What a machine does next on a smaller budget, and on a larger one. -/
inductive Move.Cuts {State Store : Type} : Move State Store → Move State Store → Prop where
  /-- The budget makes no difference. -/
  | same (move : Move State Store) : Cuts move move
  /-- The smaller budget is used up. -/
  | outOfFuel (store : Store) (next : Move State Store) : Cuts (.halted .outOfFuel store rfl) next

/-- A smaller budget only cuts short what a machine does. -/
structure Machine.Metered (M : Machine) : Prop where
  /-- A call of a function. -/
  call : ∀ (inst : Instance) (f : Callee) (store : M.Store) {b b' : ℕ}, b ≤ b' →
    (M.call (inst.metered b) f store).Cuts (M.call (inst.metered b') f store)
  /-- A step. -/
  step : ∀ (inst : Instance) (s : M.State) {b b' : ℕ}, b ≤ b' →
    (M.step (inst.metered b) s).Cuts (M.step (inst.metered b') s)

namespace Interpreter

variable {callSize : ℕ} {inst : Instance} {b b' : ℕ} (hb : b ≤ b') (s : State)

include hb

/-- Fuel that uses up the larger budget uses up the smaller one. -/
theorem isExhausted_of_le (store : Store) (h : isExhausted (inst.metered b') store = true) :
    isExhausted (inst.metered b) store = true := by
  simp only [isExhausted, Instance.metered, decide_eq_true_eq] at h ⊢
  omega

/-- A loop is started or repeated on both budgets, or the smaller one is used up. -/
theorem cuts_iterate (body : Code Callee ℕ) (stack : List Value) (next : Code Callee ℕ)
    (control : List Frame) : (s.iterate (inst.metered b) body stack next control).Cuts
      (s.iterate (inst.metered b') body stack next control) := by
  simp only [State.iterate]
  split
  · exact .outOfFuel _ _
  · next hfuel =>
    rw [if_neg fun h => hfuel (isExhausted_of_le hb s.store h)]
    exact .same _

/-- A branch asks for fuel where it repeats a loop. -/
theorem cuts_branch (label : ℕ) (control : List Frame) :
    (s.branch (inst.metered b) label control).Cuts (s.branch (inst.metered b') label control) := by
  fun_induction State.branch (inst.metered b) s label control with
  | case1 => exact .same _
  | case2 arity stack next control label ih => exact ih
  | case3 body stack next control => exact cuts_iterate hb s body stack next control
  | case4 body stack next control label ih => exact ih
  | case5 label control hblock hloop =>
    rw [State.branch.eq_5 _ _ _ _ hblock hloop]
    exact .same _

/-- A function is entered on both budgets, or the smaller one is used up. -/
theorem cuts_enter (f : Func) (args : List Value) :
    (s.enter callSize (inst.metered b) f args).Cuts
      (s.enter callSize (inst.metered b') f args) := by
  simp only [State.enter]
  split
  · next hdepth =>
    -- How deep calls go does not depend on the fuel.
    rw [if_pos (show (inst.metered b').maxStack.toNat < (s.depth + 1) * callSize from hdepth)]
    exact .same _
  · next hdepth =>
    rw [if_neg (show ¬ (inst.metered b').maxStack.toNat < (s.depth + 1) * callSize from hdepth)]
    split
    · exact .outOfFuel _ _
    · next hfuel =>
      rw [if_neg fun h => hfuel (isExhausted_of_le hb s.store h)]
      exact .same _

/-- A call asks for fuel where it enters a function of the module. -/
theorem cuts_call (f : Callee) :
    (s.call callSize (inst.metered b) f).Cuts (s.call callSize (inst.metered b') f) := by
  cases f with
  | imported i => exact .same _
  | defined i =>
    have hfunc : (inst.metered b').module.funcs[i]? = (inst.metered b).module.funcs[i]? := rfl
    simp only [State.call, hfunc]
    split
    · exact .same _
    · exact cuts_enter hb _ _ _

/-- A step is the same on both budgets, or the smaller one is used up. -/
theorem cuts_step :
    (step callSize (inst.metered b) s).Cuts (step callSize (inst.metered b') s) := by
  obtain ⟨code, locals, stack, control, depth, store⟩ := s
  cases code with
  | call f next => exact cuts_call hb ⟨next, locals, stack, control, depth, store.consume 1⟩ f
  | br label next =>
    exact cuts_branch hb ⟨.br label next, locals, stack, control, depth, store.consume 1⟩ label
      control
  | loop body next =>
    exact cuts_iterate hb ⟨.loop body next, locals, stack, control, depth, store⟩ body stack next
      control
  | brIf label next =>
    simp only [step]
    split
    · next c rest =>
      split
      · exact cuts_branch hb ⟨.brIf label next, locals, rest, control, depth, store.consume 1⟩
          label control
      · exact .same _
    · exact .same _
  -- No other code asks for fuel.
  | done | instr | leave | unreachable | block | cond => exact .same _

end Interpreter

/-- The interpreter is metered. -/
theorem interpreter_metered (callSize : ℕ) : (interpreter callSize).Metered where
  call _ f store _ _ hb := Interpreter.cuts_call hb (Interpreter.State.initial store) f
  step _ s _ _ hb := Interpreter.cuts_step hb s

end ArrayHost.Wasm
