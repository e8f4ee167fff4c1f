import ArrayHost.Wasm.Linking

/-!
# Machines

What runs module code is a parameter of the host. A `Machine` has states and a store of its own, and
no part in the session: a move goes on, halts, or asks for a host call and says how to go on with
the answer. So module code acts on the session through host calls alone, and a host call that fails
ends the call of the function, however deep in module code it was made.

`Machine.run` carries out the moves of a machine on a session until it halts.
`ArrayHost.Wasm.Interpreter` is such a machine.
-/

namespace ArrayHost.Wasm

/-- What is fixed while module code runs. -/
structure Instance where
  /-- The module. -/
  module : Module
  /-- The host functions that its imports are linked to. -/
  imports : Array Binding
  /-- The fuel that may be consumed, if it is limited. -/
  budget : Option Nat
  /-- The size of the stack in bytes. -/
  maxStack : UInt64

/-- How a call of a function ends. -/
inductive Outcome where
  /-- It returns. -/
  | returned
  /-- Module code traps. -/
  | trapped (trap : Trap)
  /-- A host function fails. -/
  | failed (fatal : Fatal)
  /-- The budget is used up. -/
  | outOfFuel
  deriving DecidableEq

/-- The failure of a host function, if that is how a call ends. -/
def Outcome.fatal? : Outcome → Option Fatal
  | .failed fatal => some fatal
  | _ => none

/-- What module code does next. -/
inductive Move (State Store : Type) where
  /-- It goes on. -/
  | running (s : State)
  /-- It calls a host function, and goes on with the answer. -/
  | calling (c : Call) (store : Store) (next : Option Int32 → State)
  /-- It halts. No host function fails here. -/
  | halted (outcome : Outcome) (store : Store) (own : outcome.fatal? = none)
  /-- The code does not fit the state. -/
  | stuck

/-- What runs module code. -/
structure Machine where
  /-- The states in which code of a module is running. -/
  State : Type
  /-- What outlives the functions of a module that run. -/
  Store : Type
  /-- The store of a module none of whose functions has run. -/
  fresh : Module → Store
  /-- Calls a function without arguments. -/
  call : Instance → Callee → Store → Move State Store
  /-- Goes on. -/
  step : Instance → State → Move State Store

namespace Machine

/-- The session and the store between two calls of functions. -/
structure World (M : Machine) where
  /-- What the host functions share. -/
  session : Session
  /-- What the functions of the module share. -/
  store : M.Store

/-- How far the code of a module has come. -/
inductive Progress (M : Machine) where
  /-- It goes on. -/
  | running (s : M.State) (session : Session)
  /-- It has halted. -/
  | halted (outcome : Outcome) (w : M.World)
  /-- The code does not fit the state. -/
  | stuck

variable (M : Machine)

/-- Carries out a move on a session. -/
def perform (move : Move M.State M.Store) (session : Session) : M.Progress :=
  match move with
  | .running s => .running s session
  | .calling c store next =>
    match session.call c with
    | (.ok answer, session) => .running (next answer) session
    | (.error fatal, session) => .halted (.failed fatal) ⟨session, store⟩
  | .halted outcome store _ => .halted outcome ⟨session, store⟩
  | .stuck => .stuck

/-- Carries out moves until the machine halts, at most `n` more. There is no answer when it has not
halted by then, or gets stuck. -/
def run (inst : Instance) : Nat → M.Progress → Option (Outcome × M.World)
  | _, .halted outcome w => some (outcome, w)
  | _, .stuck => none
  | 0, .running _ _ => none
  | n + 1, .running s session => run inst n (M.perform (M.step inst s) session)

/-- Calls a function without arguments. -/
def invoke (inst : Instance) (n : Nat) (f : Callee) (w : M.World) : Option (Outcome × M.World) :=
  M.run inst n (M.perform (M.call inst f w.store) w.session)

end Machine

end ArrayHost.Wasm
