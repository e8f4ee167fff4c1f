import ArrayHost.Wasm.Machine

/-!
# The interpreter

A machine of small steps. Its state is the code that comes next, the locals and operands of the
active function, the control stack of the labels and calls to come back to, and the store: the
globals and the fuel consumed.

Every instruction that computes consumes a unit of fuel. A budget is checked where a function is
entered and where a loop starts or is repeated. A function is entered when the stack has room for
one more active call, each of which takes as many bytes as the interpreter is told. Code that does
not fit the state is `stuck`; typing is there to exclude it.
-/

namespace ArrayHost.Wasm

/-- What an instruction computes on. -/
structure Registers where
  /-- The locals. -/
  locals : Array Value
  /-- The operands. -/
  stack : List Value
  /-- The globals. -/
  globals : Array Int32

/-- The fuel that an instruction consumes. -/
def Instr.cost {G : Type} : Instr G → Nat
  | .drop | .nop => 0
  | _ => 1

/-- Carries out an instruction. There is no answer when it does not fit the registers. -/
def Instr.eval? (r : Registers) (i : Instr Nat) : Option (Except Trap Registers) :=
  match i, r.stack with
  | .const32 n, stack => some (.ok { r with stack := .i32 (Int32.ofInt n) :: stack })
  | .const64 n, stack => some (.ok { r with stack := .i64 (Int64.ofInt n) :: stack })
  | .localGet i, stack => r.locals[i]?.map fun v => .ok { r with stack := v :: stack }
  | .localSet i, v :: stack => some (.ok { r with locals := r.locals.setIfInBounds i v, stack })
  | .localTee i, v :: _ => some (.ok { r with locals := r.locals.setIfInBounds i v })
  | .globalGet g, stack => r.globals[g]?.map fun x => .ok { r with stack := .i32 x :: stack }
  | .globalSet g, .i32 x :: stack =>
    some (.ok { r with globals := r.globals.setIfInBounds g x, stack })
  | .drop, _ :: stack => some (.ok { r with stack })
  | .select, .i32 c :: v :: u :: stack =>
    some (.ok { r with stack := (if c ≠ 0 then u else v) :: stack })
  | .nop, _ => some (.ok r)
  | .eqz, .i32 x :: stack => some (.ok { r with stack := .i32 (ofTruth (x = 0)) :: stack })
  | .binary op, .i32 y :: .i32 x :: stack =>
    some ((op.eval x y).map fun z => { r with stack := .i32 z :: stack })
  | _, _ => none

namespace Interpreter

/-- What outlives the functions that run. -/
structure Store where
  /-- The values of the globals. -/
  globals : Array Int32
  /-- The fuel consumed so far. -/
  consumed : Nat

/-- The store after fuel is consumed. -/
def Store.consume (store : Store) (fuel : Nat) : Store :=
  { store with consumed := store.consumed + fuel }

/-- What to come back to. -/
inductive Frame where
  /-- The code after a block, with the operands below the block's `arity` results. -/
  | block (arity : Nat) (stack : List Value) (next : Code Callee Nat)
  /-- The start of a loop, or the code after it. -/
  | loop (body : Code Callee Nat) (stack : List Value) (next : Code Callee Nat)
  /-- The code after a call, with the caller's locals and the operands below the results. -/
  | call (arity : Nat) (locals : Array Value) (stack : List Value) (next : Code Callee Nat)

/-- The state of the interpreter. -/
structure State where
  /-- The code that comes next. -/
  code : Code Callee Nat
  /-- The parameters and locals of the active function. -/
  locals : Array Value
  /-- The operands of the innermost label, the top one first. -/
  stack : List Value
  /-- What to come back to, the innermost first. -/
  control : List Frame
  /-- The number of calls among it. -/
  depth : Nat
  /-- What outlives the function. -/
  store : Store

/-- What the interpreter does next. -/
abbrev Next := Move State Store

/-- Comes back to a frame with the results on the operands, the top one first. -/
def State.resume (s : State) (frame : Frame) (control : List Frame) : Next :=
  match frame with
  | .block arity stack next =>
    .running { s with code := next, stack := s.stack.take arity ++ stack, control }
  | .loop _ stack next => .running { s with code := next, stack := stack, control }
  | .call arity locals stack next =>
    .running { s with
      code := next, locals, stack := s.stack.take arity ++ stack, control, depth := s.depth - 1 }

/-- Leaves the active function. -/
def State.leave (s : State) : List Frame → Next
  | [] => .halted .returned s.store rfl
  | .call arity locals stack next :: control => s.resume (.call arity locals stack next) control
  | _ :: control => s.leave control

/-- Calls a host function with the operands of a call, of which the last is the first of `args`. -/
def State.callHost (s : State) (b : Binding) (args : List Value) : Next :=
  match b.call? args.reverse with
  | none => .stuck
  | some c =>
    .calling c s.store fun answer => { s with stack := answer.toList.map Value.i32 ++ s.stack }

/-- The state before a function is called without arguments. -/
def State.initial (store : Store) : State where
  code := .done
  locals := #[]
  stack := []
  control := []
  depth := 0
  store := store

section

variable (callSize : Nat) (inst : Instance)

/-- The budget is used up. -/
def isExhausted (store : Store) : Bool :=
  match inst.budget with
  | none => false
  | some budget => budget ≤ store.consumed

/-- Starts a loop, or repeats it. -/
def State.iterate (s : State) (body : Code Callee Nat) (stack : List Value)
    (next : Code Callee Nat) (control : List Frame) : Next :=
  if isExhausted inst s.store then .halted .outOfFuel s.store rfl
  else .running { s with code := body, stack := [], control := .loop body stack next :: control }

/-- Leaves the labels up to the one with the given number. The label after the outermost one of a
function is the end of the function. -/
def State.branch (s : State) (label : Nat) : List Frame → Next
  | .block arity stack next :: control =>
    match label with
    | 0 => s.resume (.block arity stack next) control
    | label + 1 => s.branch label control
  | .loop body stack next :: control =>
    match label with
    | 0 => s.iterate inst body stack next control
    | label + 1 => s.branch label control
  | control => s.leave control

/-- Enters a function of the module with the operands of a call, of which the last is the first of
`args`. -/
def State.enter (s : State) (f : Func) (args : List Value) : Next :=
  if inst.maxStack.toNat < (s.depth + 1) * callSize then
    .halted (.trapped .callStackExhausted) s.store rfl
  else if isExhausted inst s.store then .halted .outOfFuel s.store rfl
  else .running { s with
    code := f.body
    locals := args.reverse.toArray ++ f.locals.map ValType.zero
    stack := []
    depth := s.depth + 1
    store := s.store.consume 1 }

/-- Calls a function, with its arguments on the operands. The code of the state is what comes after
the call. -/
def State.call (s : State) : Callee → Next
  | .imported i =>
    match inst.imports[i]? with
    | none => .stuck
    | some b =>
      let params := b.type.params.length
      { s with stack := s.stack.drop params }.callHost b (s.stack.take params)
  | .defined i =>
    match inst.module.funcs[i]? with
    | none => .stuck
    | some f =>
      let params := f.type.params.length
      let frame := Frame.call f.type.results.length s.locals (s.stack.drop params) s.code
      { s with control := frame :: s.control }.enter callSize inst f (s.stack.take params)

/-- One step of the interpreter. -/
def step (s : State) : Next :=
  match s.code with
  | .done =>
    match s.control with
    | [] => .halted .returned s.store rfl
    | frame :: control => s.resume frame control
  | .instr i next =>
    match s with
    | ⟨_, locals, stack, control, depth, ⟨globals, consumed⟩⟩ =>
      let consumed := consumed + i.cost
      match i.eval? ⟨locals, stack, globals⟩ with
      | none => .stuck
      | some (.error trap) => .halted (.trapped trap) ⟨globals, consumed⟩ rfl
      | some (.ok ⟨locals, stack, globals⟩) =>
        .running ⟨next, locals, stack, control, depth, ⟨globals, consumed⟩⟩
  | .call f next => { s with code := next, store := s.store.consume 1 }.call callSize inst f
  | .br label _ => { s with store := s.store.consume 1 }.branch inst label s.control
  | .brIf label next =>
    match s.stack with
    | .i32 c :: stack =>
      let s := { s with stack, store := s.store.consume 1 }
      if c ≠ 0 then s.branch inst label s.control else .running { s with code := next }
    | _ => .stuck
  | .leave _ => s.leave s.control
  | .unreachable _ => .halted (.trapped .unreachable) s.store rfl
  | .block body next =>
    .running { s with
      code := body, stack := [], control := .block 0 s.stack next :: s.control }
  | .loop body next => s.iterate inst body s.stack next s.control
  | .cond results yes no next =>
    match s.stack with
    | .i32 c :: stack =>
      .running { s with
        code := if c ≠ 0 then yes else no
        stack := []
        control := .block results.length stack next :: s.control
        store := s.store.consume 1 }
    | _ => .stuck

end

end Interpreter

/-- The interpreter, on which an active call takes `callSize` bytes of the stack. -/
def interpreter (callSize : Nat) : Machine where
  State := Interpreter.State
  Store := Interpreter.Store
  fresh m := ⟨m.globals, 0⟩
  call inst f store := (Interpreter.State.initial store).call callSize inst f
  step := Interpreter.step callSize

end ArrayHost.Wasm
