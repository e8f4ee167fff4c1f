import ArrayHost.Wasm.Module
import ArrayHost.Wasm.Operands

/-!
# Validation

`Module.ofSource?` checks a module's source and finds the places of what it names. A module is valid
when its names are distinct, everything that it refers to exists, its literals fit their types, its
code is well typed, and its start function takes and returns nothing.
-/

namespace ArrayHost.Wasm

/-- The instruction with its global found. -/
def Instr.resolve? (global? : String → Option Nat) : Instr String → Option (Instr Nat)
  | .const32 n => some (.const32 n)
  | .const64 n => some (.const64 n)
  | .localGet i => some (.localGet i)
  | .localSet i => some (.localSet i)
  | .localTee i => some (.localTee i)
  | .globalGet g => (global? g).map .globalGet
  | .globalSet g => (global? g).map .globalSet
  | .drop => some .drop
  | .select => some .select
  | .nop => some .nop
  | .eqz => some .eqz
  | .binary op => some (.binary op)

/-- The code with its functions and globals found. -/
def Code.resolve? (func? : String → Option Callee) (global? : String → Option Nat) :
    Code String String → Option (Code Callee Nat)
  | .done => some .done
  | .instr i next => return .instr (← i.resolve? global?) (← next.resolve? func? global?)
  | .call f next => return .call (← func? f) (← next.resolve? func? global?)
  | .br label next => return .br label (← next.resolve? func? global?)
  | .brIf label next => return .brIf label (← next.resolve? func? global?)
  | .leave next => return .leave (← next.resolve? func? global?)
  | .unreachable next => return .unreachable (← next.resolve? func? global?)
  | .block body next =>
    return .block (← body.resolve? func? global?) (← next.resolve? func? global?)
  | .loop body next =>
    return .loop (← body.resolve? func? global?) (← next.resolve? func? global?)
  | .cond results yes no next =>
    return .cond results (← yes.resolve? func? global?) (← no.resolve? func? global?)
      (← next.resolve? func? global?)

/-- The literals that a type of `size` values has: signed and unsigned ones. -/
def isLiteral (size : Nat) (n : Int) : Bool :=
  -(size : Int) ≤ 2 * n && n < size

/-- What code is typed against. -/
structure Scope where
  /-- The type of each function. -/
  funcType? : Callee → Option FuncType
  /-- The number of globals. -/
  globals : Nat
  /-- The types of the parameters and locals. -/
  locals : List ValType
  /-- The results of the function. -/
  results : List ValType

/-- The operands after an instruction, if it fits the operands before it. -/
def Instr.type? (scope : Scope) (s : Operands) : Instr Nat → Option Operands
  | .const32 n => if isLiteral UInt32.size n then some (s.push [.i32]) else none
  | .const64 n => if isLiteral UInt64.size n then some (s.push [.i64]) else none
  | .localGet i => scope.locals[i]?.map fun t => s.push [t]
  | .localSet i => scope.locals[i]?.bind s.pop?
  | .localTee i => scope.locals[i]?.bind fun t => (s.pop? t).map (·.push [t])
  | .globalGet g => if g < scope.globals then some (s.push [.i32]) else none
  | .globalSet g => if g < scope.globals then s.pop? .i32 else none
  | .drop => s.popAny?.map Prod.snd
  | .select => do
    let s ← s.pop? .i32
    let (t, s) ← s.popAny?
    let (u, s) ← s.popAny?
    let both := t.or u
    if t.or both = both ∧ u.or both = both ∧ both.all (!ValType.isReference ·) then
      some { s with known := both :: s.known }
    else none
  | .nop => some s
  | .eqz => (s.pop? .i32).map (·.push [.i32])
  | .binary _ => (s.popAll? [.i32, .i32]).map (·.push [.i32])

/-- The operands at the end of code that starts with operands `s`, if the code is well typed.
`labels` are the operands that a branch to each enclosing label takes, the innermost first. -/
def Code.type? (scope : Scope) (labels : List (List ValType)) (s : Operands) :
    Code Callee Nat → Option Operands
  | .done => some s
  | .instr i next => do next.type? scope labels (← i.type? scope s)
  | .call f next => do
    let type ← scope.funcType? f
    let s ← s.popAll? type.params
    next.type? scope labels (s.push type.results)
  | .br label next => do
    let _ ← s.popAll? (← labels[label]?)
    next.type? scope labels .unreachable
  | .brIf label next => do
    let s ← s.pop? .i32
    let types ← labels[label]?
    let s ← s.popAll? types
    next.type? scope labels (s.push types)
  | .leave next => do
    let _ ← s.popAll? scope.results
    next.type? scope labels .unreachable
  | .unreachable next => next.type? scope labels .unreachable
  | .block body next => do
    guard ((← body.type? scope ([] :: labels) .empty).yields [])
    next.type? scope labels s
  | .loop body next => do
    guard ((← body.type? scope ([] :: labels) .empty).yields [])
    next.type? scope labels s
  | .cond results yes no next => do
    let s ← s.pop? .i32
    guard ((← yes.type? scope (results :: labels) .empty).yields results)
    guard ((← no.type? scope (results :: labels) .empty).yields results)
    next.type? scope labels (s.push results)

/-- What the code of a function of a module is typed against. -/
def Module.scope (m : Module) (f : Func) : Scope where
  funcType? := m.funcType?
  globals := m.globals.size
  locals := f.type.params ++ f.locals
  results := f.type.results

/-- The code of a function of a module is well typed. -/
def Func.isValid (m : Module) (f : Func) : Bool :=
  match f.body.type? (m.scope f) [f.type.results] .empty with
  | some s => s.yields f.type.results
  | none => false

namespace Source

/-- The names that functions are referred to by, with their places. -/
def funcNames (source : Source) : List (String × Callee) :=
  (source.imports.zipIdx.filterMap fun ((i, name), k) =>
      match i.kind, name with
      | .func _, some name => some (name, .imported k)
      | _, _ => none) ++
    source.funcs.zipIdx.map fun (f, k) => (f.name, .defined k)

/-- The place of the function with a name. -/
def func? (source : Source) (name : String) : Option Callee :=
  source.funcNames.lookup name

/-- The place of the global with a name. -/
def global? (source : Source) (name : String) : Option Nat :=
  (source.globals.map Prod.fst).idxOf? name

/-- No two functions, no two globals and no two exports have the same name. -/
def namesDistinct (source : Source) : Bool :=
  decide (source.funcNames.map Prod.fst).Nodup && decide (source.globals.map Prod.fst).Nodup &&
    decide (source.exports.map Export.name).Nodup

/-- A function with what its code names found. -/
def Func.resolve? (source : Source) (f : Func) : Option Wasm.Func := do
  return ⟨f.type, f.locals, ← f.body.resolve? source.func? source.global?⟩

/-- The exported functions with their places. Every export must offer something that exists. -/
def exportedFuncs? (source : Source) : Option (List (String × Callee)) := do
  let found ← source.exports.mapM fun e =>
    match e.kind with
    | .func => (source.func? e.target).map fun f => some (e.name, f)
    | .global => (source.global? e.target).map fun _ => none
  return found.filterMap id

/-- The module with everything found that its source names. -/
def resolve? (source : Source) : Option Module := do
  return {
    imports := (source.imports.map Prod.fst).toArray
    globals := (source.globals.map fun (_, n) => Int32.ofInt n).toArray
    funcs := (← source.funcs.mapM (Func.resolve? source)).toArray
    exports := ← source.exportedFuncs?
    start := ← source.start.mapM source.func? }

end Source

/-- The functions of a module are well typed, those that it exports exist, and its start function
takes and returns nothing. -/
def Module.isWellTyped (m : Module) : Bool :=
  m.funcs.all (Func.isValid m) && m.exports.all (fun e => (m.funcType? e.2).isSome) &&
    match m.start with
    | none => true
    | some f => m.funcType? f = some ⟨[], []⟩

/-- The valid module with the given source. -/
def Module.ofSource? (source : Source) : Option Module := do
  guard source.namesDistinct
  guard (source.globals.all fun (_, n) => isLiteral UInt32.size n)
  let m ← source.resolve?
  guard m.isWellTyped
  return m

end ArrayHost.Wasm
