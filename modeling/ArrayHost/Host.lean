import ArrayHost.Failure
import ArrayHost.Wasm.Interpreter
import ArrayHost.Wasm.Validation

/-!
# The host

A host is configured once, with the machine that runs module code. It loads modules and runs them:
it links a module's imports, runs its start function, and calls its entry point. However a run ends,
the output is flushed at its end.

Whatever stops a module from being linked or started is an `instantiate` failure. A failure of the
entry point keeps its kind. A failed flush at the end is reported only when nothing failed before.
-/

namespace ArrayHost

/-- How a host runs modules. -/
structure Config where
  /-- The name of the exported function that is called. -/
  entryPoint : String := "main"
  /-- Whether the fuel of a run is limited. -/
  consumeFuel : Bool := false
  /-- The fuel granted to each run when it is limited. -/
  fuel : UInt64 := 1000000
  /-- The size of the stack of module code in bytes. -/
  maxStack : UInt64 := 524288
  deriving DecidableEq

/-- The fuel granted to each run, if it is limited. -/
def Config.budget (c : Config) : Option Nat :=
  if c.consumeFuel then some c.fuel.toNat else none

/-- A configured host. -/
structure Host where
  /-- The configuration. -/
  config : Config
  /-- There is a stack. -/
  maxStack_ne_zero : config.maxStack ≠ 0
  /-- What runs module code. -/
  machine : Wasm.Machine

/-- What a path stands for. -/
inductive File where
  /-- Nothing has this path. -/
  | missing
  /-- The path is that of a directory. -/
  | directory
  /-- The file cannot be read for the given reason. -/
  | unreadable (reason : String)
  /-- A file, which may hold a module. -/
  | holding (source : Option Wasm.Source)

namespace Host

/-- The machine of a host that is only configured. How many bytes of the stack a call takes is not
laid down anywhere, and nothing depends on it but the depth at which calls exhaust the stack. -/
def usualMachine : Wasm.Machine := Wasm.interpreter 32

/-- The host with the given configuration. -/
def ofConfig (config : Config) : Except Failure Host :=
  if h : config.maxStack = 0 then .error (.config "max_wasm_stack size cannot be zero")
  else .ok ⟨config, h, usualMachine⟩

/-- The host with the default configuration. -/
def standard : Host := ⟨{}, by decide, usualMachine⟩

/-- The records that a host makes when it is configured. -/
def openingLog (h : Host) : List Record :=
  [.registered Interface.functions.length, .ready h.config.entryPoint h.config.budget]

/-- The host offers nothing that the import could be. -/
def isUnknown (i : Wasm.Import) : Bool :=
  i.module ≠ Interface.moduleName || (Interface.find? i.name).isNone

/-- Loads the module that a file or a text holds. The whole module is validated before its imports
are looked up; their types are left to linking. -/
def load (_ : Host) (source : Option Wasm.Source) : Except Failure Wasm.Module :=
  match source.bind Wasm.Module.ofSource? with
  | none => .error (.compile "not a valid module")
  | some m =>
    match m.imports.find? isUnknown with
    | some i => .error (.unknownImport i.module i.name)
    | none => .ok m

/-- Loads the module in a file. -/
def loadFile (h : Host) : File → Except Failure Wasm.Module
  | .missing => .error (.io "No such file or directory (os error 2)")
  | .directory => .error (.io "Is a directory (os error 21)")
  | .unreadable reason => .error (.io reason)
  | .holding source => h.load source

/-- The instance of a module with linked imports. -/
def instantiate (h : Host) (m : Wasm.Module) (imports : Array Wasm.Binding) : Wasm.Instance where
  module := m
  imports := imports
  budget := h.config.budget
  maxStack := h.config.maxStack

/-- What is reported of a module that is not linked. -/
def notLinked : Failure := .instantiate "an import has another type"

/-- What is reported of a module whose start function does not return. -/
def notStarted : Failure := .instantiate "the start function failed"

/-- What is reported of an entry point that takes arguments. -/
def notApplicable (params : Nat) : Failure :=
  .trap ("expected " ++ toString params ++ " arguments, got 0")

section

variable {machine : Wasm.Machine}

/-- Runs the start function of a module, if it has one. -/
def runStart (machine : Wasm.Machine) (inst : Wasm.Instance) (n : Nat) (s : Session) :
    Option (Wasm.Outcome × machine.World) :=
  let w : machine.World := ⟨s, machine.fresh inst.module⟩
  match inst.module.start with
  | none => some (.returned, w)
  | some f => machine.invoke inst n f w

/-- What is reported of a call of the entry point. A fatal error is put on the log. -/
def settle : Wasm.Outcome × machine.World → Except Failure Unit × Session
  | (.returned, w) => (.ok (), w.session)
  | (.trapped trap, w) => (.error (.trap trap.message), w.session)
  | (.failed fatal, w) => (.error (.fatal fatal), w.session.report (.aborted fatal))
  | (.outOfFuel, w) => (.error .outOfFuel, w.session)

end

/-- Calls the entry point without arguments. -/
def callEntry (h : Host) (inst : Wasm.Instance) (n : Nat) (w : h.machine.World) :
    Option (Except Failure Unit × Session) :=
  let name := h.config.entryPoint
  match inst.module.exported? name with
  | none => some (.error (.missingEntryPoint name), w.session)
  | some f =>
    let w := { w with session := w.session.report (.calling name) }
    if inst.module.arity f = 0 then (h.machine.invoke inst n f w).map settle
    else some (.error (notApplicable (inst.module.arity f)), w.session)

/-- Links a module, runs its start function and calls its entry point. -/
def execute (h : Host) (n : Nat) (m : Wasm.Module) (s : Session) :
    Option (Except Failure Unit × Session) :=
  match m.link? with
  | none => some (.error notLinked, s)
  | some imports =>
    let inst := h.instantiate m imports
    match runStart h.machine inst n s with
    | none => none
    | some (.returned, w) => h.callEntry inst n w
    | some (_, w) => some (.error notStarted, w.session)

/-- Ends a run with a flush of the output. A failed flush is reported when nothing failed before. -/
def conclude : Except Failure Unit × Session → Except Failure Unit × Session
  | (result, s) =>
    let (flushed, s) := s.finish
    (result.bind fun _ => flushed.mapError .fatal, s)

/-- Runs a module and flushes the output at the end. There is no answer when the machine has not
halted after `n` steps. -/
def run (h : Host) (n : Nat) (m : Wasm.Module) (s : Session) :
    Option (Except Failure Unit × Session) :=
  (h.execute n m s).map conclude

/-- The number of steps after which a run is given up. -/
def maxSteps : Nat := 1 <<< 62

/-- Runs a module with the default configuration on a scripted console. The answer is all that it
wrote, with the log of the host. -/
def runScripted (source : Option Wasm.Source) (input : List UInt8) :
    Option (Except Failure (List Char) × List Record) :=
  match standard.load source with
  | .error e => some (.error e, standard.openingLog)
  | .ok m =>
    (standard.run maxSteps m (.start (.scripted input))).map fun (result, s) =>
      (result.map fun _ => Text.decode s.console.output.written.toList,
        standard.openingLog ++ s.log.toList)

end Host

end ArrayHost
