import ArrayHost.Fatal

/-!
# Failures of a run

What can stop a module from being loaded or from running to its end, the text that reports it, and
the exit status it leads to: 2 when the module could not be loaded or linked, 1 when it failed while
it ran.
-/

namespace ArrayHost

/-- Why a module was not run to its end. -/
inductive Failure where
  /-- The configuration cannot be used. -/
  | config (text : String)
  /-- The module is not valid. -/
  | compile (text : String)
  /-- The module file cannot be read. -/
  | io (text : String)
  /-- The module imports what the host does not offer. -/
  | unknownImport (module name : String)
  /-- The module cannot be linked, or its start function failed. -/
  | instantiate (text : String)
  /-- The module exports no function under the name of the entry point. -/
  | missingEntryPoint (name : String)
  /-- A host function failed. -/
  | fatal (fatal : Fatal)
  /-- The fuel of the run was used up. -/
  | outOfFuel
  /-- The module's own code failed. -/
  | trap (text : String)
  deriving DecidableEq

namespace Failure

/-- The text that reports a failure. -/
def message : Failure → String
  | .config text => "Engine configuration error: " ++ text
  | .compile text => "Failed to compile module: " ++ text
  | .io text => "IO error: " ++ text
  | .unknownImport module name => "Unknown import: " ++ module ++ "." ++ name
  | .instantiate text => "Failed to instantiate module: " ++ text
  | .missingEntryPoint name => "Entry point not found: " ++ name
  | .fatal f => f.message
  | .outOfFuel => "Execution ran out of fuel"
  | .trap text => "WebAssembly trap: " ++ text

/-- The exit status that a failure leads to. -/
def exitStatus : Failure → UInt8
  | .config _ | .compile _ | .io _ | .unknownImport _ _ | .instantiate _ | .missingEntryPoint _ => 2
  | .fatal _ | .outOfFuel | .trap _ => 1

end Failure

end ArrayHost
