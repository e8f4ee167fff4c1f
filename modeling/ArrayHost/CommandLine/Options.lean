import ArrayHost.Host

/-!
# Command-line options

The options of the command line and how an argument list is read. An argument that starts with `--`
is a long option, whose value is joined to it by `=` or is the next argument; one that starts with a
single `-` holds flags of one letter; any other is the value of the option before it or, when no
option waits for one, the module path. After `--` every argument is a value or a path.

A value is examined when the next option, or the end, shows that it is complete. Until then an
argument that is wrong in itself is reported in its place.
-/

namespace ArrayHost.CommandLine

/-- Why an argument list is refused, or needs another answer than a run. -/
inductive UsageError where
  /-- Help was asked for. -/
  | displayHelp
  /-- The version was asked for. -/
  | displayVersion
  /-- There is no module and nothing else to do. -/
  | missingRequiredArgument
  /-- No option has this name, or there is one path too many. -/
  | unknownArgument
  /-- A number is malformed or too large. -/
  | valueValidation
  /-- A value is missing, or a path is empty. -/
  | invalidValue
  /-- An option is repeated. -/
  | argumentConflict
  /-- A flag has a value. -/
  | tooManyValues
  deriving DecidableEq

/-- The exit status that goes with an error. -/
def UsageError.exitStatus : UsageError → UInt8
  | .displayHelp | .displayVersion => 0
  | _ => 2

/-- The text that describes an error. -/
def UsageError.message : UsageError → String
  | .displayHelp => "help was asked for"
  | .displayVersion => "the version was asked for"
  | .missingRequiredArgument => "a module is required"
  | .unknownArgument => "unexpected argument"
  | .valueValidation => "invalid number"
  | .invalidValue => "a value is required"
  | .argumentConflict => "an argument cannot be used more than once"
  | .tooManyValues => "unexpected value for a flag"

/-- What the command line asks for. -/
structure Options where
  /-- The path of the module. -/
  module : Option String := none
  /-- The name of the entry point, if it is given. -/
  entry : Option String := none
  /-- The fuel granted to the run, if it is limited. -/
  fuel : Option UInt64 := none
  /-- The size of the stack in bytes, if it is given. -/
  maxStack : Option UInt64 := none
  /-- Whether the import declarations are printed instead of a run. -/
  printImports : Bool := false
  deriving DecidableEq

/-- The name of the entry point. -/
def Options.entryPoint (o : Options) : String :=
  o.entry.getD "main"

/-- The configuration that the options select. -/
def Options.config (o : Options) : Config :=
  let config : Config := { entryPoint := o.entryPoint }
  let config := match o.fuel with
    | none => config
    | some fuel => { config with consumeFuel := true, fuel }
  match o.maxStack with
  | none => config
  | some maxStack => { config with maxStack }

/-- An argument that has a value. -/
inductive Slot where
  | module
  | entry
  | fuel
  | maxStack
  deriving DecidableEq

/-- An argument that is complete without a value. -/
inductive Flag where
  | printImports
  | help
  | version
  deriving DecidableEq

/-- An unsigned number of 64 bits: digits with an optional plus sign before them. -/
def number? (text : String) : Option UInt64 :=
  let digits := match text.toList with
    | '+' :: digits => digits
    | digits => digits
  (Text.natural? digits).bind fun n => if n < UInt64.size then some (UInt64.ofNat n) else none

/-- The argument already has a value. -/
def Options.has (o : Options) : Slot → Bool
  | .module => o.module.isSome
  | .entry => o.entry.isSome
  | .fuel => o.fuel.isSome
  | .maxStack => o.maxStack.isSome

/-- Gives an argument its value. A second value is refused before it is examined. -/
def Options.set (o : Options) (slot : Slot) (value : String) : Except UsageError Options :=
  if o.has slot then .error .argumentConflict
  else match slot with
    | .module => if value = "" then .error .invalidValue else .ok { o with module := some value }
    | .entry => .ok { o with entry := some value }
    | .fuel =>
      match number? value with
      | none => .error .valueValidation
      | some n => .ok { o with fuel := some n }
    | .maxStack =>
      match number? value with
      | none => .error .valueValidation
      | some n => .ok { o with maxStack := some n }

/-- Sets a flag. -/
def Options.raise (o : Options) : Flag → Except UsageError Options
  | .help => .error .displayHelp
  | .version => .error .displayVersion
  | .printImports =>
    if o.printImports then .error .argumentConflict else .ok { o with printImports := true }

/-- An argument that has been begun and not examined yet. -/
inductive Pending where
  /-- Nothing. -/
  | nothing
  /-- An option that waits for its value. -/
  | awaiting (slot : Slot)
  /-- An argument with its value. -/
  | holding (slot : Slot) (value : String)
  deriving DecidableEq

/-- How far an argument list has been read. -/
structure Reading where
  /-- The options so far. -/
  options : Options := {}
  /-- The argument that has been begun. -/
  pending : Pending := .nothing
  /-- Whether the module path has been seen. -/
  hasPath : Bool := false
  /-- Whether `--` has been seen. -/
  escaped : Bool := false
  deriving DecidableEq

/-- Examines the argument that has been begun. -/
def Reading.settle (r : Reading) : Except UsageError Reading :=
  match r.pending with
  | .nothing => .ok r
  | .awaiting _ => .error .invalidValue
  | .holding slot value => do
    return { r with options := ← r.options.set slot value, pending := .nothing }

/-- A long option. -/
inductive Long where
  | slot (slot : Slot)
  | flag (flag : Flag)

/-- The long option with a name. -/
def Long.ofName? : String → Option Long
  | "entry" => some (.slot .entry)
  | "fuel" => some (.slot .fuel)
  | "max-stack" => some (.slot .maxStack)
  | "print-imports" => some (.flag .printImports)
  | "help" => some (.flag .help)
  | "version" => some (.flag .version)
  | _ => none

/-- Sets a flag once the argument before it has been examined. -/
def Reading.raise (r : Reading) (flag : Flag) : Except UsageError Reading := do
  let r ← r.settle
  return { r with options := ← r.options.raise flag }

/-- Reads a long option: its name and the value joined to it, if there is one. -/
def Reading.long (r : Reading) (name : String) (value : Option String) :
    Except UsageError Reading :=
  match Long.ofName? name, value with
  | none, _ => .error .unknownArgument
  | some (.slot slot), none => do
    let r ← r.settle
    return { r with pending := .awaiting slot }
  | some (.slot slot), some value => do
    let r ← r.settle
    return { r with options := ← r.options.set slot value }
  | some (.flag flag), none => r.raise flag
  | some (.flag _), some _ => .error .tooManyValues

/-- Reads the letters after a single dash. -/
def Reading.short (r : Reading) : List Char → Except UsageError Reading
  | [] => .ok r
  | 'h' :: letters => do (← r.raise .help).short letters
  | 'V' :: letters => do (← r.raise .version).short letters
  | _ => .error .unknownArgument

/-- Reads an argument that is no option. -/
def Reading.value (r : Reading) (value : String) : Except UsageError Reading :=
  match r.pending, r.escaped with
  | .awaiting slot, false => .ok { r with pending := .holding slot value }
  | _, _ =>
    if r.hasPath then .error .unknownArgument
    else do
      let r ← r.settle
      return { r with pending := .holding .module value, hasPath := true }

/-- Reads an argument. -/
def Reading.argument (r : Reading) (arg : String) : Except UsageError Reading :=
  if r.escaped then r.value arg
  else match arg.toList with
    | ['-', '-'] => .ok { r with escaped := true }
    | '-' :: '-' :: text =>
      let name := String.ofList (text.takeWhile (· ≠ '='))
      match text.dropWhile (· ≠ '=') with
      | [] => r.long name none
      | _ :: value => r.long name (some (String.ofList value))
    | '-' :: c :: letters => r.short (c :: letters)
    | _ => r.value arg

/-- Reads an argument list. -/
def Options.read (args : List String) : Except UsageError Options := do
  let r ← args.foldlM Reading.argument {}
  let r ← r.settle
  if r.options.module.isNone ∧ ¬r.options.printImports then .error .missingRequiredArgument
  else return r.options

end ArrayHost.CommandLine
