import ArrayHost.CommandLine.Options

/-!
# The command

What the command does with an argument list: it prints the import declarations or the version, or
runs a module on the standard streams and reports how that went.
-/

namespace ArrayHost.CommandLine

/-- What is written to the error stream apart from warnings. -/
inductive Diagnostic where
  /-- The argument list is refused. -/
  | usage (error : UsageError)
  /-- The module was not run to its end. -/
  | failure (failure : Failure)
  deriving DecidableEq

/-- The text of a diagnostic. -/
def Diagnostic.message : Diagnostic → String
  | .usage e => "error: " ++ e.message
  | .failure e => e.message

/-- What the command leaves. -/
structure Report where
  /-- The bytes written to the output. -/
  output : Array UInt8
  /-- The exit status. -/
  status : UInt8
  /-- The warnings, in order. -/
  warnings : List String
  /-- What else is written to the error stream. -/
  diagnostic : Option Diagnostic

/-- What is printed for the version. -/
def versionText : String := "drac-run 0.1.0\n"

/-- What is printed for help. -/
def helpText : String :=
  "Usage: drac-run [--entry NAME] [--fuel N] [--max-stack BYTES] MODULE\n" ++
  "       drac-run --print-imports\n"

/-- The report of a command that prints a text and does nothing else. -/
def Report.ofText (text : String) : Report :=
  ⟨text.toUTF8.data, 0, [], none⟩

/-- The report of a failure before anything was run. -/
def Report.ofFailure (e : Failure) : Report :=
  ⟨#[], e.exitStatus, [], some (.failure e)⟩

/-- The warnings on a log. -/
def warningTexts (log : Array Record) : List String :=
  (log.toList.filter fun r => r.level = .warn).map Record.text

/-- The report of a run. -/
def Report.ofRun (result : Except Failure Unit) (s : Session) : Report :=
  let output := s.console.output.written
  match result with
  | .ok () => ⟨output, 0, warningTexts s.log, none⟩
  | .error e => ⟨output, e.exitStatus, warningTexts s.log, some (.failure e)⟩

/-- Runs the module in a file on a console that never fails. -/
def runFile (config : Config) (file : File) (input : List UInt8) : Option Report :=
  match Host.ofConfig config with
  | .error e => some (.ofFailure e)
  | .ok host =>
    match host.loadFile file with
    | .error e => some (.ofFailure e)
    | .ok m =>
      (host.run Host.maxSteps m (.start (.scripted input))).map fun (result, s) =>
        .ofRun result s

/-- Carries out the command. `files` says what each path stands for, and `input` is what the
standard input holds. -/
def command (args : List String) (files : String → File) (input : List UInt8) : Option Report :=
  match Options.read args with
  | .error .displayHelp => some (.ofText helpText)
  | .error .displayVersion => some (.ofText versionText)
  | .error e => some ⟨#[], e.exitStatus, [], some (.usage e)⟩
  | .ok options =>
    if options.printImports then some (.ofText Interface.preamble)
    else match options.module with
      | none => some ⟨#[], 2, [], none⟩
      | some path => runFile options.config (files path) input

end ArrayHost.CommandLine
