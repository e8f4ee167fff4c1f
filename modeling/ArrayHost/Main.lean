import ArrayHost.CommandLine.Command

/-!
# The program

The command on the streams of the process. Everything is decided by `CommandLine.command`; here the
module file and the standard input are read, and the report is written.
-/

namespace ArrayHost.CommandLine

/-- What a path of the file system stands for. -/
def readFile (path : String) : IO File := do
  try
    let bytes ← IO.FS.readBinFile path
    return .holding (Wasm.Source.ofBytes? bytes.toList)
  catch
    | .noFileOrDirectory _ _ _ => return .missing
    | .inappropriateType _ _ _ => return .directory
    | e => return .unreadable (toString e)

/-- All bytes of a stream, after those that have been read. -/
partial def readAll (stream : IO.FS.Stream) (bytes : ByteArray) : IO ByteArray := do
  let more ← stream.read 4096
  if more.isEmpty then return bytes else readAll stream (bytes ++ more)

/-- Writes a report to the streams of the process; the answer is the exit status. -/
def Report.write (report : Report) : IO UInt32 := do
  let output ← IO.getStdout
  output.write ⟨report.output⟩
  output.flush
  for warning in report.warnings do
    IO.eprintln ("WARN " ++ warning)
  match report.diagnostic with
  | none => pure ()
  | some diagnostic => IO.eprintln diagnostic.message
  return report.status.toUInt32

/-- Carries out the command on the streams of the process; the answer is the exit status. -/
def runProgram (args : List String) : IO UInt32 := do
  let path := match Options.read args with
    | .ok options => if options.printImports then none else options.module
    | .error _ => none
  let file ← match path with
    | none => pure File.missing
    | some path => readFile path
  let input ← if path.isSome then readAll (← IO.getStdin) .empty else pure .empty
  match command args (fun _ => file) input.toList with
  | none =>
    IO.eprintln "the run was given up"
    return 1
  | some report => report.write

end ArrayHost.CommandLine

/-- Carries out the command with the given arguments. -/
def main (args : List String) : IO UInt32 :=
  ArrayHost.CommandLine.runProgram args
