import ArrayHost.Fatal
import ArrayHost.Text.Quoted

/-!
# Log records

What the host reports about its own work while a module is loaded and run, and how each record is
written.
-/

namespace ArrayHost

/-- An entry of the log. -/
inductive Record where
  /-- A heap was changed. -/
  | heap (entry : Heap.Entry)
  /-- A number that is no Unicode scalar value was printed as a replacement character. -/
  | invalidCodePoint (value : Int32)
  /-- A line that holds no integer was skipped. -/
  | skippedLine (line : List Char)
  /-- The host functions were made available. -/
  | registered (count : Nat)
  /-- A host was configured, with the fuel granted to each run if fuel is metered. -/
  | ready (entry : String) (fuel : Option Nat)
  /-- The entry point was found and is called. -/
  | calling (entry : String)
  /-- A host function called by the entry point failed. -/
  | aborted (fatal : Fatal)
  deriving DecidableEq

/-- How serious a record is. -/
inductive Record.Level where
  /-- Something is wrong but the run goes on. -/
  | warn
  /-- A step of the host's own work. -/
  | debug
  /-- A change to a heap. -/
  | trace
  deriving DecidableEq

namespace Record

/-- The name of a level. -/
def Level.name : Level → String
  | .warn => "WARN"
  | .debug => "DEBUG"
  | .trace => "TRACE"

/-- How serious a record is. -/
def level : Record → Level
  | .heap _ => .trace
  | .invalidCodePoint _ => .warn
  | .skippedLine _ | .registered _ | .ready _ _ | .calling _ | .aborted _ => .debug

/-- The text of a heap entry. -/
def entryText : Heap.Entry → String
  | .allocated h n => "allocate handle=" ++ Text.wordText h ++ " len=" ++ toString n
  | .pushed h x => "push handle=" ++ Text.wordText h ++ " value=" ++ Text.wordText x
  | .overwritten h i x =>
    "set handle=" ++ Text.wordText h ++ " index=" ++ Text.wordText i ++
      " value=" ++ Text.wordText x

/-- The text of a record, which names the part of the host that it comes from. -/
def text : Record → String
  | .heap entry => "[drac heap] " ++ entryText entry
  | .invalidCodePoint c => "[drac host] invalid code point " ++ Text.wordText c
  | .skippedLine line => "[drac host] readi: retrying after " ++ String.ofList (Text.quote line)
  | .registered count => "[drac host] registered " ++ toString count ++ " functions"
  | .ready entry fuel =>
    let budget := match fuel with
      | none => "None"
      | some n => "Some(" ++ toString n ++ ")"
    "[drac engine] ready (entry=" ++ entry ++ ", fuel=" ++ budget ++ ")"
  | .calling entry => "[drac engine] calling " ++ entry
  | .aborted f => "[drac engine] run aborted: " ++ f.message

/-- The record as a line of the log. -/
def line (r : Record) : String :=
  r.level.name ++ " " ++ r.text

end Record

end ArrayHost
