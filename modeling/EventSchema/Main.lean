import EventSchema.CommandLine.Screen
import EventSchema.Json.Reader
import EventSchema.Json.Writer
import EventSchema.Source.Memory

namespace EventSchema
namespace Program

/-!
# The program

The files of a schema arrive on standard input, packed into one JSON object
from paths to contents.  Arguments and environment say what is asked; the
answer goes to standard output, and log entries and complaints to standard
error.
-/

/-- How the program is called. -/
def usage : String :=
  "usage: event-schema [-v] (check | query COMMAND) [--home DIR] [--extensions-dir NAME]\n" ++
    "query commands: version, categories [ID], classes [ID], find-class UID, objects [ID],\n" ++
    "                dictionary\n" ++
    "standard input holds the files of the schema as one JSON object by path"

/-- The lines that show one thing. -/
def lines : CommandLine.Shown -> List String
  | .line text => [text.toStringLossy]
  | .table headers rows =>
      (headers :: rows).map fun row => "\t".intercalate (row.map Text.toStringLossy)
  | .record value => [value.write]

/-- The variables of the environment that the program looks at. -/
def readVariables : IO (List (Text × Text)) := do
  let found ← [Settings.homeVariable, Settings.extensionsVariable].mapM fun name => do
    let value ← IO.getEnv name
    pure (value.toList.map fun text => (Text.ofString name, Text.ofString text))
  pure found.flatten

/-- Read a stream to its end. -/
partial def readRest (input : IO.FS.Stream) (before : String) : IO String := do
  let line ← input.getLine
  if line.isEmpty then pure before else readRest input (before ++ line)

/-- Show the log of a command and what it shows, and give its status. -/
def display (threshold : Level) (report : Report CommandLine.Screen) : IO UInt32 := do
  let output ← IO.getStdout
  let complaints ← IO.getStderr
  for entry in report.log threshold do
    complaints.putStrLn s!"{entry.1.name}: {entry.2.toStringLossy}"
  match report.outcome with
  | .ok screen => do
      for text in screen.shown.flatMap lines do
        output.putStrLn text
      pure screen.status.code.toUInt32
  | .error failure => do
      complaints.putStrLn failure.message.toStringLossy
      pure CommandLine.Status.failure.code.toUInt32

/-- Say why there is no result. -/
def complain (text : String) : IO UInt32 := do
  let complaints ← IO.getStderr
  complaints.putStrLn text
  pure CommandLine.Status.failure.code.toUInt32

/-- Run a request on the files that standard input holds. -/
def serve (arguments : List Text) : IO UInt32 := do
  let input ← IO.getStdin
  let packed ← readRest input ""
  let given ← readVariables
  match Json.read packed, Environment.ofVariables given with
  | .ok (.obj files), .ok environment => do
      let source := (MemoryTree.ofContents files []).source
      display (CommandLine.threshold arguments)
        (CommandLine.run source environment arguments)
  | _, .error fault => complain s!"the environment is not readable: {fault.message}"
  | _, .ok _ => complain "standard input holds no JSON object"

/-- Read the arguments and do what they ask for. -/
def run (arguments : List Text) : IO UInt32 := do
  match CommandLine.Reading.ofArguments arguments with
  | .ok (.request _) => serve arguments
  | .ok .help => do
      IO.println usage
      pure CommandLine.Status.success.code.toUInt32
  | .ok .completion => complain "no shell is known whose command lines could be completed"
  | .error fault => do
      let complaints ← IO.getStderr
      complaints.putStrLn fault.message.toStringLossy
      complaints.putStrLn usage
      pure CommandLine.Status.misuse.code.toUInt32

end Program
end EventSchema

def main (arguments : List String) : IO UInt32 :=
  EventSchema.Program.run (arguments.map EventSchema.Text.ofString)
