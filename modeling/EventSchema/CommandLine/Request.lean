import EventSchema.CommandLine.Options
import EventSchema.Number.Numeral
import EventSchema.Settings

namespace EventSchema
namespace CommandLine

/-!
# Requests

The command line knows the command `check`, which loads a schema and counts
what it holds, and the commands below `query`, which show parts of it.
Identifiers narrow a query to one entry.  Help that is asked for is given
whatever else is missing, as long as all options are known, and so is the
completion of command lines.
-/

/-- A question about a catalog. -/
inductive Query where
  | version
  | categories (name : Option Text)
  | classes (name : Option Text)
  | classNumbered (uid : Int)
  | objects (name : Option Text)
  | dictionary
  deriving DecidableEq, Repr

inductive Command where
  | check
  | query (about : Query)
  deriving DecidableEq, Repr

/-- A command with the options given to it. -/
structure Request where
  verbose : Bool
  home : Option Text
  extensions : Option Text
  command : Command
  deriving DecidableEq, Repr

/-- What arguments ask for.  Help and completion stand before any request. -/
inductive Reading where
  | help
  | completion
  | request (found : Request)
  deriving DecidableEq, Repr

def helpSwitch : Switch := ⟨"help", some (.char 'h'), false⟩
def verboseSwitch : Switch := ⟨"verbose", some (.char 'v'), false⟩
def homeSwitch : Switch := ⟨"home", none, true⟩
def extensionsSwitch : Switch := ⟨"extensions-dir", none, true⟩

/-- The options that ask for the completion of command lines by the shell. -/
def completionSwitches : List Switch :=
  [⟨"install-completion", none, false⟩, ⟨"show-completion", none, false⟩]

/-- The options of the program itself. -/
def mainSwitches : List Switch :=
  verboseSwitch :: helpSwitch :: completionSwitches

/-- A command that takes no argument. -/
def alone (command : Command) : List Text -> Except UsageFault Command
  | [] => .ok command
  | word :: _ => .error (.surplusArgument word)

/-- A command that takes an identifier or none. -/
def withName (command : Option Text -> Command) : List Text -> Except UsageFault Command
  | [] => .ok (command none)
  | [name] => .ok (command (some name))
  | _ :: word :: _ => .error (.surplusArgument word)

/-- A command that takes an integer, read like a field of a record. -/
def withInteger (command : Int -> Command) : List Text -> Except UsageFault Command
  | [] => .error (.missingArgument "uid")
  | [text] =>
      match Numeral.readField text with
      | .ok value => .ok (command value)
      | .error _ => .error (.notInteger text)
  | _ :: word :: _ => .error (.surplusArgument word)

/-- The home folder that options name, if they do.  It has to be a path that can
name something. -/
def homeOf? (found : Arguments) : Except UsageFault (Option Text) :=
  match found.value? homeSwitch with
  | none => .ok none
  | some text =>
      match (Path.parse text).fault? with
      | none => .ok (some text)
      | some fault => .error (.unusablePath text fault)

/-- Read the arguments of a command that has no inner commands. -/
def readCommand (verbose : Bool) (command : List Text -> Except UsageFault Command)
    (arguments : List Text) : Except UsageFault Reading := do
  let found ← scan [homeSwitch, extensionsSwitch, helpSwitch] true none arguments
  if found.has helpSwitch then pure .help
  else do
    let home ← homeOf? found
    let command ← command found.words
    pure (.request
      { verbose
        home
        extensions := found.value? extensionsSwitch
        command })

/-- What the options in front of a command ask for by themselves. -/
def Arguments.immediate? (found : Arguments) : Option Reading :=
  if found.has helpSwitch then some .help
  else if completionSwitches.any found.has then some .completion
  else none

/-- A word that names no command.  One that has the form of an option is read as
such, so that help is given also after `--`. -/
def noCommand (known : List Switch) (word : Text) (rest : List Text) :
    Except UsageFault Reading := do
  let found ← scan known false none (word :: rest)
  match found.immediate? with
  | some reading => pure reading
  | none => .error (.unknownCommand word)

/-- The commands below `query`, each with the way its arguments are read. -/
def queryCommands : OrderedMap Text (List Text -> Except UsageFault Command) :=
  [("version", alone (.query .version)),
   ("categories", withName fun name => .query (.categories name)),
   ("classes", withName fun name => .query (.classes name)),
   ("find-class", withInteger fun uid => .query (.classNumbered uid)),
   ("objects", withName fun name => .query (.objects name)),
   ("dictionary", alone (.query .dictionary))]

/-- Read the arguments of the command `query`. -/
def readQuery (verbose : Bool) (arguments : List Text) : Except UsageFault Reading := do
  let known := [helpSwitch]
  let found ← scan known false none arguments
  match found.immediate?, found.words with
  | some reading, _ => pure reading
  | none, [] => .error .missingCommand
  | none, word :: rest =>
      match queryCommands.get? word with
      | some command => readCommand verbose command rest
      | none => noCommand known word rest

/-- Read the arguments of the program. -/
def Reading.ofArguments (arguments : List Text) : Except UsageFault Reading := do
  let found ← scan mainSwitches false none arguments
  let verbose := found.has verboseSwitch
  match found.immediate?, found.words with
  | some reading, _ => pure reading
  | none, [] => .error .missingCommand
  | none, word :: rest =>
      if word = "check" then readCommand verbose (alone .check) rest
      else if word = "query" then readQuery verbose rest
      else noCommand mainSwitches word rest

namespace Request

/-- The level from which log entries are shown. -/
def threshold (request : Request) : Level :=
  if request.verbose then .info else .warning

/-- The settings of a request.  A home folder that is given counts even when it
is empty, an empty extensions folder does not. -/
def settings (request : Request) (environment : Environment) : Settings :=
  let fallback := Settings.ofEnvironment environment
  { home := (request.home.map Path.parse).getD fallback.home
    extensions :=
      match request.extensions with
      | none => fallback.extensions
      | some folder => if folder.isEmpty then fallback.extensions else folder }

end Request

example : Reading.ofArguments ["-vh"] = .ok .help := rfl
example : Reading.ofArguments ["check", "--home"] = .error (.missingValue "home") := rfl
example : Reading.ofArguments ["--", "-h"] = .ok .help := rfl
example : Reading.ofArguments ["check", "--home", "\x00"] =
    .error (.unusablePath "\x00" .holdsNul) := rfl
example : Reading.ofArguments ["query", "find-class", "--", "-1"] =
    .ok (.request ⟨false, none, none, .query (.classNumbered (-1))⟩) := rfl

end CommandLine
end EventSchema
