import EventSchema.Source.Fault

namespace EventSchema
namespace CommandLine

/-!
# Options among arguments

An argument that starts with a hyphen is an option: `--name`, `--name=value`,
or a hyphen and a row of letters.  A single hyphen is a word, and after `--`
everything is.  A command that has commands of its own stops at the first word,
since the rest belongs to the inner command; any other command takes options
and words in any order.
-/

/-- An option that a command knows. -/
structure Switch where
  name : Text
  letter : Option Symbol
  takesValue : Bool
  deriving DecidableEq, Repr

/-- Why arguments make no request. -/
inductive UsageFault where
  | unknownOption (text : Text)
  | missingValue (name : Text)
  | unexpectedValue (name : Text)
  | missingCommand
  | unknownCommand (name : Text)
  | missingArgument (name : Text)
  | surplusArgument (text : Text)
  | notInteger (text : Text)
  | unusablePath (text : Text) (fault : Text.ByteFault)
  deriving DecidableEq, Repr

def UsageFault.message : UsageFault -> Text
  | unknownOption text => "there is no option " ++ Text.quoted text
  | missingValue name => "the option --" ++ name ++ " needs a value"
  | unexpectedValue name => "the option --" ++ name ++ " takes no value"
  | missingCommand => "a command is needed"
  | unknownCommand name => "there is no command " ++ Text.quoted name
  | missingArgument name => "the argument " ++ name ++ " is missing"
  | surplusArgument text => "unexpected argument " ++ Text.quoted text
  | notInteger text => Text.quoted text ++ " is no integer"
  | unusablePath text fault => Text.quoted text ++ " is no path: " ++ fault.message

/-- The options given, each with its value if it takes one, and the words. -/
structure Arguments where
  given : List (Switch × Option Text)
  words : List Text
  deriving DecidableEq, Repr

namespace Arguments

def empty : Arguments where
  given := []
  words := []

/-- Put an option in front. -/
def withOption (arguments : Arguments) (switch : Switch) (value : Option Text) : Arguments :=
  { arguments with given := (switch, value) :: arguments.given }

/-- Put a word in front. -/
def withWord (arguments : Arguments) (word : Text) : Arguments :=
  { arguments with words := word :: arguments.words }

/-- Whether an option is given. -/
def has (arguments : Arguments) (switch : Switch) : Bool :=
  arguments.given.any fun found => found.1 = switch

/-- The last value given to an option. -/
def value? (arguments : Arguments) (switch : Switch) : Option Text :=
  (arguments.given.reverse.find? fun found => found.1 = switch).bind Prod.snd

end Arguments

/-- What a single argument is by its form. -/
inductive ArgumentForm where
  /-- Everything after it is a word. -/
  | terminator
  | word
  | long (name : Text) (value : Option Text)
  | letters (row : Text)
  deriving DecidableEq, Repr

/-- A long option: a name, and a value if there is an equals sign. -/
def ArgumentForm.ofLong (text : Text) : ArgumentForm :=
  let name := text.takeWhile fun (symbol : Symbol) => symbol ≠ '='
  match text.dropWhile fun (symbol : Symbol) => symbol ≠ '=' with
  | [] => .long name none
  | _ :: value => .long name (some value)

def ArgumentForm.of (argument : Text) : ArgumentForm :=
  match argument with
  | [.char '-', .char '-'] => .terminator
  | .char '-' :: .char '-' :: text => .ofLong text
  | [.char '-'] => .word
  | .char '-' :: row => .letters row
  | _ => .word

/-- The options that a row of letters stands for.  No option with a letter takes
a value. -/
def switchesOf (known : List Switch) (row : Text) : Except UsageFault (List Switch) :=
  row.mapM fun letter =>
    match known.find? fun switch => switch.letter = some letter with
    | some switch => .ok switch
    | none => .error (.unknownOption ['-', letter])

/-- Read arguments with the options known.  `awaiting` is an option whose value
is the next argument, whatever its form; `mixed` says that options may follow
words. -/
def scan (known : List Switch) (mixed : Bool) :
    (awaiting : Option Switch) -> List Text -> Except UsageFault Arguments
  | none, [] => .ok .empty
  | some switch, [] => .error (.missingValue switch.name)
  | some switch, argument :: rest => do
      let others ← scan known mixed none rest
      pure (others.withOption switch (some argument))
  | none, argument :: rest =>
      match ArgumentForm.of argument with
      | .terminator => .ok { Arguments.empty with words := rest }
      | .word =>
          if mixed then do
            let others ← scan known mixed none rest
            pure (others.withWord argument)
          else .ok { Arguments.empty with words := argument :: rest }
      | .letters row => do
          let switches ← switchesOf known row
          let others ← scan known mixed none rest
          pure (switches.foldr (fun switch arguments => arguments.withOption switch none) others)
      | .long name value =>
          match known.find? fun switch => switch.name = name with
          | none => .error (.unknownOption argument)
          | some switch =>
              match switch.takesValue, value with
              | true, none => scan known mixed (some switch) rest
              | true, some value => do
                  let others ← scan known mixed none rest
                  pure (others.withOption switch (some value))
              | false, none => do
                  let others ← scan known mixed none rest
                  pure (others.withOption switch none)
              | false, some _ => .error (.unexpectedValue name)

end CommandLine
end EventSchema
