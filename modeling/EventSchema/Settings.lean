import EventSchema.OrderedMap
import EventSchema.SchemaTree

namespace EventSchema

/-!
# Settings

Where a schema is looked for when nothing else is said.  The environment may
name the home folder and the extensions folder below it; an empty name is a
name, too.
-/

/-- The variables of a process by name. -/
abbrev Environment := OrderedMap Text Text

/-- The environment that holds the given variables.  Values are kept as bytes and
read back from there. -/
def Environment.ofVariables (given : List (Text × Text)) :
    Except Text.ByteFault Environment :=
  given.mapM fun entry =>
    match Text.byteFault? entry.2 with
    | some fault => .error fault
    | none => .ok (entry.1, Text.ofBytes (Text.bytes entry.2))

/-- The folders of a schema. -/
structure Settings where
  home : Path
  extensions : Text
  deriving DecidableEq, Repr

namespace Settings

def homeVariable : String := "SCHEMA_HOME"
def extensionsVariable : String := "SCHEMA_EXTENSIONS_DIR"
def defaultHome : Text := "../schema"

/-- The settings that an environment makes. -/
def ofEnvironment (environment : Environment) : Settings where
  home := Path.parse ((environment.get? homeVariable).getD defaultHome)
  extensions := (environment.get? extensionsVariable).getD SchemaTree.defaultExtensions

/-- The schema that the settings find in a source. -/
def tree (settings : Settings) (source : Source) : SchemaTree :=
  .below source settings.home settings.extensions

end Settings
end EventSchema
