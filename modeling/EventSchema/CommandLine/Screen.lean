import EventSchema.Catalog.Loading
import EventSchema.CommandLine.Request
import EventSchema.Json.Display
import EventSchema.Sorting

namespace EventSchema
namespace CommandLine

/-!
# What commands show

A command shows lines, tables and records, and ends with a status.  Listings
are tables followed by their number of rows; a single entry is shown as a
record in standard JSON, without its null fields.  An identifier that is not
found and a schema at fault end with the status of a failure.
-/

/-- One thing shown.  The words in brackets at the start of some lines are
marks for their colour. -/
inductive Shown where
  | line (text : Text)
  | table (headers : List Text) (rows : List (List Text))
  | record (value : Json)
  deriving DecidableEq

/-- How a command ends. -/
inductive Status where
  | success
  | failure
  | misuse
  deriving DecidableEq, Repr

def Status.code : Status -> Nat
  | success => 0
  | failure => 1
  | misuse => 2

/-- All that a command shows, in order, and how it ends. -/
structure Screen where
  shown : List Shown
  status : Status
  deriving DecidableEq

namespace Screen

/-- The screen of a command that succeeds. -/
def success (shown : List Shown) : Screen where
  shown := shown
  status := .success

/-- A table followed by its number of rows. -/
def listing (headers : List Text) (rows : List (List Text)) : Screen :=
  .success [.table headers rows, .line s!"({rows.length} rows)"]

/-- A single entry, or the word that there is none of that name. -/
def entry {ρ : Type} [Record ρ] (name : Text) : Option ρ -> Report Screen
  | some found => do
      let value ← (Record.toStandard found).mapError Failure.unshowable
      pure (.success [.record value])
  | none => pure { shown := [.line ("Not Found: " ++ name)], status := .failure }

end Screen

/-- The text of a cell; null leaves it empty. -/
def cell : Json -> Text
  | .null => ""
  | value => value.plain

/-- The text of a cell that may be empty. -/
def cellOf? (text : Option Text) : Text :=
  text.getD ""

/-- Entries by name. -/
def byName {α : Type} (entries : OrderedMap Text α) : OrderedMap Text α :=
  Sorting.sort (fun left right => left.1.le right.1) entries

/-- The rank of a class among others: its number, or a place before zero. -/
def rank (cls : ClassDescriptor) : Int :=
  cls.details.uid.getD (-1)

/-- What a catalog holds, in numbers. -/
def overview (catalog : Catalog) : Screen :=
  .success
    [.line ("[green]Loaded[/green] schema version " ++ catalog.version.version),
     .table ["item", "count"]
      [["categories", toString catalog.categories.entries.length],
       ["classes", toString catalog.classes.length],
       ["objects", toString catalog.objects.length],
       ["dictionary attributes", toString catalog.dictionary.entries.length]]]

/-- The caption of a category, or its name if the caption is empty. -/
def categoryCaption (category : Category) : Option Text :=
  (category.caption.filter fun caption => !caption.isEmpty) <|> category.name

/-- All categories by number. -/
def categoryListing (catalog : Catalog) : Screen :=
  .listing ["name", "id", "caption"]
    ((Sorting.sort (fun left right => left.2.id ≤ right.2.id) catalog.categories.entries).map
      fun entry => [entry.1, toString entry.2.id, cellOf? (categoryCaption entry.2)])

/-- All classes by number. -/
def classListing (catalog : Catalog) : Screen :=
  .listing ["name", "uid", "category", "caption"]
    ((Sorting.sort (fun left right => rank left.2 ≤ rank right.2) catalog.classes).map
      fun entry =>
        [entry.1, cell (Field.ofInt? entry.2.details.uid), cellOf? entry.2.details.category,
         entry.2.displayName])

/-- All objects by name. -/
def objectListing (catalog : Catalog) : Screen :=
  .listing ["name", "caption"]
    ((byName catalog.objects).map fun entry => [entry.1, entry.2.displayName])

/-- The row of an attribute in the dictionary.  The name stands in for a caption
that is not given. -/
def attributeRow (name : Text) (definition : Fields) : List Text :=
  let field := fun key => (definition.get? key).getD .null
  let caption := if (field "caption").isGiven then field "caption" else field "name"
  [name, cell (field "type"), cell caption, cell (field "requirement")]

/-- The whole dictionary by name. -/
def dictionaryListing (catalog : Catalog) : Screen :=
  .listing ["name", "type", "caption", "requirement"]
    ((byName catalog.dictionary.entries).map fun entry => attributeRow entry.1 entry.2)

/-- A category with its classes by number. -/
def orderMembers (listing : CategoryListing) : CategoryListing :=
  { listing with
    classes := Sorting.sort (fun left right => rank left ≤ rank right) listing.classes }

/-- Answer a query. -/
def answer (catalog : Catalog) : Query -> Report Screen
  | .version => pure (.success [.line catalog.version.version])
  | .categories none => pure (categoryListing catalog)
  | .categories (some name) => Screen.entry name ((catalog.category? name).map orderMembers)
  | .classes none => pure (classListing catalog)
  | .classes (some name) => do
      let found ← catalog.findClass name
      Screen.entry name found
  | .classNumbered uid => do
      let found ← catalog.findClassNumbered uid
      Screen.entry (toString uid) found
  | .objects none => pure (objectListing catalog)
  | .objects (some name) => do
      let found ← catalog.findObject name
      Screen.entry name found
  | .dictionary => pure (dictionaryListing catalog)

/-- Carry out a command on a loaded catalog. -/
def perform (catalog : Catalog) : Command -> Report Screen
  | .check => pure (overview catalog)
  | .query about => answer catalog about

/-- Load a schema and carry out a command on it.  Faults of the schema are
shown; any other failure is passed on. -/
def carryOut (tree : SchemaTree) (command : Command) : Report Screen := do
  match ← (Catalog.load tree).attempt with
  | .ok catalog => perform catalog command
  | .error failure =>
      if failure.isSchemaFault then
        pure { shown := [.line ("[red]Error:[/red] " ++ failure.message)], status := .failure }
      else Report.fail failure

/-- Run the program on its arguments.  Help, misuse and the completion of command
lines, which no shell is known for, show no result. -/
def run (source : Source) (environment : Environment) (arguments : List Text) :
    Report Screen :=
  match Reading.ofArguments arguments with
  | .error _ => pure { shown := [], status := .misuse }
  | .ok .help => pure (.success [])
  | .ok .completion => pure { shown := [], status := .failure }
  | .ok (.request request) =>
      carryOut ((request.settings environment).tree source) request.command

/-- The level from which the program shows log entries. -/
def threshold (arguments : List Text) : Level :=
  match Reading.ofArguments arguments with
  | .ok (.request request) => request.threshold
  | _ => .warning

end CommandLine
end EventSchema
