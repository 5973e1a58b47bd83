import EventSchema.Json.Merge
import EventSchema.Record.Descriptor
import EventSchema.Report
import EventSchema.Source.Basic

namespace EventSchema

/-!
# The files of a schema

A schema lives below a home folder: a version, the categories and the
dictionary in files of fixed names, classes below `events` and objects below
`objects`.  Files below the extensions folder are laid over them.  Base files
come first and extension files second, each group in the order of paths, and
all that say the same type are merged in that order.
-/

/-- A source of files with the folders that hold a schema. -/
structure SchemaTree where
  source : Source
  home : Path
  extensions : Path

/-- The raw descriptors of one kind by type. -/
abbrev Declarations := OrderedMap Text Fields

namespace SchemaTree

def versionFile : Text := "version.json"
def categoriesFile : Text := "categories.json"
def dictionaryFile : Text := "dictionary.json"
def eventsFolder : Text := "events"
def objectsFolder : Text := "objects"
def defaultExtensions : Text := "extensions"

/-- The version of a schema that has no version file. -/
def defaultVersion : SchemaVersion := ⟨"0.0.0", []⟩

/-- The tree below a home folder.  The extensions folder is found from there. -/
def below (source : Source) (home : Path) (extensions : Text) : SchemaTree where
  source := source
  home := home
  extensions := home.child extensions

/-- Read a value as a record; violations are blamed on the given source. -/
def decode (ρ : Type) [Record ρ] (source : Text) (value : Json) : Except Failure ρ :=
  (Record.check ρ value).mapError fun found => .undecodable source (.violates found)

variable (tree : SchemaTree)

/-- Whether a file is at a path. -/
def isFile (path : Path) : Report Bool :=
  Report.ofExcept ((tree.source.isFile path).mapError .unreachable)

/-- Whether a folder is at a path. -/
def isFolder (path : Path) : Report Bool :=
  Report.ofExcept ((tree.source.isFolder path).mapError .unreachable)

/-- Read a file that holds one JSON object. -/
def readObject (path : Path) : Report Fields := do
  Report.event (.reading path)
  match tree.source.read path with
  | .error (.unusable fault) => Report.fail (.unreachable (.unusable fault))
  | .error fault => Report.fail (.undecodable path.text (.unreadable fault))
  | .ok text =>
      match Json.read text with
      | .error .oversizeInteger => Report.fail .oversizeInteger
      | .error (.malformed found) => do
          Report.note .error ("invalid JSON file: " ++ path.text ++ ". Error: " ++ found.message)
          Report.fail (.undecodable path.text (.malformed found))
      | .ok (.obj fields) => pure fields
      | .ok _ => Report.fail (.undecodable path.text .notObject)

/-- The JSON files below a folder in order; none if the folder does not exist.
A folder that cannot be listed completely is a failure. -/
def filesBelow (folder : Path) : Report (List Path) := do
  if !(← tree.isFolder folder) then pure []
  else
    let listing := tree.source.list folder
    if listing.complete then pure (listing.files.filter Path.isJson)
    else do
      Report.notes .warning (listing.faults.map fun fault =>
        "unable to access " ++ folder.text ++ " directory. Error: " ++ fault.message)
      Report.fail (.inaccessible folder listing.faults)

/-- The extension files whose path from the extensions folder is selected. -/
def extensionFiles (selected : Path -> Bool) : Report (List Path) := do
  let files ← tree.filesBelow tree.extensions
  pure (files.filter fun path => selected (path.relativeTo tree.extensions))

/-- Say which extension file is read next. -/
def announce (path : Path) : Report Unit :=
  Report.note .info ("reading extension: " ++ path.text)

/-- Read a file of the home folder and lay over it all extension files of that
name. -/
def readLayered (name : Text) : Report Fields := do
  let base ← tree.readObject (tree.home.child name)
  let overlays ← tree.extensionFiles fun path => path.name = name
  overlays.foldlM (fun fields path => do
    announce path
    let overlay ← tree.readObject path
    pure (fields.merge overlay)) base

/-- The version of the schema. -/
def version : Report SchemaVersion := do
  let path := tree.home.child versionFile
  if ← tree.isFile path then do
    let fields ← tree.readObject path
    decode SchemaVersion path.text (.obj fields)
  else do
    Report.note .warning ("version file " ++ path.text ++ " not found")
    pure defaultVersion

/-- The categories of the schema. -/
def categories : Report Categories := do
  let fields ← tree.readLayered categoriesFile
  decode Categories (tree.home.child categoriesFile).text (.obj fields)

/-- The attribute dictionary of the schema. -/
def dictionary : Report Dictionary := do
  let fields ← tree.readLayered dictionaryFile
  decode Dictionary (tree.home.child dictionaryFile).text (.obj fields)

/-- The type that a descriptor file declares: a string that is not empty. -/
def declaredType? (fields : Fields) : Option Text :=
  match fields.get? "type" with
  | some (.str name) => if name = "" then none else some name
  | _ => none

/-- Lay a descriptor over what is declared for its type so far. -/
def declare (declared : Declarations) (type : Text) (fields : Fields) : Declarations :=
  declared.insert type
    (match declared.get? type with
      | none => fields
      | some known => known.merge fields)

/-- Read a descriptor file and lay it over what is declared so far. -/
def readDescriptor (declared : Declarations) (path : Path) : Report Declarations := do
  let fields ← tree.readObject path
  match declaredType? fields with
  | none => Report.fail (.undecodable path.text .untyped)
  | some type => pure (declare declared type fields)

/-- The descriptors declared below a folder of the home folder and below every
folder of that name in the extensions. -/
def declarations (folder : Text) : Report Declarations := do
  let base ← tree.filesBelow (tree.home.child folder)
  let declared ← base.foldlM tree.readDescriptor []
  let overlays ← tree.extensionFiles fun path => path.hasFolder folder
  let declared ← overlays.foldlM (fun declared path => do
    announce path
    tree.readDescriptor declared path) declared
  Report.note .debug (s!"read {declared.length} descriptor(s) from " ++ folder)
  pure declared

/-- The raw class descriptors. -/
def classDeclarations : Report Declarations :=
  tree.declarations eventsFolder

/-- The raw object descriptors. -/
def objectDeclarations : Report Declarations :=
  tree.declarations objectsFolder

end SchemaTree
end EventSchema
