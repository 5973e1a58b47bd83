import EventSchema.Source.Fault

namespace EventSchema

/-!
# Sources of files

Where schema files come from.  A source answers four questions about paths and
never changes while a schema is loaded, so it is a record of functions.
-/

/-- What listing a folder finds: the files below it in order, and every fault
met on the way. -/
structure Listing where
  files : List Path
  faults : List AccessFault
  deriving DecidableEq, Repr

/-- Whether a listing met no fault. -/
def Listing.complete (listing : Listing) : Bool :=
  listing.faults.isEmpty

/-- A source of files. -/
structure Source where
  /-- Whether a file is at the path, unless the path cannot be looked up. -/
  isFile : Path -> Except AccessFault Bool
  /-- Whether a folder is at the path, unless the path cannot be looked up. -/
  isFolder : Path -> Except AccessFault Bool
  /-- All files below a folder, at any depth. -/
  list : Path -> Listing
  /-- The text of a file. -/
  read : Path -> Except AccessFault Text

end EventSchema
