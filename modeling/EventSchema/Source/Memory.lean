import EventSchema.Json.Writer
import EventSchema.OrderedMap
import EventSchema.Source.Basic

namespace EventSchema

/-!
# Trees held in memory

A memory tree maps paths to texts.  Folders exist as far as files lie below
them.  Some folders may be marked as unreadable: they exist, and listing them
or a folder above them is a fault, but files in them can be read by path.
-/

/-- Files by path, each path once, and the folders that cannot be listed. -/
structure MemoryTree where
  files : OrderedMap Path Text
  unreadable : List Path
  distinct : files.Distinct := by decide +kernel
  deriving DecidableEq

namespace MemoryTree

def empty : MemoryTree where
  files := []
  unreadable := []

/-- Store a text under a path. -/
def addText (tree : MemoryTree) (path : Path) (text : Text) : MemoryTree :=
  { tree with
    files := tree.files.insert path text
    distinct := tree.distinct.insert path text }

/-- Store a content under a path: a string is the text itself, any other value
is written as JSON. -/
def add (tree : MemoryTree) (path : Path) (content : Json) : MemoryTree :=
  match content with
  | .str text => tree.addText path text
  | value => tree.addText path value.write

/-- The tree that holds the given contents, stored one after another. -/
def ofContents (contents : List (Text × Json)) (unreadable : List Text) : MemoryTree :=
  contents.foldl (fun tree entry => tree.add (Path.parse entry.1) entry.2)
    { empty with unreadable := unreadable.map Path.parse }

/-- Whether a path is the folder or lies below it. -/
def isWithin (path folder : Path) : Bool :=
  path = folder || path.isBelow folder

/-- The unreadable folders at or below a folder, each once, in order. -/
def blocked (tree : MemoryTree) (folder : Path) : List Path :=
  Path.sorted (tree.unreadable.filter fun path => isWithin path folder).eraseDups

/-- The files below a folder that no blocked folder holds, in order. -/
def visible (tree : MemoryTree) (folder : Path) : List Path :=
  Path.sorted (tree.files.keys.filter fun path =>
    path.isBelow folder && !(tree.blocked folder).any fun barrier => path.isBelow barrier)

/-- List a folder: the visible files, and a fault for each blocked folder. -/
def list (tree : MemoryTree) (folder : Path) : Listing where
  files := tree.visible folder
  faults := (tree.blocked folder).map AccessFault.denied

def isFile (tree : MemoryTree) (path : Path) : Bool :=
  tree.files.contains path

/-- A folder is at a path if a file lies below it or it is marked as
unreadable. -/
def isFolder (tree : MemoryTree) (path : Path) : Bool :=
  tree.files.keys.any (fun file => file.isBelow path) || tree.unreadable.contains path

def read (tree : MemoryTree) (path : Path) : Except AccessFault Text :=
  match tree.files.get? path with
  | some text => .ok text
  | none => .error (.unlisted path)

/-- The tree as a source of files. -/
def source (tree : MemoryTree) : Source where
  isFile path := .ok (tree.isFile path)
  isFolder path := .ok (tree.isFolder path)
  list := tree.list
  read := tree.read

end MemoryTree
end EventSchema
