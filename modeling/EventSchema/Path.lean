import EventSchema.Sorting
import EventSchema.Text.Basic

namespace EventSchema

/-!
# File paths

A path is a start, which is the current directory or one of the two roots, and
a list of names, none of which is empty, is `.` or has a slash in it.  Reading a
path drops empty and `.` names, so that repeated and trailing slashes do not
count, and keeps `..` names, because what they mean depends on the file system.
Exactly two leading slashes make a root of their own.

Paths are ordered by their names, name by name: `a/b` comes before `a-b`, since
`a` is shorter than `a-b`, although the slash follows the hyphen.
-/

/-- Where a path starts. -/
inductive PathStart where
  | here
  | root
  | doubleRoot
  deriving DecidableEq, Repr

/-- A name within a path. -/
structure PathName where
  text : Text
  nonempty : text ≠ ""
  notHere : text ≠ "."
  noSlash : Symbol.char '/' ∉ text
  deriving DecidableEq, Repr

/-- A path in normal form. -/
structure Path where
  start : PathStart
  names : List PathName
  deriving DecidableEq, Repr

namespace PathStart

/-- The slashes in front of the names. -/
def slashes : PathStart -> Text
  | here => ""
  | root => "/"
  | doubleRoot => "//"

end PathStart

namespace PathName

/-- The name that a text is, if it is one. -/
def of? (text : Text) : Option PathName :=
  if proper : text ≠ "" ∧ text ≠ "." ∧ Symbol.char '/' ∉ text then
    some ⟨text, proper.1, proper.2.1, proper.2.2⟩
  else none

end PathName

namespace Path

/-- Cut a text at every slash. -/
def pieces : Text -> List Text
  | [] => [[]]
  | c :: rest =>
      if c = '/' then [] :: pieces rest
      else
        match pieces rest with
        | [] => [[c]]
        | first :: others => (c :: first) :: others

/-- The start that the leading slashes of a text mean. -/
def startOf : Text -> PathStart
  | .char '/' :: .char '/' :: .char '/' :: _ => .root
  | .char '/' :: .char '/' :: _ => .doubleRoot
  | .char '/' :: _ => .root
  | _ => .here

/-- Read a path. -/
def parse (text : Text) : Path where
  start := startOf text
  names := (pieces text).filterMap PathName.of?

/-- The text of a path; the empty relative path is written `.`. -/
def text (path : Path) : Text :=
  if path.start = .here && path.names.isEmpty then "."
  else path.start.slashes ++ List.intercalate "/" (path.names.map PathName.text)

/-- Follow a second path from a first: a relative one is appended, any other
one replaces the first. -/
def join (path next : Path) : Path :=
  if next.start = .here then { path with names := path.names ++ next.names } else next

/-- The path of the entry with a given name, which may itself have slashes. -/
def child (path : Path) (name : Text) : Path :=
  path.join (parse name)

/-- The parts by which paths are compared: the root, if any, and the names. -/
def parts (path : Path) : List Text :=
  let names := path.names.map PathName.text
  if path.start = .here then names else path.start.slashes :: names

/-- The last name, empty if there is none. -/
def name (path : Path) : Text :=
  (path.names.getLast?.map PathName.text).getD ""

/-- Whether a list of names comes before another or is the same. -/
def namesLe : (left right : List Text) -> Bool
  | [], _ => true
  | _ :: _, [] => false
  | first :: left, second :: right =>
      if first = second then namesLe left right else first.le second

/-- Whether the first path comes before the second or is the same. -/
def le (left right : Path) : Bool :=
  namesLe left.parts right.parts

/-- Paths in order. -/
def sorted (paths : List Path) : List Path :=
  Sorting.sort le paths

/-- Whether a path lies strictly below a directory, as far as names tell. -/
def isBelow (path directory : Path) : Bool :=
  path.start = directory.start && directory.names.isPrefixOf path.names &&
    directory.names.length < path.names.length

/-- A path that lies below a directory, as seen from there. -/
def relativeTo (path directory : Path) : Path where
  start := .here
  names := path.names.drop directory.names.length

/-- Whether a part other than the last is the given name. -/
def hasFolder (path : Path) (folder : Text) : Bool :=
  path.parts.dropLast.contains folder

/-- Whether the name of a file ends in `.json` after at least one character. -/
def isJson (path : Path) : Bool :=
  let ending : Text := ".json"
  ending.isSuffixOf path.name && ending.length < path.name.length

example : (parse "/a//./b/").text = "/a/b" := by decide
example : (parse "").text = "." ∧ (parse "//a").text = "//a" := by decide
example : (parse "///a").text = "/a" ∧ (parse "a/../b").text = "a/../b" := by decide
example : (parse "a/b").le (parse "a-b") = true := by decide

end Path
end EventSchema
