import EventSchema.Path
import EventSchema.Text.Bytes
import EventSchema.Text.Quoted

namespace EventSchema

/-!
# Faults of access

What can go wrong when a folder is listed or a file is read.  Faults are values
that a listing collects and a failure carries.
-/

/-- Why a path names nothing on any disk, if its text tells. -/
def Path.fault? (path : Path) : Option Text.ByteFault :=
  Text.byteFault? path.text

/-- Why a file or folder cannot be used. -/
inductive AccessFault where
  /-- Nothing is at the path. -/
  | missing (path : Path)
  /-- A file stands where a folder is needed. -/
  | notFolder (path : Path)
  /-- A folder stands where a file is needed. -/
  | isFolder (path : Path)
  /-- The folder may not be listed. -/
  | denied (path : Path)
  /-- A name or the whole path is longer than the system admits. -/
  | overlong (path : Path)
  /-- A tree held in memory has no such file. -/
  | unlisted (path : Path)
  /-- The content is no text. -/
  | notText (fault : Text.Utf8Fault)
  /-- The path can name nothing. -/
  | unusable (fault : Text.ByteFault)
  deriving DecidableEq, Repr

namespace AccessFault

/-- A numbered fault of the operating system, about a path. -/
def numbered (number : Nat) (what : String) (path : Path) : Text :=
  s!"[Errno {number}] {what}: " ++ Text.quoted path.text

def message : AccessFault -> Text
  | missing path => numbered 2 "No such file or directory" path
  | notFolder path => numbered 20 "Not a directory" path
  | isFolder path => numbered 21 "Is a directory" path
  | denied path => numbered 13 "Permission denied" path
  | overlong path => numbered 36 "File name too long" path
  | unlisted path => "File not found: " ++ path.text
  | notText fault => fault.message
  | unusable fault => fault.message

end AccessFault
end EventSchema
