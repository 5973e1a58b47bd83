import EventSchema.Source.Basic

namespace EventSchema

/-!
# Trees of folders and files

A disk is a snapshot of a folder: the folders below it, empty ones included,
and the files with their contents.  Names are rows of bytes, so different paths
may lead to the same file.  Paths are followed name by name from that folder,
and `..` leads to the folder that holds the present one.  Of the folders outside
nothing is known but that they exist.  Texts are UTF-8, and every line end is
read as LF.
-/

/-- The name of a file or folder within the folder that holds it. -/
abbrev DiskName := List UInt8

/-- A place on a disk: the names that lead to it from the top. -/
abbrev Location := List DiskName

/-- Folders and files by location; the top itself is always a folder. -/
structure Disk where
  folders : List Location
  files : List (Location × List UInt8)
  deriving DecidableEq

namespace Disk

def empty : Disk where
  folders := []
  files := []

/-- The name that leads to the folder which holds the present one. -/
def parentName : DiskName := Text.bytes ".."

/-- The greatest number of bytes in a name. -/
def nameLimit : Nat := 255

/-- The greatest number of bytes in a path. -/
def pathLimit : Nat := 4095

def hasFolder (disk : Disk) (location : Location) : Bool :=
  location.isEmpty || disk.folders.contains location

def content? (disk : Disk) (location : Location) : Option (List UInt8) :=
  (disk.files.find? fun file => file.1 = location).map Prod.snd

/-- The names of a path as they are on a disk. -/
def namesOf (path : Path) : List DiskName :=
  path.names.map fun name => Text.bytes name.text

/-! ## Building a disk -/

/-- The location to which a name leads from a location, within the disk. -/
def descend (location : Location) (name : DiskName) : Location :=
  if name = parentName then location.dropLast else location ++ [name]

/-- Add the folders that names pass from the top on. -/
def addFolders (disk : Disk) (names : List DiskName) : Disk :=
  let passed := (List.range names.length).map fun n => (names.take (n + 1)).foldl descend []
  { disk with
    folders := disk.folders ++ passed.eraseDups.filter fun folder => !disk.hasFolder folder }

/-- Add a folder and those on the way to it. -/
def addFolder (disk : Disk) (path : Path) : Except AccessFault Disk :=
  match path.fault? with
  | some fault => .error (.unusable fault)
  | none => .ok (disk.addFolders (namesOf path))

/-- Add a file, replacing one at the same place, and the folders on the way. -/
def addFile (disk : Disk) (path : Path) (content : List UInt8) : Except AccessFault Disk :=
  match path.fault? with
  | some fault => .error (.unusable fault)
  | none =>
      let names := namesOf path
      let disk := disk.addFolders names.dropLast
      let location := names.foldl descend []
      .ok { disk with
        files := (disk.files.filter fun file => file.1 ≠ location) ++ [(location, content)] }

/-! ## Following paths -/

/-- What a path leads to. -/
inductive Target where
  | folder (location : Location)
  /-- A folder outside of the disk. -/
  | outside
  | file (content : List UInt8)
  /-- Some name on the way does not exist. -/
  | nothing
  /-- The way leads on through a file. -/
  | blocked
  /-- A name or the whole path is too long. -/
  | overlong

/-- The folder that holds a folder, if that is on the disk. -/
def above? (location : Location) : Option Location :=
  if location.isEmpty then none else some location.dropLast

/-- Follow names from a folder of the disk, or from one outside. -/
def follow (disk : Disk) : (place : Option Location) -> List DiskName -> Target
  | some location, [] => .folder location
  | none, [] => .outside
  | place, name :: rest =>
      if nameLimit < name.length then .overlong
      else if name = parentName then disk.follow (place.bind above?) rest
      else
        match place with
        | none => .nothing
        | some location =>
            let next := location ++ [name]
            if disk.hasFolder next then disk.follow (some next) rest
            else
              match disk.content? next with
              | none => .nothing
              | some content => if rest.isEmpty then .file content else .blocked

/-- Follow a path: a relative one from the top, any other from outside. -/
def target (disk : Disk) (path : Path) : Target :=
  if pathLimit < (Text.bytes path.text).length then .overlong
  else disk.follow (if path.start = .here then some [] else none) (namesOf path)

/-! ## Looking up, listing and reading -/

def isFile (disk : Disk) (path : Path) : Except AccessFault Bool :=
  if path.fault?.isSome then .ok false
  else
    match disk.target path with
    | .file _ => .ok true
    | .overlong => .error (.overlong path)
    | _ => .ok false

def isFolder (disk : Disk) (path : Path) : Except AccessFault Bool :=
  if path.fault?.isSome then .ok false
  else
    match disk.target path with
    | .folder _ | .outside => .ok true
    | .overlong => .error (.overlong path)
    | _ => .ok false

/-- The path that leads on by names of a disk, if a path can have such names. -/
def pathTo? (path : Path) (names : List DiskName) : Option Path :=
  (names.mapM fun name => PathName.of? (Text.ofBytes name)).map fun further =>
    { path with names := path.names ++ further }

/-- The files below a location, as paths below the given one. -/
def filesBelow (disk : Disk) (path : Path) (location : Location) : List Path :=
  let found := disk.files.filter fun file =>
    location.isPrefixOf file.1 && location.length < file.1.length
  Path.sorted (found.filterMap fun file => pathTo? path (file.1.drop location.length))

def list (disk : Disk) (path : Path) : Listing :=
  match path.fault? with
  | some fault => ⟨[], [.unusable fault]⟩
  | none =>
      match disk.target path with
      | .folder location => ⟨disk.filesBelow path location, []⟩
      | .outside => ⟨[], []⟩
      | .file _ | .blocked => ⟨[], [.notFolder path]⟩
      | .nothing => ⟨[], [.missing path]⟩
      | .overlong => ⟨[], [.overlong path]⟩

def read (disk : Disk) (path : Path) : Except AccessFault Text :=
  match path.fault? with
  | some fault => .error (.unusable fault)
  | none =>
      match disk.target path with
      | .folder _ | .outside => .error (.isFolder path)
      | .nothing => .error (.missing path)
      | .blocked => .error (.notFolder path)
      | .overlong => .error (.overlong path)
      | .file content =>
          match Text.decodeUtf8 content with
          | .error fault => .error (.notText fault)
          | .ok text => .ok (Text.ofChars (Text.unifyLineEnds text))

/-- The disk as a source of files. -/
def source (disk : Disk) : Source where
  isFile := disk.isFile
  isFolder := disk.isFolder
  list := disk.list
  read := disk.read

end Disk
end EventSchema
