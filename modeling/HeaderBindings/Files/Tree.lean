import HeaderBindings.Files.Access
import HeaderBindings.Files.Path

/-!
# File trees

A file tree holds the files of a computer as a value.  A file is found under its location, the
names on the way to it from the root, and every location on the way is a directory.

A path is followed name by name.  Each step needs a directory to start from, so a slash behind the
name of a file is an error; a single dot or a doubled slash stays where it is.  Paths and names may
be only so long, which is counted in bytes.
-/

set_option autoImplicit false

namespace HeaderBindings

/-- The names on the way from the root to a file. -/
abbrev FileLocation := List Text

/-- What is stored at a location. -/
inductive FileEntry where
  | directory
  | text (t : Text)
  /-- A file whose bytes are no text. -/
  | bytes
deriving DecidableEq

/-- The files of a computer. -/
structure FileTree where
  /-- The location of the current directory. -/
  current : FileLocation
  /-- What is stored where. -/
  entries : List (FileLocation × FileEntry)
  /-- What has been printed. -/
  printed : Text := []

namespace FileTree

/-- What is stored at a location: an entry, or a directory on the way to one. -/
def find? (tree : FileTree) (location : FileLocation) : Option FileEntry :=
  match tree.entries.find? fun e ↦ e.1 == location with
  | some e => some e.2
  | none =>
    if location.isPrefixOf tree.current || tree.entries.any fun e ↦ location.isPrefixOf e.1 then
      some .directory
    else none

/-- The number of bytes that a path may have. -/
def maxPathBytes : Nat := 4095

/-- The number of bytes that a name may have. -/
def maxNameBytes : Nat := 255

/-- The path is one that the system looks up at all. -/
def checkPath (path : Text) : Except FileError Unit :=
  if '\x00' ∈ path then .error .nulInPath
  else if maxPathBytes < path.byteCount then .error .tooLong
  else if path.isEmpty then .error .notFound
  else .ok ()

/-- One step of a path, from a directory. -/
def enter (tree : FileTree) (location : FileLocation) (name : Text) :
    Except FileError FileLocation :=
  match tree.find? location with
  | none => .error .notFound
  | some .directory =>
    if name = "" ∨ name = "." then .ok location
    else if name = ".." then .ok location.dropLast
    else if maxNameBytes < name.byteCount then .error .tooLong
    else .ok (location ++ [name])
  | some _ => .error .notDirectory

/-- The location that a path starts from. -/
def startOf (tree : FileTree) (path : Text) : FileLocation :=
  if Path.isAbsolute path then [] else tree.current

/-- What a path leads to. -/
def follow (tree : FileTree) (path : Text) : Except FileError (FileLocation × FileEntry) := do
  checkPath path
  let location ← (path.splitOn '/').foldlM tree.enter (tree.startOf path)
  match tree.find? location with
  | some entry => .ok (location, entry)
  | none => .error .notFound

/-- The text of the file at a path. -/
def readText (tree : FileTree) (path : Text) : Except FileError Text := do
  match ← tree.follow path with
  | (_, .text t) => .ok t
  | (_, .bytes) => .error .notText
  | (_, .directory) => .error .isDirectory

/-- A path leads to a directory. -/
def isDirectory (tree : FileTree) (path : Text) : Bool :=
  match tree.follow path with
  | .ok (_, .directory) => true
  | _ => false

/-- The names of the files in the directory at a path.  A name that makes the path too long is none
that a file can be found under. -/
def filesIn (tree : FileTree) (path : Text) : Except FileError (List Text) := do
  match ← tree.follow path with
  | (location, .directory) =>
    .ok (tree.entries.filterMap fun (place, entry) ↦
      match place.getLast? with
      | some name =>
        if entry ≠ .directory ∧ place = location ++ [name] ∧
            (Path.join path name).byteCount ≤ maxPathBytes then
          some name
        else none
      | none => none)
  | _ => .error .notDirectory

/-- The location that a file written to a path gets.  Slashes behind the name are an error, and
so are names that mean a directory. -/
def target (tree : FileTree) (path : Text) : Except FileError FileLocation := do
  let name : Text := (path.reverse.dropWhile (· == '/')).takeWhile (· != '/') |>.reverse
  let hasSlash := path.getLast? == some '/'
  let way : Text := (path.reverse.dropWhile (· == '/')).dropWhile (· != '/') |>.reverse
  checkPath path
  let parent ← (way.splitOn '/').foldlM tree.enter (tree.startOf path)
  match tree.find? parent with
  | none => .error .notFound
  | some .directory =>
    if hasSlash ∨ name = "." ∨ name = ".." then .error .isDirectory
    else if maxNameBytes < name.byteCount then .error .tooLong
    else if tree.find? (parent ++ [name]) = some .directory then .error .isDirectory
    else .ok (parent ++ [name])
  | some _ => .error .notDirectory

/-- The tree with a text stored at a location. -/
def store (tree : FileTree) (location : FileLocation) (t : Text) : FileTree :=
  { tree with
    entries := (tree.entries.filter fun e ↦ e.1 != location) ++ [(location, .text t)] }

/-- The path of the current directory. -/
def currentPath (tree : FileTree) : Text := tree.current.flatMap fun name ↦ '/' :: name

/-- A run on a file tree. -/
instance : FileAccess (StateM FileTree) where
  currentDirectory := return (← get).currentPath
  isDirectory path := return (← get).isDirectory path
  filesIn path := return (← get).filesIn path
  readText path := return (← get).readText path
  writeText path t := fun tree ↦
    match tree.target path with
    | .ok location => (.ok (), tree.store location t)
    | .error e => (.error e, tree)
  print t := modify fun tree ↦ { tree with printed := tree.printed ++ t }

end FileTree

end HeaderBindings
