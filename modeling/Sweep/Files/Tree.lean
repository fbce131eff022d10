import Sweep.Files.Path
import Sweep.Table
import Sweep.Text.Bytes

/-!
# A tree of files

Files are held as a value: a table from absolute paths to files and directories, and the directory
from which relative paths are seen. An operation either changes the tree or fails, for one of the
reasons that `FileFault` lists, and then leaves it as it was.
-/

namespace Sweep

/-- Why an operation on files fails. -/
inductive FileFault where
  | notFound
  | badExecutable
  | notPermitted
  | alreadyExists
  | notDirectory
  | isDirectory
  | nameTooLong
  | notEmpty
  /-- A file that should hold a text holds other bytes. -/
  | notText
  /-- A path with a character that no path may have. -/
  | badName
deriving DecidableEq, Repr

def FileFault.message : FileFault → String
  | .notFound => "No such file or directory (os error 2)"
  | .badExecutable => "Exec format error (os error 8)"
  | .notPermitted => "Permission denied (os error 13)"
  | .alreadyExists => "File exists (os error 17)"
  | .notDirectory => "Not a directory (os error 20)"
  | .isDirectory => "Is a directory (os error 21)"
  | .nameTooLong => "File name too long (os error 36)"
  | .notEmpty => "Directory not empty (os error 39)"
  | .notText => "stream did not contain valid UTF-8"
  | .badName => "file name contained an unexpected NUL byte"

/-- The message of a fault without its number. -/
def FileFault.phrase (f : FileFault) : String := (f.message.splitOn " (os error").headD ""

/-- What a path leads to. -/
inductive FileNode where
  | file (content : ByteArray) (executable : Bool)
  | directory
deriving BEq

/-- Files and directories by their absolute paths, and the current directory. -/
structure FileTree where
  nodes : Table FileNode := ∅
  /-- The names on the way from the root to the current directory. -/
  current : List String := []

namespace FileTree

/-- Where a path leads: to a directory, or to a name in a directory that exists. -/
structure Place where
  directory : List String
  name : Option String
  /-- Whether the path asks for a directory. -/
  asDirectory : Bool
deriving DecidableEq, Repr

/-- The absolute path at the end of a way from the root. -/
def absolute (way : List String) : String := "/" ++ "/".intercalate way

/-- What lies at the end of a way from the root. -/
def nodeAt? (t : FileTree) (way : List String) : Option FileNode :=
  if way.isEmpty then some .directory else t.nodes.get? (absolute way)

/-- The longest name of a file, in bytes. -/
def maxNameLength : Nat := 255

/-- The least length in bytes at which a path is too long. -/
def maxPathLength : Nat := 4096

/-- Follows the pieces of a path from a directory, all of which have to lead to directories. -/
def walk (t : FileTree) : List String → List String → Except FileFault (List String)
  | way, [] => .ok way
  | way, piece :: rest =>
    if piece = "." then t.walk way rest
    else if piece = ".." then t.walk way.dropLast rest
    else if maxNameLength < piece.utf8ByteSize then .error .nameTooLong
    else
      match t.nodeAt? (way ++ [piece]) with
      | none => .error .notFound
      | some (.file _ _) => .error .notDirectory
      | some .directory => t.walk (way ++ [piece]) rest

/-- Finds the place that a path leads to. -/
def locate (t : FileTree) (path : String) : Except FileFault Place :=
  if path.isEmpty then .error .notFound
  else if path.toList.contains '\x00' then .error .badName
  else if maxPathLength ≤ path.utf8ByteSize then .error .nameTooLong
  else
    let start := if Path.isAbsolute path then [] else t.current
    let pieces := Path.pieces path
    match pieces.getLast? with
    | none => .ok ⟨start, none, true⟩
    | some last =>
      if last = "." || last = ".." then
        (t.walk start pieces).map fun way => ⟨way, none, true⟩
      else do
        let directory ← t.walk start pieces.dropLast
        if maxNameLength < last.utf8ByteSize then .error .nameTooLong
        else .ok ⟨directory, some last, Path.endsInSlash path⟩

def Place.way (p : Place) : List String :=
  p.directory ++ p.name.toList

/-- What a path leads to. -/
def find (t : FileTree) (path : String) : Except FileFault FileNode := do
  let place ← t.locate path
  match t.nodeAt? place.way with
  | none => .error .notFound
  | some (.file content executable) =>
    if place.asDirectory then .error .notDirectory else .ok (.file content executable)
  | some .directory => .ok .directory

/-- Whether a path leads to something. -/
def leadsSomewhere (t : FileTree) (path : String) : Bool :=
  match t.find path with
  | .ok _ => true
  | .error _ => false

def isDirectory (t : FileTree) (path : String) : Bool :=
  match t.find path with
  | .ok .directory => true
  | _ => false

def isFile (t : FileTree) (path : String) : Bool :=
  match t.find path with
  | .ok (.file _ _) => true
  | _ => false

def readBytes (t : FileTree) (path : String) : Except FileFault ByteArray := do
  match ← t.find path with
  | .directory => .error .isDirectory
  | .file content _ => .ok content

def readText (t : FileTree) (path : String) : Except FileFault String := do
  match Text.ofBytes? (← t.readBytes path) with
  | some s => .ok s
  | none => .error .notText

def put (t : FileTree) (way : List String) (node : FileNode) : FileTree :=
  { t with nodes := t.nodes.insert (absolute way) node }

/-- Changes the bytes of a file, or makes a file out of none. -/
def change (t : FileTree) (path : String) (f : ByteArray → ByteArray) (executable : Bool) :
    Except FileFault FileTree := do
  let place ← t.locate path
  match t.nodeAt? place.way with
  | some .directory => .error .isDirectory
  | some (.file content executable) =>
    if place.asDirectory then .error .notDirectory
    else .ok (t.put place.way (.file (f content) executable))
  | none =>
    if place.asDirectory then .error .isDirectory
    else .ok (t.put place.way (.file (f .empty) executable))

/-- Writes a file anew. -/
def writeBytes (t : FileTree) (path : String) (content : ByteArray) : Except FileFault FileTree :=
  t.change path (fun _ => content) false

/-- Writes a text into a file anew. -/
def writeText (t : FileTree) (path : String) (text : String) : Except FileFault FileTree :=
  t.writeBytes path (Text.toBytes text)

/-- Adds to the end of a file. -/
def appendBytes (t : FileTree) (path : String) (content : ByteArray) :
    Except FileFault FileTree :=
  t.change path (fun before => before ++ content) false

def removeFile (t : FileTree) (path : String) : Except FileFault FileTree := do
  let place ← t.locate path
  match ← t.find path with
  | .directory => .error .isDirectory
  | .file _ _ => .ok { t with nodes := t.nodes.erase (absolute place.way) }

/-- Moves a file to another path, over a file that is there. -/
def rename (t : FileTree) (source target : String) : Except FileFault FileTree := do
  let start ← t.locate source
  match ← t.find source with
  | .directory => .error .isDirectory
  | .file content executable =>
    let goal ← t.locate target
    match t.nodeAt? goal.way with
    | some .directory => .error .isDirectory
    | _ =>
      if goal.asDirectory then .error .notDirectory
      else
        let moved := { t with nodes := t.nodes.erase (absolute start.way) }
        .ok (moved.put goal.way (.file content executable))

def makeDirectory (t : FileTree) (path : String) : Except FileFault FileTree := do
  let place ← t.locate path
  match t.nodeAt? place.way with
  | some _ => .error .alreadyExists
  | none => .ok (t.put place.way .directory)

/-- The paths from the first component of a path to the whole path. -/
def ancestors (path : String) : List String :=
  let root := if Path.isAbsolute path then "/" else ""
  let pieces := Path.pieces path
  (List.range pieces.length).map fun i =>
    root ++ "/".intercalate (pieces.take (i + 1))

/-- Makes every directory on a path that does not exist yet. -/
def makeDirectories (t : FileTree) (path : String) : Except FileFault FileTree :=
  match t.find path with
  | .ok .directory => .ok t
  | .ok (.file _ _) => .error .alreadyExists
  | .error .notFound =>
    (ancestors path).foldlM (fun t path =>
      if t.isDirectory path then .ok t else t.makeDirectory path) t
  | .error fault => .error fault

/-- Puts a file that can be executed under a path, and makes the directories that lead to it. -/
def plant (t : FileTree) (path : String) (content : ByteArray) : Except FileFault FileTree := do
  let t ←
    match Path.parent? path with
    | some directory => if directory.isEmpty then pure t else t.makeDirectories directory
    | none => pure t
  t.change path (fun _ => content) true

/-- The names in a directory, in increasing order. -/
def list (t : FileTree) (path : String) : Except FileFault (List String) := do
  let place ← t.locate path
  match ← t.find path with
  | .file _ _ => .error .notDirectory
  | .directory =>
    let within := if place.way.isEmpty then "/" else absolute place.way ++ "/"
    let inside := t.nodes.keys.filterMap fun key =>
      if within.toList.isPrefixOf key.toList then
        some (String.ofList (key.toList.drop within.length))
      else none
    .ok (inside.filter fun name => !name.isEmpty && !name.toList.contains '/')

/-- The tree seen from another directory. -/
def enter (t : FileTree) (path : String) : Except FileFault FileTree := do
  let place ← t.locate path
  match ← t.find path with
  | .file _ _ => .error .notDirectory
  | .directory => .ok { t with current := place.way }

/-- A tree that holds an empty current directory, reached by the given names. -/
def withCurrent (way : List String) : FileTree :=
  let directories := (List.range way.length).map fun i => (absolute (way.take (i + 1)), .directory)
  { nodes := .ofList directories, current := way }

end FileTree

end Sweep
