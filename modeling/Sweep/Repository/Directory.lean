import Sweep.Repository.Basic
import Sweep.Run.Codec
import Sweep.Text.Letter

/-!
# A repository in a directory

Every run is one document in a directory, in a file named after the run. A document is written to a
file beside its own, which then takes its place, so that there is never half a document under the
name of a run. The names of files are not those of runs, so the runs are listed by what the
documents say.
-/

namespace Sweep

/-- The end of the names of documents. -/
def recordExtension : String := "json"

/-- A character as it may stand in the name of a file. -/
def fileCharacter (c : Char) : Char :=
  if Text.isAlphanumeric c || c == '-' || c == '_' || c == '.' then c else '_'

/-- The name of a run with `_` in place of every character that file names do not use. -/
def fileStem (runId : String) : String := String.ofList (runId.toList.map fileCharacter)

/-- The path of a run's document. -/
def recordPath (directory runId : String) : String :=
  Path.join directory (fileStem runId ++ "." ++ recordExtension)

/-- The path that a document is first written to. -/
def draftPath (path : String) : String := Path.withExtension path (recordExtension ++ ".tmp")

/-- A step in which files are changed. -/
inductive FileStep where
  | write (path : String) (content : ByteArray)
  | move (source target : String)

namespace FileStep

/-- The file that a step makes, by which its failure is reported. -/
def path : FileStep → String
  | .write path _ => path
  | .move _ target => target

def apply (t : FileTree) : FileStep → Except FileFault FileTree
  | .write path content => t.writeBytes path content
  | .move source target => t.rename source target

/-- Takes steps up to the first one that fails. -/
def applyAll : List FileStep → FileTree → Except RepositoryError Unit × FileTree
  | [], t => (.ok (), t)
  | step :: rest, t =>
    match step.apply t with
    | .error fault => (.error (.fileFault step.path fault), t)
    | .ok t => applyAll rest t

end FileStep

namespace Backend

def loadRecord (directory runId : String) (t : FileTree) :
    Except RepositoryError (Option RunSnapshot) :=
  let path := recordPath directory runId
  match t.readText path with
  | .error .notFound => .ok none
  | .error fault => .error (.fileFault path fault)
  | .ok text =>
    match RunSnapshot.read? text with
    | some snapshot => .ok (some snapshot)
    | none => .error (.corrupt path)

/-- The steps in which a snapshot is stored: its document is written to the draft, and the draft
takes the place of the document. -/
def storeSteps (directory : String) (snapshot : RunSnapshot) : List FileStep :=
  let path := recordPath directory snapshot.run.runId
  [.write (draftPath path) (Text.toBytes snapshot.write), .move (draftPath path) path]

def storeRecord (directory : String) (snapshot : RunSnapshot) :
    FileTree → Except RepositoryError Unit × FileTree :=
  FileStep.applyAll (storeSteps directory snapshot)

/-- Removes a document. -/
def removeRecord (directory runId : String) (t : FileTree) :
    Except RepositoryError Bool × FileTree :=
  let path := recordPath directory runId
  match t.removeFile path with
  | .ok t => (.ok true, t)
  | .error .notFound => (.ok false, t)
  | .error fault => (.error (.fileFault path fault), t)

/-- The name of the run of a document, if the file is one. -/
def recordedRun? (t : FileTree) (path : String) : Option String :=
  if Path.extension? path == some recordExtension then
    match t.readText path with
    | .ok text => (RunSnapshot.read? text).map (·.run.runId)
    | .error _ => none
  else none

/-- The names of the runs of all documents, in increasing order. -/
def recordedRuns (directory : String) (t : FileTree) : Except RepositoryError (List String) :=
  match t.list directory with
  | .error fault => .error (.fileFault directory fault)
  | .ok names =>
    let found := names.filterMap fun name => recordedRun? t (Path.join directory name)
    .ok (found.mergeSort fun a b => decide (a ≤ b))

/-- Keeps snapshots in a directory, which has to exist. -/
def directory (path : String) : Backend FileTree where
  load := loadRecord path
  store := storeRecord path
  remove := removeRecord path
  runIds := recordedRuns path

end Backend

/-- Makes the directory of a repository unless it exists. -/
def FileTree.openRepository (t : FileTree) (directory : String) :
    Except RepositoryError FileTree :=
  match t.makeDirectories directory with
  | .ok t => .ok t
  | .error fault => .error (.fileFault directory fault)

end Sweep
