import Sweep.Experiment.Codec
import Sweep.Files.Tree
import Sweep.Yaml.Basic

/-!
# Source files

A workflow file holds a list of workflows or a single one, an experiment file an experiment. Names
are read without the white space around them; a workflow needs a name, and becomes the owner of its
tasks. What a text holds is decided by the format of the sources, which everything here is given;
unless another one is named, sources are written in YAML.

Workflows are loaded from single files, from lists of files, in which every name may be defined
once, and from the files of a directory that are named as workflow files, in the order of their
names.
-/

namespace Sweep

/-! ## Texts -/

/-- Why sources cannot be loaded. -/
inductive LoadError where
  | unreadable (path : String) (fault : FileFault)
  | malformed (path : String)
  | duplicateWorkflow (name first second : String)
  | unnamedWorkflow (path : String)
deriving DecidableEq, Repr

def LoadError.message : LoadError → String
  | .unreadable path fault =>
    s!"Failed to read '{path}': " ++ fault.message ++
      ". Check that the file exists and is readable."
  | .malformed path => s!"Failed to parse '{path}'. Check the file format."
  | .duplicateWorkflow name first second =>
    s!"Workflow '{name}' is defined more than once ('{first}' and '{second}')"
  | .unnamedWorkflow path => s!"Workflow file '{path}' declares a workflow with an empty name"

namespace Workflow

/-- The workflows of a document: the items of its list if that can be read, else the document as
one workflow. -/
def decodeFile? (d : Document) : Option (List Workflow) :=
  let listed : Option (List Workflow) := do
    let fields ← Document.named? ["workflows"] d
    fields.required? "workflows" (Document.list? decode?)
  listed.orElse fun _ => (decode? d).map fun w => [w]

end Workflow

/-- What source texts hold, if they can be read. -/
structure SourceFormat where
  workflows? : String → Option (List Workflow)
  experiment? : String → Option Experiment

def SourceFormat.yaml : SourceFormat where
  workflows? text := ((Yaml.parse? text).bind Document.resolve?).bind Workflow.decodeFile?
  experiment? text := (Yaml.parse? text).bind Experiment.decode?

namespace Workflow

/-- A workflow as it was read from a file, ready for use. -/
def adopt (path : String) (w : Workflow) : Except LoadError Workflow :=
  let name := Text.trim w.name
  if name.isEmpty then .error (.unnamedWorkflow path)
  else .ok { w with name }.assignOwnership

/-- The workflows of a source text; the path only names it in errors. -/
def parseFile (text path : String) (format : SourceFormat := .yaml) :
    Except LoadError (List Workflow) :=
  match format.workflows? text with
  | none => .error (.malformed path)
  | some workflows => workflows.mapM (adopt path)

end Workflow

/-- The experiment of a source text; the path only names it in errors. -/
def Experiment.parseFile (text path : String) (format : SourceFormat := .yaml) :
    Except LoadError Experiment :=
  match format.experiment? text with
  | none => .error (.malformed path)
  | some e => .ok { e with name := Text.trim e.name }

/-! ## Files -/

def FileTree.readSource (t : FileTree) (path : String) : Except LoadError String :=
  match t.readText path with
  | .ok text => .ok text
  | .error fault => .error (.unreadable path fault)

namespace Workflow

def loadFile (t : FileTree) (path : String) (format : SourceFormat := .yaml) :
    Except LoadError (List Workflow) := do
  parseFile (← t.readSource path) path format

/-- Workflows and the paths of the files that they come from. -/
abbrev Origins := List (Workflow × String)

/-- Adds the workflows of a file to those of other files, unless a name is defined again. -/
def addFrom (path : String) : Origins → List Workflow → Except LoadError Origins
  | done, [] => .ok done
  | done, w :: rest =>
    match done.find? fun entry => entry.1.name == w.name with
    | some (_, first) => .error (.duplicateWorkflow w.name first path)
    | none => addFrom path (done ++ [(w, path)]) rest

/-- Loads files one after the other. -/
def loadEach (t : FileTree) (format : SourceFormat) :
    List String → Origins → Except LoadError Origins
  | [], done => .ok done
  | path :: rest, done => do
    let workflows ← loadFile t path format
    loadEach t format rest (← addFrom path done workflows)

def loadFiles (t : FileTree) (paths : List String) (format : SourceFormat := .yaml) :
    Except LoadError (List Workflow) := do
  return (← loadEach t format paths []).map (·.1)

/-- Whether a file is named as a workflow file. -/
def isSourceName (path : String) : Bool :=
  Path.extension? path == some "yaml" || Path.extension? path == some "yml"

def loadDirectory (t : FileTree) (directory : String) (format : SourceFormat := .yaml) :
    Except LoadError (List Workflow) :=
  match t.list directory with
  | .error fault => .error (.unreadable directory fault)
  | .ok names =>
    let paths := names.map (Path.join directory)
    loadFiles t (paths.filter fun path => t.isFile path && isSourceName path) format

/-- The workflows of directories and files, those of the directories first. -/
def loadAll (t : FileTree) (paths : List String) (format : SourceFormat := .yaml) :
    Except LoadError (List Workflow) := do
  let directories := paths.filter t.isDirectory
  let files := paths.filter fun path => !t.isDirectory path
  let fromDirectories ← directories.mapM (loadDirectory t · format)
  let fromFiles ← loadFiles t files format
  return fromDirectories.flatten ++ fromFiles

end Workflow

def Experiment.loadFile (t : FileTree) (path : String) (format : SourceFormat := .yaml) :
    Except LoadError Experiment := do
  parseFile (← t.readSource path) path format

end Sweep
