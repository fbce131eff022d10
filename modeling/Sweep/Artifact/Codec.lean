import Sweep.Artifact.Basic
import Sweep.Digest
import Sweep.Experiment.Codec
import Sweep.Files.Tree
import Sweep.Json.Parser

/-!
# Artifacts in documents and files

The written form of an artifact lists the fields of every part in a fixed order and the entries of
every table by their keys, so that equal artifacts are written alike. The digest of that text names
the artifact, and the runs of it.

An artifact is kept as its written form in a file of its own. Only an artifact in which every name
is defined is taken out of a file again.
-/

namespace Sweep

open Document (text? json? list? fields?)

/-- Reads a table; of several entries of one key the last counts. -/
def Document.table? (read? : Document → Option α) : Document → Option (Table α)
  | .record fields => do
    let entries ← fields.mapM fun (name, value) => do
      let name ← match name with
        | .text s => some s
        | _ => none
      let value ← read? value
      return (name, value)
    return .ofList entries
  | _ => none

def Table.encode (encode : α → Json) (t : Table α) : Json :=
  .record (t.entries.map fun (key, value) => (key, encode value))

def ParameterSet.encode (p : ParameterSet) : Json := Table.encode id p

def ParameterSet.decode? (d : Document) : Option ParameterSet := Document.table? json? d

namespace TaskDefinition

def fieldNames : List String :=
  ["taskId", "workflow", "implementation", "dynamicParameters", "staticParameters", "inputData",
   "outputData"]

def decode? (d : Document) : Option TaskDefinition := do
  let fields ← fields? fieldNames d
  let taskId ← fields.required? "taskId" text?
  let workflow ← fields.required? "workflow" text?
  let implementation ← fields.required? "implementation" text?
  let dynamicParameters ← fields.withDefault? "dynamicParameters" [] (list? text?)
  let staticParameters ← fields.withDefault? "staticParameters" ∅ ParameterSet.decode?
  let inputData ← fields.withDefault? "inputData" [] (list? text?)
  let outputData ← fields.withDefault? "outputData" [] (list? text?)
  return { taskId, workflow, implementation, dynamicParameters, staticParameters, inputData,
           outputData }

def encode (t : TaskDefinition) : Json :=
  .record
    [("taskId", .text t.taskId), ("workflow", .text t.workflow),
     ("implementation", .text t.implementation),
     ("dynamicParameters", .ofStrings t.dynamicParameters),
     ("staticParameters", ParameterSet.encode t.staticParameters),
     ("inputData", .ofStrings t.inputData), ("outputData", .ofStrings t.outputData)]

end TaskDefinition

namespace SpaceDefinition

def fieldNames : List String := ["spaceId", "tasksOrder", "parameters", "inputData"]

def decode? (d : Document) : Option SpaceDefinition := do
  let fields ← fields? fieldNames d
  let spaceId ← fields.required? "spaceId" text?
  let tasksOrder ← fields.required? "tasksOrder" (list? text?)
  let parameters ← fields.required? "parameters" (list? ParameterSet.decode?)
  let inputData ← fields.withDefault? "inputData" ∅ (Document.table? text?)
  return { spaceId, tasksOrder, parameters, inputData }

def encode (s : SpaceDefinition) : Json :=
  .record <|
    [("spaceId", .text s.spaceId), ("tasksOrder", .ofStrings s.tasksOrder),
     ("parameters", .list (s.parameters.map ParameterSet.encode))] ++
    (if s.inputData.isEmpty then [] else [("inputData", s.inputData.encode .text)])

end SpaceDefinition

namespace ControlGraph

/-- The start goes by either of two names, but not by both. -/
def decode? (d : Document) : Option ControlGraph :=
  match d with
  | .record fields => do
    let renamed := fields.map fun (name, value) =>
      (match name with
        | .text "start" => .text startMark
        | name => name, value)
    read? (.record renamed)
  | d => read? d
where
  read? (d : Document) : Option ControlGraph := do
    let fields ← fields? [startMark, "transitions"] d
    let start ← fields.required? startMark text?
    let transitions ← fields.withDefault? "transitions" [] (list? Transition.decode?)
    return { start, transitions }

def encode (g : ControlGraph) : Json :=
  .record [(startMark, .text g.start), ("transitions", .list (g.transitions.map Transition.encode))]

end ControlGraph

namespace Artifact

def fieldNames : List String := ["experiment", "version", "tasks", "spaces", "control"]

def decode? (d : Document) : Option Artifact := do
  let fields ← fields? fieldNames d
  let experiment ← fields.required? "experiment" text?
  let version ← fields.required? "version" text?
  let tasks ← fields.required? "tasks" (list? (list? TaskDefinition.decode?))
  let spaces ← fields.required? "spaces" (list? SpaceDefinition.decode?)
  let control ← fields.required? "control" ControlGraph.decode?
  return { experiment, version, tasks, spaces, control }

def encode (a : Artifact) : Json :=
  .record
    [("experiment", .text a.experiment), ("version", .text a.version),
     ("tasks", .list (a.tasks.map fun group => .list (group.map TaskDefinition.encode))),
     ("spaces", .list (a.spaces.map SpaceDefinition.encode)), ("control", a.control.encode)]

/-- The written form of an artifact. -/
def write (a : Artifact) : String := a.encode.indented

/-- Reads a written artifact, without checking it. -/
def read? (text : String) : Option Artifact :=
  (Json.document? text).bind decode?

/-- The digest of the written form. -/
def contentHash (a : Artifact) : String := Digest.hex a.write

def runId (a : Artifact) : String :=
  a.experiment ++ "-" ++ a.version ++ "-" ++ String.ofList (a.contentHash.toList.take 12)

end Artifact

/-! ## Files -/

/-- Why an artifact cannot be stored or loaded. -/
inductive ArtifactError where
  | fileFault (path : String) (fault : FileFault)
  /-- The file does not hold the written form of an artifact. -/
  | unreadable (path : String)
  | malformed (fault : ArtifactFault)
deriving DecidableEq, Repr

def ArtifactError.message : ArtifactError → String
  | .fileFault path fault =>
    s!"Failed to read or write artifact {path}: " ++ fault.message
  | .unreadable path => s!"Invalid artifact JSON in {path}"
  | .malformed fault => "Malformed artifact: " ++ fault.message

namespace Artifact

/-- The artifact of a text; the path only names it in errors. -/
def parse (text path : String) : Except ArtifactError Artifact :=
  match read? text with
  | none => .error (.unreadable path)
  | some a => (a.validate.mapError .malformed).map fun _ => a

def load (t : FileTree) (path : String) : Except ArtifactError Artifact := do
  parse (← (t.readText path).mapError (.fileFault path)) path

/-- Writes the artifact to a file, and makes the directories that lead to it. -/
def save (a : Artifact) (path : String) (t : FileTree) : Except ArtifactError FileTree := do
  let above := (Path.parent? path).getD ""
  let t ←
    if above.isEmpty then pure t else (t.makeDirectories above).mapError (.fileFault above)
  (t.writeText path a.write).mapError (.fileFault path)

end Artifact

end Sweep
