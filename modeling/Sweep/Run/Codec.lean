import Sweep.Artifact.Codec
import Sweep.Run.Record

/-!
# Snapshots in documents

A snapshot is stored as one document, in which every record lists its fields and leaves out what is
absent. Lists of records may be missing when it is read, but not null.
-/

namespace Sweep

open Document (text? nat? list? fields?)

/-- Reads a timestamp. -/
def Document.timestamp? (d : Document) : Option Timestamp := d.text?.bind Timestamp.read?

/-- Reads the name of an alternative: a text, or a record of one field that is null. -/
def Document.alternative? : Document → Option String
  | .record [(.text name, .null)] => some name
  | d => d.text?

def Document.runStatus? (d : Document) : Option RunStatus :=
  d.alternative?.bind RunStatus.ofName?

def Document.unitStatus? (d : Document) : Option UnitStatus :=
  d.alternative?.bind UnitStatus.ofName?

def Timestamp.encode (t : Timestamp) : Json := .text t.write

/-- A field for a text that may be absent. -/
def Json.optionalText (name : String) (value : Option String) : List (String × Json) :=
  Json.optionalField name (value.map .text)

def Json.finishField (finishedAt : Option Timestamp) : List (String × Json) :=
  Json.optionalField "finished_at" (finishedAt.map Timestamp.encode)

namespace RunRecord

def fieldNames : List String :=
  ["run_id", "experiment", "version", "artifact_path", "artifact_hash", "status", "started_at",
   "updated_at", "finished_at", "current_space", "current_param_set", "current_task", "error"]

def decode? (d : Document) : Option RunRecord := do
  let fields ← fields? fieldNames d
  let runId ← fields.required? "run_id" text?
  let experiment ← fields.required? "experiment" text?
  let version ← fields.required? "version" text?
  let artifactPath ← fields.optional? "artifact_path" text?
  let artifactHash ← fields.required? "artifact_hash" text?
  let status ← fields.required? "status" Document.runStatus?
  let startedAt ← fields.required? "started_at" Document.timestamp?
  let updatedAt ← fields.required? "updated_at" Document.timestamp?
  let finishedAt ← fields.optional? "finished_at" Document.timestamp?
  let currentSpace ← fields.optional? "current_space" text?
  let currentSet ← fields.optional? "current_param_set" nat?
  let currentTask ← fields.optional? "current_task" text?
  let error ← fields.optional? "error" text?
  return { runId, experiment, version, artifactPath, artifactHash, status, startedAt, updatedAt,
           finishedAt, currentSpace, currentSet, currentTask, error }

def encode (r : RunRecord) : Json :=
  .record <|
    [("run_id", .text r.runId), ("experiment", .text r.experiment), ("version", .text r.version)] ++
    Json.optionalText "artifact_path" r.artifactPath ++
    [("artifact_hash", .text r.artifactHash), ("status", .text r.status.name),
     ("started_at", r.startedAt.encode), ("updated_at", r.updatedAt.encode)] ++
    Json.finishField r.finishedAt ++
    Json.optionalText "current_space" r.currentSpace ++
    Json.optionalField "current_param_set" (r.currentSet.map .ofNat) ++
    Json.optionalText "current_task" r.currentTask ++
    Json.optionalText "error" r.error

end RunRecord

namespace SpaceRecord

def fieldNames : List String := ["space_id", "status", "started_at", "finished_at"]

def decode? (d : Document) : Option SpaceRecord := do
  let fields ← fields? fieldNames d
  let spaceId ← fields.required? "space_id" text?
  let status ← fields.required? "status" Document.unitStatus?
  let startedAt ← fields.required? "started_at" Document.timestamp?
  let finishedAt ← fields.optional? "finished_at" Document.timestamp?
  return { spaceId, status, startedAt, finishedAt }

def encode (r : SpaceRecord) : Json :=
  .record <|
    [("space_id", .text r.spaceId), ("status", .text r.status.name),
     ("started_at", r.startedAt.encode)] ++
    Json.finishField r.finishedAt

end SpaceRecord

namespace SetRecord

def fieldNames : List String :=
  ["space_id", "param_set_index", "parameters", "status", "started_at", "finished_at"]

def decode? (d : Document) : Option SetRecord := do
  let fields ← fields? fieldNames d
  let spaceId ← fields.required? "space_id" text?
  let index ← fields.required? "param_set_index" nat?
  let parameters ← fields.withDefault? "parameters" ∅ ParameterSet.decode?
  let status ← fields.required? "status" Document.unitStatus?
  let startedAt ← fields.required? "started_at" Document.timestamp?
  let finishedAt ← fields.optional? "finished_at" Document.timestamp?
  return { spaceId, index, parameters, status, startedAt, finishedAt }

def encode (r : SetRecord) : Json :=
  .record <|
    [("space_id", .text r.spaceId), ("param_set_index", .ofNat r.index),
     ("parameters", ParameterSet.encode r.parameters), ("status", .text r.status.name),
     ("started_at", r.startedAt.encode)] ++
    Json.finishField r.finishedAt

end SetRecord

namespace TaskRecord

def fieldNames : List String :=
  ["space_id", "param_set_index", "task_id", "status", "started_at", "finished_at", "error"]

def decode? (d : Document) : Option TaskRecord := do
  let fields ← fields? fieldNames d
  let spaceId ← fields.required? "space_id" text?
  let index ← fields.required? "param_set_index" nat?
  let taskId ← fields.required? "task_id" text?
  let status ← fields.required? "status" Document.unitStatus?
  let startedAt ← fields.required? "started_at" Document.timestamp?
  let finishedAt ← fields.optional? "finished_at" Document.timestamp?
  let error ← fields.optional? "error" text?
  return { spaceId, index, taskId, status, startedAt, finishedAt, error }

def encode (r : TaskRecord) : Json :=
  .record <|
    [("space_id", .text r.spaceId), ("param_set_index", .ofNat r.index),
     ("task_id", .text r.taskId), ("status", .text r.status.name),
     ("started_at", r.startedAt.encode)] ++
    Json.finishField r.finishedAt ++
    Json.optionalText "error" r.error

end TaskRecord

namespace DataMapping

def fieldNames : List String :=
  ["space_id", "param_set_index", "data_name", "value", "task_id", "recorded_at"]

def decode? (d : Document) : Option DataMapping := do
  let fields ← fields? fieldNames d
  let spaceId ← fields.required? "space_id" text?
  let index ← fields.required? "param_set_index" nat?
  let name ← fields.required? "data_name" text?
  let value ← fields.required? "value" text?
  let taskId ← fields.optional? "task_id" text?
  let recordedAt ← fields.required? "recorded_at" Document.timestamp?
  return { spaceId, index, name, value, taskId, recordedAt }

def encode (m : DataMapping) : Json :=
  .record <|
    [("space_id", .text m.spaceId), ("param_set_index", .ofNat m.index),
     ("data_name", .text m.name), ("value", .text m.value)] ++
    Json.optionalText "task_id" m.taskId ++
    [("recorded_at", m.recordedAt.encode)]

end DataMapping

namespace ControlState

def fieldNames : List String := ["current_space", "updated_at"]

def decode? (d : Document) : Option ControlState := do
  let fields ← fields? fieldNames d
  let space ← fields.required? "current_space" text?
  let updatedAt ← fields.required? "updated_at" Document.timestamp?
  return { space, updatedAt }

def encode (c : ControlState) : Json :=
  .record [("current_space", .text c.space), ("updated_at", c.updatedAt.encode)]

end ControlState

namespace RunSnapshot

def fieldNames : List String :=
  ["run", "spaces", "param_sets", "tasks", "data_mappings", "control"]

def decode? (d : Document) : Option RunSnapshot := do
  let fields ← fields? fieldNames d
  let run ← fields.required? "run" RunRecord.decode?
  let spaces ← fields.withDefault? "spaces" [] (list? SpaceRecord.decode?)
  let sets ← fields.withDefault? "param_sets" [] (list? SetRecord.decode?)
  let tasks ← fields.withDefault? "tasks" [] (list? TaskRecord.decode?)
  let mappings ← fields.withDefault? "data_mappings" [] (list? DataMapping.decode?)
  let control ← fields.optional? "control" ControlState.decode?
  return { run, spaces, sets, tasks, mappings, control }

def encode (s : RunSnapshot) : Json :=
  .record <|
    [("run", s.run.encode), ("spaces", .list (s.spaces.map SpaceRecord.encode)),
     ("param_sets", .list (s.sets.map SetRecord.encode)),
     ("tasks", .list (s.tasks.map TaskRecord.encode)),
     ("data_mappings", .list (s.mappings.map DataMapping.encode))] ++
    Json.optionalField "control" (s.control.map ControlState.encode)

/-- The written form of a snapshot. -/
def write (s : RunSnapshot) : String := s.encode.indented

def read? (text : String) : Option RunSnapshot :=
  (Json.document? text).bind decode?

end RunSnapshot

end Sweep
