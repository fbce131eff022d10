import Sweep.Run.Codec
import Sweep.Run.Event

/-!
# Outlines of records

An outline shows what a record says apart from its times, of which it only tells whether there is a
finish time. Two runs that went the same way at different times have the same outline.
-/

namespace Sweep

namespace RunRecord

/-- The space, the index and the task of a run's position. -/
def position (r : RunRecord) : Json :=
  .list [.ofText? r.currentSpace, (r.currentSet.map Json.ofNat).getD .null,
    .ofText? r.currentTask]

def outline (r : RunRecord) : Json :=
  .record
    [("runId", .text r.runId), ("experiment", .text r.experiment), ("version", .text r.version),
     ("artifactPath", .ofText? r.artifactPath), ("artifactHash", .text r.artifactHash),
     ("status", .text r.status.name), ("resumable", .bool r.status.isResumable),
     ("finished", .bool r.finishedAt.isSome), ("position", r.position),
     ("error", .ofText? r.error)]

end RunRecord

/-- A status and whether there is a finish time. -/
def UnitStatus.outline (s : UnitStatus) (finishedAt : Option Timestamp) : List Json :=
  [.text s.name, .bool finishedAt.isSome]

def SpaceRecord.outline (r : SpaceRecord) : List Json := r.status.outline r.finishedAt

def SetRecord.outline (r : SetRecord) : List Json :=
  r.status.outline r.finishedAt ++ [ParameterSet.encode r.parameters]

def TaskRecord.outline (r : TaskRecord) : List Json :=
  r.status.outline r.finishedAt ++ [.ofText? r.error]

def DataMapping.outline (m : DataMapping) : Json :=
  .list [.text m.spaceId, .ofNat m.index, .text m.name, .text m.value, .ofText? m.taskId]

/-- The records of a snapshot in their order, each with its key. -/
def RunSnapshot.outline (s : RunSnapshot) : Json :=
  .record
    [("run", s.run.outline),
     ("spaces", .list (s.spaces.map fun r => .list (.text r.spaceId :: r.outline))),
     ("paramSets", .list (s.sets.map fun r =>
       .list ([.text r.spaceId, .ofNat r.index] ++ r.outline))),
     ("tasks", .list (s.tasks.map fun r =>
       .list ([.text r.spaceId, .ofNat r.index, .text r.taskId] ++ r.outline))),
     ("mappings", .list (s.mappings.map DataMapping.outline)),
     ("control", .ofText? (s.control.map (·.space)))]

def UnitCounts.encode (c : UnitCounts) : Json :=
  .record [("total", .ofNat c.total), ("running", .ofNat c.running),
    ("completed", .ofNat c.completed), ("failed", .ofNat c.failed)]

end Sweep
