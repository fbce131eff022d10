import Sweep.Compile.ParameterSet
import Sweep.Timestamp

/-!
# Records of a run

What is kept of a run while it goes on: the run itself, one record for every space, parameter set
and task that was started, the values that tasks produced, and the space that the run is in. All of
it together is a snapshot, which is stored and loaded as a whole.
-/

namespace Sweep

/-- How a run stands. -/
inductive RunStatus where
  | running
  | completed
  | failed
  | terminated
deriving DecidableEq, Repr

namespace RunStatus

def name : RunStatus → String
  | .running => "running"
  | .completed => "completed"
  | .failed => "failed"
  | .terminated => "terminated"

def all : List RunStatus := [.running, .completed, .failed, .terminated]

def ofName? (name : String) : Option RunStatus := all.find? fun s => s.name == name

/-- A completed run is final, any other can be resumed. -/
def isResumable (s : RunStatus) : Bool := s != .completed

end RunStatus

/-- How a space, a parameter set or a task stands. -/
inductive UnitStatus where
  | running
  | completed
  | failed
deriving DecidableEq, Repr

namespace UnitStatus

def name : UnitStatus → String
  | .running => "running"
  | .completed => "completed"
  | .failed => "failed"

def all : List UnitStatus := [.running, .completed, .failed]

def ofName? (name : String) : Option UnitStatus := all.find? fun s => s.name == name

/-- The time to note as the finish when this status is set: none while the unit is running. -/
def finishAt (s : UnitStatus) (now : Timestamp) : Option Timestamp :=
  if s = .running then none else some now

end UnitStatus

structure RunRecord where
  runId : String
  experiment : String
  version : String
  artifactPath : Option String := none
  artifactHash : String
  status : RunStatus := .running
  startedAt : Timestamp
  updatedAt : Timestamp
  finishedAt : Option Timestamp := none
  /-- The position of the run: the space, parameter set and task last started. -/
  currentSpace : Option String := none
  currentSet : Option Nat := none
  currentTask : Option String := none
  error : Option String := none
deriving DecidableEq, Repr

/-- A run that starts now. -/
def RunRecord.new (runId experiment version artifactHash : String) (now : Timestamp) :
    RunRecord :=
  { runId, experiment, version, artifactHash, startedAt := now, updatedAt := now }

structure SpaceRecord where
  spaceId : String
  status : UnitStatus
  startedAt : Timestamp
  finishedAt : Option Timestamp := none
deriving DecidableEq, Repr

structure SetRecord where
  spaceId : String
  index : Nat
  parameters : ParameterSet
  status : UnitStatus
  startedAt : Timestamp
  finishedAt : Option Timestamp := none
deriving DecidableEq

structure TaskRecord where
  spaceId : String
  index : Nat
  taskId : String
  status : UnitStatus
  startedAt : Timestamp
  finishedAt : Option Timestamp := none
  error : Option String := none
deriving DecidableEq, Repr

/-- The value of a data name in a parameter set. -/
structure DataMapping where
  spaceId : String
  index : Nat
  name : String
  value : String
  /-- The task that produced the value. -/
  taskId : Option String := none
  recordedAt : Timestamp
deriving DecidableEq, Repr

/-- The space that a run is in. -/
structure ControlState where
  space : String
  updatedAt : Timestamp
deriving DecidableEq, Repr

/-- Everything that is kept of a run. -/
structure RunSnapshot where
  run : RunRecord
  spaces : List SpaceRecord := []
  sets : List SetRecord := []
  tasks : List TaskRecord := []
  mappings : List DataMapping := []
  control : Option ControlState := none
deriving DecidableEq

/-- How many units there are, in all and by status. -/
structure UnitCounts where
  total : Nat
  running : Nat
  completed : Nat
  failed : Nat
deriving DecidableEq, Repr

def UnitCounts.ofList (statuses : List UnitStatus) : UnitCounts :=
  { total := statuses.length
    running := statuses.count .running
    completed := statuses.count .completed
    failed := statuses.count .failed }

end Sweep
