import Sweep.Run.Record

/-!
# Changing a snapshot

Every record of a snapshot is found by its key: a space by its name, a parameter set by its space
and index, a task by these and its identity, a value by space, index and data name. Creating a
record replaces the one of the same key and puts it last; setting a status requires the record to
be there. A unit has a finish time exactly when its status, once set, is not running.
-/

namespace Sweep

/-- What a record that is missing would be about. -/
inductive RecordKey where
  | space (space : String)
  | set (space : String) (index : Nat)
  | task (space : String) (index : Nat) (task : String)
deriving DecidableEq, Repr

def RecordKey.describe : RecordKey → String
  | .space name => s!"space '{name}'"
  | .set name index => s!"parameter set {toString index} of space '{name}'"
  | .task name index id => s!"task '{id}' in parameter set {toString index} of space '{name}'"

/-- Applies a function to the first item with a property, if there is one. -/
def updateFirst? (p : α → Bool) (f : α → α) : List α → Option (List α)
  | [] => none
  | x :: rest => if p x then some (f x :: rest) else (updateFirst? p f rest).map (x :: ·)

namespace SpaceRecord

def isAbout (space : String) (r : SpaceRecord) : Bool := r.spaceId == space

end SpaceRecord

namespace SetRecord

def isAbout (space : String) (index : Nat) (r : SetRecord) : Bool :=
  r.spaceId == space && r.index == index

end SetRecord

namespace TaskRecord

def isAbout (space : String) (index : Nat) (task : String) (r : TaskRecord) : Bool :=
  r.spaceId == space && r.index == index && r.taskId == task

end TaskRecord

namespace DataMapping

def isAbout (space : String) (index : Nat) (name : String) (m : DataMapping) : Bool :=
  m.spaceId == space && m.index == index && m.name == name

/-- Whether two mappings are about the same data name of the same parameter set. -/
def sameKey (m n : DataMapping) : Bool := isAbout m.spaceId m.index m.name n

end DataMapping

namespace RunSnapshot

variable (s : RunSnapshot) (now : Timestamp)

/-- A run of which nothing is recorded yet. -/
def ofRun (run : RunRecord) : RunSnapshot := { run }

/-- The snapshot as changed at the given time. -/
def touch : RunSnapshot := { s with run.updatedAt := now }

/-- Sets how the run stands. A run that is not running has a finish time. -/
def setStatus (status : RunStatus) (error : Option String) : RunSnapshot :=
  { s with
    run.status := status
    run.error := error
    run.finishedAt := if status = .running then none else some now }

def setPosition (space : Option String) (index : Option Nat) (task : Option String) :
    RunSnapshot :=
  { s with run.currentSpace := space, run.currentSet := index, run.currentTask := task }

/-! ## Spaces -/

def space? (space : String) : Option SpaceRecord := s.spaces.find? (·.isAbout space)

/-- Starts a space, again if it has been started before. -/
def startSpace (space : String) : RunSnapshot :=
  { s with
    spaces := (s.spaces.filter fun r => !r.isAbout space) ++
      [{ spaceId := space, status := .running, startedAt := now }] }

def setSpaceStatus (space : String) (status : UnitStatus) : Except RecordKey RunSnapshot :=
  let set (r : SpaceRecord) := { r with status, finishedAt := status.finishAt now }
  match updateFirst? (·.isAbout space) set s.spaces with
  | some spaces => .ok { s with spaces }
  | none => .error (.space space)

/-- Forgets the records of a space, its parameter sets and their tasks, but not their values. -/
def resetSpace (space : String) : RunSnapshot :=
  { s with
    spaces := s.spaces.filter fun r => r.spaceId != space
    sets := s.sets.filter fun r => r.spaceId != space
    tasks := s.tasks.filter fun r => r.spaceId != space }

/-! ## Parameter sets -/

def set? (space : String) (index : Nat) : Option SetRecord :=
  s.sets.find? (·.isAbout space index)

/-- Starts a parameter set, again if it has been started before. -/
def startSet (space : String) (index : Nat) (parameters : ParameterSet) : RunSnapshot :=
  { s with
    sets := (s.sets.filter fun r => !r.isAbout space index) ++
      [{ spaceId := space, index, parameters, status := .running, startedAt := now }] }

def setSetStatus (space : String) (index : Nat) (status : UnitStatus) :
    Except RecordKey RunSnapshot :=
  let set (r : SetRecord) := { r with status, finishedAt := status.finishAt now }
  match updateFirst? (·.isAbout space index) set s.sets with
  | some sets => .ok { s with sets }
  | none => .error (.set space index)

/-! ## Tasks -/

def task? (space : String) (index : Nat) (task : String) : Option TaskRecord :=
  s.tasks.find? (·.isAbout space index task)

/-- Starts a task, again if it has been started before, and moves the run to its position. -/
def startTask (space : String) (index : Nat) (task : String) : RunSnapshot :=
  { s with
    tasks := (s.tasks.filter fun r => !r.isAbout space index task) ++
      [{ spaceId := space, index, taskId := task, status := .running, startedAt := now }]
    run.currentSpace := some space
    run.currentSet := some index
    run.currentTask := some task }

def setTaskStatus (space : String) (index : Nat) (task : String) (status : UnitStatus)
    (error : Option String) : Except RecordKey RunSnapshot :=
  let set (r : TaskRecord) := { r with status, error, finishedAt := status.finishAt now }
  match updateFirst? (·.isAbout space index task) set s.tasks with
  | some tasks => .ok { s with tasks }
  | none => .error (.task space index task)

/-! ## Values -/

/-- Records a value in place of the one of the same key. -/
def putMapping (m : DataMapping) : RunSnapshot :=
  { s with mappings := (s.mappings.filter fun n => !m.sameKey n) ++ [m] }

def mapping? (space : String) (index : Nat) (name : String) : Option DataMapping :=
  s.mappings.find? (·.isAbout space index name)

/-- The values recorded in a parameter set. -/
def mappingsOf (space : String) (index : Nat) : List DataMapping :=
  s.mappings.filter fun m => m.spaceId == space && m.index == index

/-- The later of two mappings; of two that were recorded at one time, the second. -/
def later (latest : Option DataMapping) (m : DataMapping) : Option DataMapping :=
  match latest with
  | some l => if m.recordedAt.lt l.recordedAt then some l else some m
  | none => some m

/-- The value last recorded for a data name in any space. -/
def latestMapping? (name : String) : Option DataMapping :=
  (s.mappings.filter fun m => m.name == name).foldl later none

/-! ## Control and counts -/

/-- Notes the space that the run is in. -/
def enter (space : String) : RunSnapshot := { s with control := some ⟨space, now⟩ }

def taskCounts (space : Option String) : UnitCounts :=
  .ofList ((s.tasks.filter fun r => space.all (r.spaceId == ·)).map (·.status))

def spaceCounts : UnitCounts := .ofList (s.spaces.map (·.status))

def setCounts (space : String) : UnitCounts :=
  .ofList ((s.sets.filter fun r => r.spaceId == space).map (·.status))

end RunSnapshot

end Sweep
