import Sweep.Run.Session

/-!
# Visits of spaces

To visit a space is to go through its parameter sets in the order of their indices, and in each set
through the tasks of the space in their order. A set that is recorded as completed is skipped; any
other is carried out from its first task. Every change is recorded before it is told. A task that
fails takes its set and its space with it.

A task gets its bound parameters, the values that the parameter set gives to its unbound ones, and
the values of its inputs: the value recorded in this parameter set, else the initial value of the
space, else the value recorded last anywhere in the run.
-/

namespace Sweep.Conduct

variable {S : Type} (c : Conduct S)

def parametersOf (space : SpaceDefinition) (index : Nat) (set : ParameterSet)
    (t : TaskDefinition) : Except RunError ParameterSet :=
  t.dynamicParameters.foldlM (fun parameters name =>
    match set.get? name with
    | some value => .ok (parameters.insert name value)
    | none => .error (.missingParameter space.spaceId index t.taskId name)) t.staticParameters

def inputValue (space : SpaceDefinition) (index : Nat) (t : TaskDefinition) (name : String) :
    Activity S String := do
  match ← c.query (c.host.backend.mapping? c.runId space.spaceId index name) with
  | some m => return m.value
  | none =>
    match space.inputData.get? name with
    | some value => return value
    | none =>
      match ← c.query (c.host.backend.latestMapping? c.runId name) with
      | some m => return m.value
      | none => throw (.missingInput space.spaceId index t.taskId name)

/-- Carries a command out, or only shows it; the values of the outputs of its task. -/
def carryOut (t : TaskDefinition) (command : Command) :
    Activity S (Except TaskError (List String)) := do
  if c.options.dryRun then
    c.note (.printed (command.preview t.taskId))
    return .ok (t.outputData.map fun _ => previewValue)
  else
    match ← c.launch command with
    | .error fault => return .error (.notStarted command.program fault)
    | .ok completion => return completion.values t.outputData

/-- The values of the outputs of a task on parameters and input values. -/
def execute (t : TaskDefinition) (parameters : ParameterSet) (inputs : List String) :
    Activity S (Except TaskError (List String)) :=
  match Command.ofTask t parameters inputs c.options.directory with
  | .error e => return .error e
  | .ok command => c.carryOut t command

def outputValues (space : SpaceDefinition) (index : Nat) (set : ParameterSet)
    (t : TaskDefinition) : Activity S (List String) := do
  let parameters ← parametersOf space index set t
  let inputs ← t.inputData.mapM (c.inputValue space index t)
  match ← c.execute t parameters inputs with
  | .ok values => return values
  | .error e => throw (.taskFailed space.spaceId index t.taskId e)

def recordValues (space : SpaceDefinition) (index : Nat) (t : TaskDefinition) :
    List (String × String) → Activity S Unit
  | [] => return
  | (name, value) :: rest => do
    c.record fun now => c.host.backend.putMapping c.runId {
      spaceId := space.spaceId, index, name, value, taskId := some t.taskId,
      recordedAt := now } now
    recordValues space index t rest

def recordFailure (space : SpaceDefinition) (index : Nat) (t : TaskDefinition) (e : RunError) :
    Activity S Unit := do
  let b := c.host.backend
  c.record (b.setTaskStatus c.runId space.spaceId index t.taskId .failed (some e.message))
  c.record (b.setSetStatus c.runId space.spaceId index .failed)
  c.record (b.setSpaceStatus c.runId space.spaceId .failed)

def runTask (space : SpaceDefinition) (index : Nat) (set : ParameterSet) (t : TaskDefinition) :
    Activity S Unit := do
  let b := c.host.backend
  let key : TaskKey := ⟨space.spaceId, index, t.taskId⟩
  c.record (b.startTask c.runId space.spaceId index t.taskId)
  c.mark key .started
  c.emit (.taskStarted c.runId space.spaceId index t.taskId)
  match ← (c.outputValues space index set t).attempt with
  | .error e =>
    c.recordFailure space index t e
    c.mark key .failed
    throw e
  | .ok values =>
    c.recordValues space index t (t.outputData.zip values)
    c.record (b.setTaskStatus c.runId space.spaceId index t.taskId .completed none)
    c.mark key .completed
    c.emit (.taskCompleted c.runId space.spaceId index t.taskId)

/-- Runs tasks in a parameter set, when a number of tasks of the space are done already. -/
def runTasks (space : SpaceDefinition) (index : Nat) (set : ParameterSet) (total : Nat) :
    Nat → List TaskDefinition → Activity S Unit
  | _, [] => return
  | done, t :: rest => do
    c.runTask space index set t
    let done := done + 1
    c.emit (.progress c.runId done total
      s!"{space.spaceId}: task {toString done}/{toString total} ({t.taskId})")
    c.checkTermination
    runTasks space index set total done rest

def isSetCompleted (space : SpaceDefinition) (index : Nat) : Activity S Bool := do
  match ← c.query (c.host.backend.set? c.runId space.spaceId index) with
  | some record => return decide (record.status = .completed)
  | none => return false

/-- Goes through parameter sets, when a number of sets of the space are completed already. -/
def runSets (space : SpaceDefinition) (tasks : List TaskDefinition) :
    Nat → List (ParameterSet × Nat) → Activity S Unit
  | _, [] => return
  | completed, (set, index) :: rest => do
    let b := c.host.backend
    if ← c.isSetCompleted space index then
      runSets space tasks (completed + 1) rest
    else
      let total := space.parameters.length
      c.record (b.startSet c.runId space.spaceId index set)
      c.emit (.setStarted c.runId space.spaceId index)
      c.runTasks space index set (tasks.length * total) (completed * tasks.length) tasks
      c.record (b.setSetStatus c.runId space.spaceId index .completed)
      let completed := completed + 1
      c.emit (.setCompleted c.runId space.spaceId index)
      c.emit (.progress c.runId completed total
        s!"{space.spaceId}: parameter set {toString completed}/{toString total}")
      c.checkTermination
      runSets space tasks completed rest

def tasksOf (space : SpaceDefinition) : Except RunError (List TaskDefinition) :=
  space.tasksOrder.mapM fun id =>
    match c.artifact.task? id with
    | some t => .ok t
    | none => .error (.unknownTask space.spaceId id)

/-- Visits a space. A visit that was broken off goes on, unless a task has failed in it. -/
def visit (space : SpaceDefinition) : Activity S Unit := do
  let b := c.host.backend
  let known ← c.query (b.space? c.runId space.spaceId)
  if known.all fun record => record.status != .running then
    c.record (b.startSpace c.runId space.spaceId)
  c.emit (.spaceStarted c.runId space.spaceId)
  let tasks ← c.tasksOf space
  c.runSets space tasks 0 space.parameters.zipIdx
  c.record (b.setSpaceStatus c.runId space.spaceId .completed)
  c.emit (.spaceCompleted c.runId space.spaceId)

end Sweep.Conduct
