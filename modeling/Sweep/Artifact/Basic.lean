import Sweep.Compile.ParameterSet
import Sweep.Compile.Control

/-!
# Artifacts

An artifact is a compiled experiment: all that is needed to run it. It defines the tasks, for each
space the order of its tasks, its parameter sets and the data it starts from, and the graph that
leads from space to space. `Artifact.validate` checks that every name used is defined.
-/

namespace Sweep

/-- A task that can be run. -/
structure TaskDefinition where
  taskId : String
  workflow : String
  implementation : String
  dynamicParameters : List String := []
  staticParameters : Table Json := ∅
  inputData : List String := []
  outputData : List String := []
deriving DecidableEq

/-- A space that can be run. -/
structure SpaceDefinition where
  spaceId : String
  tasksOrder : List String
  parameters : List ParameterSet
  inputData : Table String := ∅
deriving DecidableEq

/-- The last task of a space, whose outputs are the results of the space. -/
def SpaceDefinition.lastTask? (s : SpaceDefinition) : Option String := s.tasksOrder.getLast?

/-- A compiled experiment. -/
structure Artifact where
  experiment : String
  version : String
  tasks : List (List TaskDefinition)
  spaces : List SpaceDefinition
  control : ControlGraph
deriving DecidableEq

def artifactVersion : String := "1.0"

/-- How an artifact refers to what it does not define. -/
inductive ArtifactFault where
  | unknownTask (space task : String)
  | undeclaredStart (start : String)
  | undeclaredSpace (source target : String)
deriving DecidableEq, Repr

def ArtifactFault.message : ArtifactFault → String
  | .unknownTask space task => s!"space '{space}' references unknown task '{task}'"
  | .undeclaredStart start => s!"start '{start}' is not a declared space"
  | .undeclaredSpace source target =>
    s!"transition {source} -> {target} references an undeclared space"

namespace Artifact

def task? (a : Artifact) (taskId : String) : Option TaskDefinition :=
  a.tasks.flatten.find? fun t => t.taskId == taskId

def space? (a : Artifact) (spaceId : String) : Option SpaceDefinition :=
  a.spaces.find? fun s => s.spaceId == spaceId

def taskCount (a : Artifact) : Nat := a.tasks.flatten.length

/-- The first task of a space's order that is not defined. -/
def unknownTask? (a : Artifact) (s : SpaceDefinition) : Option ArtifactFault :=
  (s.tasksOrder.find? fun task => (a.task? task).isNone).map (.unknownTask s.spaceId)

/-- Whether a transition leaves a space and leads to one or to the end. -/
def declares (a : Artifact) (t : Transition) : Bool :=
  (a.space? t.source).isSome && ((a.space? t.target).isSome || t.target == endMark)

/-- The first fault of an artifact: in the spaces, then at the start, then in the transitions. -/
def fault? (a : Artifact) : Option ArtifactFault :=
  match a.spaces.findSome? a.unknownTask? with
  | some fault => some fault
  | none =>
    if (a.space? a.control.start).isNone then some (.undeclaredStart a.control.start)
    else
      (a.control.transitions.find? fun t => !a.declares t).map fun t =>
        .undeclaredSpace t.source t.target

/-- Checks that every name used is defined. -/
def validate (a : Artifact) : Except ArtifactFault Unit :=
  match a.fault? with
  | some fault => .error fault
  | none => .ok ()

end Artifact

end Sweep
