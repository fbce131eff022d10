import Sweep.Compile.Lineage
import Sweep.Experiment.Basic

/-!
# Tasks as a space sees them

A space runs the tasks of its workflow in the workflow's order, each with the space's own
configurations applied on top of those of the lineage. Bound parameters are static; the others are
dynamic and have to be bound by the space's parameter sets.
-/

namespace Sweep

/-- A task with every configuration applied. -/
structure ResolvedTask where
  /-- The identity under the space's workflow. -/
  id : String
  name : String
  /-- The space's workflow. -/
  workflow : String
  /-- The workflow of the lineage that declares the task. -/
  declaredIn : String
  /-- The depth of the space's workflow. -/
  depth : Nat
  space : String
  implementation : String
  dynamicParameters : List String
  staticParameters : Table Json
  inputs : List String
  outputs : List String
deriving DecidableEq

namespace Task

/-- The names of the parameters that have no value. -/
def dynamicParameters (t : Task) : List String :=
  (t.parameters.filter fun p => !p.isBound).map (·.name)

/-- The parameters that have a value; of several of one name the last counts. -/
def staticParameters (t : Task) : Table Json :=
  .ofList (t.parameters.filterMap fun p => p.value.map fun value => (p.name, value))

end Task

namespace Space

/-- A task with the space's configurations of it applied in order. -/
def configure (s : Space) (t : Task) : Task :=
  (s.configurations.filter fun c => c.task == t.name).foldl Task.apply t

def resolveTask (s : Space) (w : ResolvedWorkflow) (t : Task) : ResolvedTask :=
  let t := s.configure t
  { id := taskId w.name t.name
    name := t.name
    workflow := w.name
    declaredIn := t.workflow
    depth := w.depth
    space := s.name
    implementation := t.implementation.getD ""
    dynamicParameters := t.dynamicParameters
    staticParameters := t.staticParameters
    inputs := t.inputs
    outputs := t.outputs }

/-- The tasks of a workflow in their order. -/
def orderedTasks (w : ResolvedWorkflow) : List Task :=
  w.order.filterMap w.task?

/-- The configurations of the space that name no task of its workflow. -/
def configurationErrors (s : Space) (w : ResolvedWorkflow) : List CompileError :=
  (s.configurations.filter fun c => (w.task? c.task).isNone).map fun c =>
    .undefinedTask s!"Space '{s.name}' configuration" c.task

/-- The tasks that even the space's configurations leave without implementation. -/
def implementationErrors (s : Space) (w : ResolvedWorkflow) : List CompileError :=
  ((orderedTasks w).filter fun t => (s.configure t).isAbstract).map fun t =>
    .missingImplementation s.name (taskId w.name t.name)

/-- Warnings for the dynamic parameters of a task that the space has no parameter for. -/
def unboundWarnings (s : Space) (t : ResolvedTask) : List CompileWarning :=
  (t.dynamicParameters.filter fun name => !s.parameters.any fun p => p.name == name).map
    fun name => .unboundDynamicParameter s.name t.id name

def resolveTasks (s : Space) (w : ResolvedWorkflow) :
    Except CompileFailure (List ResolvedTask × List CompileWarning) := do
  CompileFailure.check (s.configurationErrors w ++ s.implementationErrors w)
  let tasks := (orderedTasks w).map (s.resolveTask w)
  let warnings :=
    if tasks.isEmpty then [.emptySpace s.name] else tasks.flatMap s.unboundWarnings
  return (tasks, warnings)

end Space

end Sweep
