import Sweep.Artifact.Basic
import Sweep.Compile.Plan
import Sweep.Compile.Sharing

/-!
# Compiling an experiment

An experiment and the workflows that it names are compiled to an artifact in stages: the spaces are
planned, the flow of data is checked, the graph of spaces is built, equal tasks are shared, and the
artifact is put together. The first stage that finds errors ends the compilation with all of them.
-/

namespace Sweep

/-- A compiled experiment and the warnings about it. -/
structure Compilation where
  artifact : Artifact
  warnings : List CompileWarning

namespace Compile

/-- The errors about the spaces as such: there is none, or two have one name. -/
def checkSpaces (e : Experiment) : Except CompileFailure Unit :=
  if e.spaces.isEmpty then .error ⟨.emptyExperiment, []⟩
  else CompileFailure.check (duplicates [] (e.spaces.map (·.name)))
where
  duplicates : List String → List String → List CompileError
    | _, [] => []
    | seen, name :: rest =>
      (if seen.contains name then [.duplicateSpace name] else []) ++
        duplicates (name :: seen) rest

def planSpace (s : Space) (w : ResolvedWorkflow) :
    Except (List CompileError) (SpacePlan × List CompileWarning) :=
  match s.parameterSets with
  | .error e => .error [e]
  | .ok parameterSets =>
    match s.resolveTasks w with
    | .error failure => .error failure.errors
    | .ok (tasks, warnings) =>
      .ok ({ name := s.name, workflow := w.name, tasks
             workflowData := w.data, spaceData := s.data, parameterSets }, warnings)

/-- What planning has found so far. An error of a workflow is listed once, however many spaces name
the workflow. -/
structure Planning where
  lineages : Lineages
  errors : List CompileError := []
  plans : List SpacePlan := []
  warnings : List CompileWarning := []

/-- Plans one more space. -/
def Planning.add (p : Planning) (s : Space) : Planning :=
  if !p.lineages.contains s.workflow then
    { p with errors := p.errors ++ [.undefinedWorkflow s.name s.workflow] }
  else
    match p.lineages.resolve s.workflow with
    | (.error e, lineages) =>
      { p with lineages, errors := if p.errors.contains e then p.errors else p.errors ++ [e] }
    | (.ok w, lineages) =>
      match planSpace s w with
      | .error errors => { p with lineages, errors := p.errors ++ errors }
      | .ok (plan, warnings) =>
        { p with lineages, plans := p.plans ++ [plan], warnings := p.warnings ++ warnings }

def planSpaces (e : Experiment) (workflows : List Workflow) :
    Except CompileFailure (List SpacePlan × List CompileWarning) := do
  let planning := e.spaces.foldl Planning.add { lineages := .ofWorkflows workflows }
  CompileFailure.check planning.errors
  return (planning.plans, planning.warnings)

def taskDefinition (t : ResolvedTask) : TaskDefinition :=
  { taskId := t.id, workflow := t.workflow, implementation := t.implementation
    dynamicParameters := t.dynamicParameters, staticParameters := t.staticParameters
    inputData := t.inputs, outputData := t.outputs }

/-- The values that a space starts from; those of the space replace those of the experiment. -/
def inputValues (experimentData spaceData : List DataSlot) : Table String :=
  .ofList <| (experimentData ++ spaceData).filterMap fun slot =>
    slot.value.map fun value => (slot.name, value)

/-- The definition of a planned space, with its tasks under their shared identities. -/
def spaceDefinition (e : Experiment) (sharing : Sharing) (p : SpacePlan) : SpaceDefinition :=
  { spaceId := p.name
    tasksOrder := p.tasks.map fun t => (sharing.canonicalId? p.name t.id).getD t.id
    parameters := p.parameterSets
    inputData := inputValues e.data p.spaceData }

def assemble (e : Experiment) (plans : List SpacePlan) (control : ControlGraph) : Artifact :=
  let sharing := Sharing.ofTasks (plans.flatMap (·.tasks))
  { experiment := e.name
    version := artifactVersion
    tasks := sharing.groups.map fun group => group.map taskDefinition
    spaces := plans.map (spaceDefinition e sharing)
    control }

/-- Whether a workflow is met on the way from another to its ancestors, in so many steps. -/
def isAncestor (models : Table Workflow) (name : String) : Nat → String → Bool
  | 0, _ => false
  | steps + 1, start =>
    match (models.get? start).bind (·.parent) with
    | none => false
    | some parent => parent == name || isAncestor models name steps parent

/-- The workflows that no space names and no named workflow descends from, in increasing order. A
way to an ancestor has at most one step more than there are workflows. -/
def unusedWorkflows (e : Experiment) (workflows : List Workflow) : List String :=
  let models : Table Workflow := .ofList (workflows.map fun w => (w.name, w))
  let referenced := e.referencedWorkflows
  let unused := (workflows.map (·.name)).filter fun name =>
    !referenced.contains name &&
      !referenced.any fun start => isAncestor models name (models.size + 1) start
  unused.mergeSort fun a b => decide (a ≤ b)

end Compile

open Compile in
/-- Compiles an experiment with the workflows that it may name. -/
def compile (e : Experiment) (workflows : List Workflow) : Except CompileFailure Compilation := do
  checkSpaces e
  let (plans, warnings) ← planSpaces e workflows
  SpacePlan.checkData plans e.data
  let control ← ControlGraph.build (e.spaces.map (·.name)) e.control
  return {
    artifact := assemble e plans control
    warnings := warnings ++ (unusedWorkflows e workflows).map .unusedWorkflow }

end Sweep
