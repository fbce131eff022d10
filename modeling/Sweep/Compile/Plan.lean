import Sweep.Compile.ParameterSet
import Sweep.Compile.ResolvedTask

/-!
# Plans of spaces and the data that flows through them

A plan holds all that is known of a space before its artifact is put together. A task may consume
what is declared as data of the experiment, the workflow or the space, and what an earlier task of
the same space produces. Data that some task of the experiment consumes and none produces has to
have a value for every space.
-/

namespace Sweep

/-- A space ready to be put into an artifact. -/
structure SpacePlan where
  name : String
  workflow : String
  /-- The tasks in the order of execution. -/
  tasks : List ResolvedTask
  /-- The data slots of the workflow and its ancestors. -/
  workflowData : List DataSlot
  spaceData : List DataSlot
  parameterSets : List ParameterSet

namespace SpacePlan

/-- The inputs that tasks consume before they are available. -/
def missingInputs (space : String) : List String → List ResolvedTask → List CompileError
  | _, [] => []
  | available, t :: rest =>
    (t.inputs.filter fun input => !available.contains input).map (.missingInput space t.id) ++
      missingInputs space (available ++ t.outputs) rest

/-- The data names that are available before the first task. -/
def declaredData (p : SpacePlan) (experimentData : List DataSlot) : List String :=
  (experimentData ++ p.workflowData ++ p.spaceData).map (·.name)

/-- The inputs of a space that are consumed before they are available. -/
def dataErrors (p : SpacePlan) (experimentData : List DataSlot) : List CompileError :=
  missingInputs p.name (p.declaredData experimentData) p.tasks

/-- The inputs that some task consumes and no task produces, in increasing order. -/
def initialInputs (plans : List SpacePlan) : List String :=
  let tasks := plans.flatMap (·.tasks)
  let produced := tasks.flatMap (·.outputs)
  sortDistinct ((tasks.flatMap (·.inputs)).filter fun input => !produced.contains input)

/-- Whether a name has a value among some data slots. -/
def hasValue (data : List DataSlot) (name : String) : Bool :=
  data.any fun slot => slot.name == name && slot.value.isSome

/-- The initial inputs without a value, space by space. -/
def initialInputErrors (plans : List SpacePlan) (experimentData : List DataSlot) :
    List CompileError :=
  let inputs := initialInputs plans
  plans.flatMap fun p =>
    (inputs.filter fun input =>
      !hasValue p.spaceData input && !hasValue experimentData input).map
        (.unsatisfiedInitialInput p.name)

/-- Checks the flow of data through all spaces. -/
def checkData (plans : List SpacePlan) (experimentData : List DataSlot) :
    Except CompileFailure Unit :=
  CompileFailure.check <|
    plans.flatMap (·.dataErrors experimentData) ++ initialInputErrors plans experimentData

end SpacePlan

end Sweep
