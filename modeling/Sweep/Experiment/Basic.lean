import Sweep.Workflow.Basic

/-!
# Experiments as their authors write them

An experiment runs workflows over spaces of parameters. A space names a workflow, gives each of its
parameters a domain, and may configure the workflow's tasks and provide data. The transitions say
which space follows which, and on which condition.
-/

namespace Sweep

/-- The numbers `min, min + step, …` up to `max`. -/
structure RangeSpec where
  min : Binary64
  max : Binary64
  step : Binary64
deriving DecidableEq, Repr

/-- What the values of a space's parameter are taken from. -/
inductive Domain where
  /-- The values of a list. -/
  | enumeration (values : List Json)
  /-- The numbers of a range. -/
  | range (spec : RangeSpec)
  /-- A text that is handed on as it is. -/
  | expression (text : String)
deriving DecidableEq, Repr

structure SpaceParameter where
  name : String
  domain : Domain
deriving DecidableEq, Repr

/-- The strategy of a space that names none. -/
def defaultStrategy : String := "gridsearch"

/-- A workflow together with the parameters to run it with. -/
structure Space where
  name : String
  workflow : String
  strategy : String := defaultStrategy
  parameters : List SpaceParameter := []
  configurations : List Configuration := []
  data : List DataSlot := []
deriving DecidableEq, Repr

/-- A space whose names have no white space around them. -/
def Space.new (name workflow : String) : Space :=
  { name := Text.trim name, workflow := Text.trim workflow }

/-- A step from one space to another, or from or to a sentinel. -/
structure Transition where
  source : String
  target : String
  condition : Option String := none
deriving DecidableEq, Repr

structure Experiment where
  name : String
  spaces : List Space := []
  data : List DataSlot := []
  control : Option (List Transition) := none
deriving DecidableEq, Repr

namespace Experiment

/-- An experiment whose name has no white space around it. -/
def new (name : String) : Experiment := { name := Text.trim name }

/-- The first space of a given name. -/
def space? (e : Experiment) (name : String) : Option Space :=
  e.spaces.find? fun s => s.name == name

/-- The distinct strings of a list in the order of their first occurrence. -/
def firstOccurrences (names : List String) : List String :=
  names.foldl (fun done name => if done.contains name then done else done ++ [name]) []

/-- The workflows that the spaces name, in the order in which they are first named. -/
def referencedWorkflows (e : Experiment) : List String :=
  firstOccurrences (e.spaces.map (·.workflow))

end Experiment

end Sweep
