import Sweep.Json.Printer
import Sweep.Text.Blank

/-!
# Workflows as their authors write them

A workflow declares tasks, data slots and the order in which the tasks run. It may extend a parent,
and configure the tasks that it inherits. A task without implementation is abstract: it has to get
one from a configuration before it can be compiled.
-/

namespace Sweep

/-- The sentinel that opens a task chain and the control graph. -/
def startMark : String := "START"

/-- The sentinel that closes a task chain and the control graph. -/
def endMark : String := "END"

/-- A parameter of a task, bound to a value or left to the parameter sets of a space. -/
structure Parameter where
  name : String
  value : Option Json
deriving DecidableEq, Repr

namespace Parameter

/-- A parameter that the parameter sets of a space have to bind. -/
def dynamic (name : String) : Parameter := ⟨name, none⟩

def bound (name : String) (value : Json) : Parameter := ⟨name, some value⟩

def isBound (p : Parameter) : Bool := p.value.isSome

end Parameter

/-- A named piece of data, with a value if it is known beforehand. -/
structure DataSlot where
  name : String
  value : Option String
deriving DecidableEq, Repr

/-- Changes to the task of a given name. Inputs and outputs are replaced if they are given, even by
empty lists. -/
structure Configuration where
  task : String
  implementation : Option String := none
  parameters : List Parameter := []
  inputs : Option (List String) := none
  outputs : Option (List String) := none
deriving DecidableEq, Repr

/-- A task of a workflow; `workflow` names the workflow that declares it. -/
structure Task where
  name : String
  workflow : String := ""
  implementation : Option String := none
  parameters : List Parameter := []
  inputs : List String := []
  outputs : List String := []
deriving DecidableEq, Repr

def taskId (workflow name : String) : String := workflow ++ ":" ++ name

namespace Task

/-- A task whose name has no white space around it. -/
def new (name : String) : Task := { name := Text.trim name }

def id (t : Task) : String := taskId t.workflow t.name

/-- A task without implementation, or with one of white space only. -/
def isAbstract (t : Task) : Bool :=
  match t.implementation with
  | some path => Text.isEmptyTrimmed path
  | none => true

/-- Merges a parameter into a list: the first of the same name is rebound if there is a value, and
a parameter of a new name is added at the end. -/
def mergeParameter : List Parameter → Parameter → List Parameter
  | [], p => [p]
  | q :: rest, p =>
    if q.name = p.name then (if p.isBound then { q with value := p.value } else q) :: rest
    else q :: mergeParameter rest p

/-- The task changed by a configuration. -/
def apply (t : Task) (c : Configuration) : Task :=
  { t with
    implementation := c.implementation.orElse fun _ => t.implementation
    parameters := c.parameters.foldl mergeParameter t.parameters
    inputs := c.inputs.getD t.inputs
    outputs := c.outputs.getD t.outputs }

end Task

/-- The declared order of tasks, between its two sentinels. -/
structure Chain where
  elements : List String
deriving DecidableEq, Repr

namespace Chain

/-- The chain of some tasks. -/
def ofTasks (tasks : List String) : Chain := ⟨startMark :: tasks ++ [endMark]⟩

def isSentinel (element : String) : Bool := element == startMark || element == endMark

/-- The tasks of a chain in order. -/
def order (c : Chain) : List String := c.elements.filter fun e => !isSentinel e

/-- Whether the sentinels stand at the two ends of a chain and nowhere else. -/
def isWellFormed (c : Chain) : Bool :=
  2 ≤ c.elements.length && c.elements.head? == some startMark &&
    c.elements.getLast? == some endMark && c.elements.tail.dropLast.all fun e => !isSentinel e

end Chain

structure Workflow where
  name : String
  parent : Option String := none
  tasks : List Task := []
  data : List DataSlot := []
  chain : Option Chain := none
  configurations : List Configuration := []
deriving DecidableEq, Repr

namespace Workflow

/-- A workflow whose name has no white space around it. -/
def new (name : String) : Workflow := { name := Text.trim name }

/-- Makes the workflow the owner of a task. -/
def own (w : Workflow) (t : Task) : Task := { t with workflow := w.name }

def withTask (w : Workflow) (t : Task) : Workflow :=
  { w with tasks := w.tasks ++ [w.own t] }

/-- The workflow as the owner of all its tasks. -/
def assignOwnership (w : Workflow) : Workflow :=
  { w with tasks := w.tasks.map w.own }

/-- The first task of a given name. -/
def task? (w : Workflow) (name : String) : Option Task :=
  w.tasks.find? fun t => t.name == name

end Workflow

end Sweep
