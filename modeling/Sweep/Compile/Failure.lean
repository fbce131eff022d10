import Sweep.Condition.Basic
import Sweep.Number.Shortest

/-!
# Why an experiment does not compile

The causes of failure and the warnings of a compilation. A stage of the compiler reports all causes
that it finds together, so a failure is a list of causes that is not empty; a single cause speaks
for itself, several are listed under a common heading.
-/

namespace Sweep

inductive RangeFault where
  | notFinite
  | stepNotPositive (step : Binary64)
  | minAboveMax (min max : Binary64)
  | tooManyValues (count : Binary64)
  | notRepresentable (value : Binary64)
deriving DecidableEq, Repr

/-- How many values a range may have. -/
def maxRangeValues : Nat := 1000000

def RangeFault.message : RangeFault → String
  | .notFinite => "bounds and step must be finite"
  | .stepNotPositive step => s!"step must be positive, got {Number.showMessage step}"
  | .minAboveMax min max =>
    s!"min {Number.showMessage min} is greater than max {Number.showMessage max}"
  | .tooManyValues count =>
    s!"expands to {Number.showMessage count} values (limit {toString maxRangeValues})"
  | .notRepresentable value => s!"value {Number.showMessage value} is not representable"

/-- One cause of a failed compilation. -/
inductive CompileError where
  | emptyExperiment
  | duplicateSpace (space : String)
  | undefinedWorkflow (space workflow : String)
  | undefinedParent (workflow parent : String)
  | circularInheritance (path : List String)
  | illegalOverride (workflow task ancestor : String)
  | duplicateTask (workflow task : String)
  | undefinedTask (scope task : String)
  | malformedChain (workflow : String)
  | missingImplementation (space task : String)
  | duplicateParameter (space parameter : String)
  | invalidRange (space parameter : String) (fault : RangeFault)
  | emptyDomain (space parameter : String)
  | missingInput (space task input : String)
  | unsatisfiedInitialInput (space input : String)
  | missingStart
  | ambiguousStart (targets : List String)
  | undefinedSpace (source target space : String)
  | invalidCondition (source target : String) (error : ConditionError)
  | unreachableEnd (start : String)
  | unreachableSpace (space start : String)
deriving DecidableEq, Repr

def CompileError.message : CompileError → String
  | .emptyExperiment => "Experiment has no spaces"
  | .duplicateSpace space => s!"Duplicate space name: '{space}'"
  | .undefinedWorkflow space workflow =>
    s!"Space '{space}' references undefined workflow '{workflow}'"
  | .undefinedParent workflow parent =>
    s!"Workflow '{workflow}' extends undefined parent '{parent}'"
  | .circularInheritance path => "Circular inheritance: " ++ " -> ".intercalate path
  | .illegalOverride workflow task ancestor =>
    s!"Workflow '{workflow}' re-declares task '{task}' inherited from '{ancestor}'; " ++
      "configure it instead"
  | .duplicateTask workflow task =>
    s!"Workflow '{workflow}' declares task '{task}' more than once"
  | .undefinedTask scope task => s!"{scope} references undefined task '{task}'"
  | .malformedChain workflow =>
    s!"Workflow '{workflow}' has a malformed task chain (expected START ... END)"
  | .missingImplementation space task =>
    s!"Space '{space}': task has no implementation: '{task}'"
  | .duplicateParameter space parameter =>
    s!"Space '{space}' declares parameter '{parameter}' more than once"
  | .invalidRange space parameter fault =>
    s!"Space '{space}': parameter '{parameter}' has an invalid range: " ++ fault.message
  | .emptyDomain space parameter =>
    s!"Space '{space}': parameter '{parameter}' has an empty value domain"
  | .missingInput space task input =>
    s!"Space '{space}': task '{task}' requires input '{input}' " ++
      "which is not available at that point"
  | .unsatisfiedInitialInput space input =>
    s!"Space '{space}': initial input '{input}' has no value at space or experiment level"
  | .missingStart => "Control flow has no START transition"
  | .ambiguousStart targets =>
    "Control flow has more than one START transition: " ++ ", ".intercalate targets
  | .undefinedSpace source target space =>
    s!"Transition {source} -> {target} references undefined space '{space}'"
  | .invalidCondition source target error =>
    s!"Transition {source} -> {target} has an invalid condition: " ++ error.message
  | .unreachableEnd start => s!"END is not reachable from start space '{start}'"
  | .unreachableSpace space start =>
    s!"Space '{space}' is not reachable from start space '{start}'"

/-- The causes of one failure, of which there is at least one. -/
structure CompileFailure where
  first : CompileError
  rest : List CompileError := []
deriving DecidableEq, Repr

namespace CompileFailure

def errors (f : CompileFailure) : List CompileError := f.first :: f.rest

/-- A single cause by its own text, several in a list below their number. -/
def message (f : CompileFailure) : String :=
  if f.rest.isEmpty then f.first.message
  else
    s!"{toString f.errors.length} compile errors:\n" ++
      "\n".intercalate (f.errors.map fun e => "  - " ++ e.message)

/-- Fails with all the causes found, if there are any. -/
def check : List CompileError → Except CompileFailure Unit
  | [] => .ok ()
  | first :: rest => .error ⟨first, rest⟩

theorem check_eq_ok_iff {errors : List CompileError} : check errors = .ok () ↔ errors = [] := by
  cases errors <;> simp [check]

end CompileFailure

/-- What a successful compilation advises of. -/
inductive CompileWarning where
  /-- A parameter that no parameter set of the space binds. -/
  | unboundDynamicParameter (space task parameter : String)
  /-- A space whose workflow has no tasks. -/
  | emptySpace (space : String)
  /-- A workflow that no space makes use of. -/
  | unusedWorkflow (workflow : String)
deriving DecidableEq, Repr

def CompileWarning.message : CompileWarning → String
  | .unboundDynamicParameter space task parameter =>
    s!"Space '{space}': task '{task}' parameter '{parameter}' is dynamic " ++
      "but the space does not define it"
  | .emptySpace space => s!"Space '{space}' has no tasks to execute"
  | .unusedWorkflow workflow => s!"Workflow '{workflow}' is not used by any space"

end Sweep
