import Sweep.Command.Basic
import Sweep.Condition.Basic
import Sweep.Repository.Basic
import Sweep.Run.Answers

/-!
# Failures of runs

Why a run stops before its end. A run that was terminated can be resumed and does not count as
failed; after every other failure its record keeps the text of the failure.
-/

namespace Sweep

/-- Why a run stops. -/
inductive RunError where
  | taskFailed (space : String) (index : Nat) (task : String) (cause : TaskError)
  | noTransition (space : String)
  | invalidCondition (space condition : String) (cause : ConditionError)
  | unknownTask (space task : String)
  | unknownSpace (space : String)
  | missingParameter (space : String) (index : Nat) (task parameter : String)
  | missingInput (space : String) (index : Nat) (task input : String)
  | artifactMismatch (runId expected actual : String)
  | terminated (runId : String)
  | runNotFound (runId : String)
  | noAnswer (fault : AnswerFault)
  | repository (cause : RepositoryError)
deriving DecidableEq, Repr

def AnswerFault.message : AnswerFault → String
  | .noneLeft prompt => s!"Failed to read user input: no scripted answer for '{prompt}'"
  | .closed => "Failed to read user input: stdin closed"
  | .notText => "I/O error: " ++ FileFault.notText.message

namespace RunError

def message : RunError → String
  | .taskFailed space index task cause =>
    s!"Task '{task}' failed in space '{space}', parameter set {toString index}: " ++ cause.message
  | .noTransition space => s!"No transition condition evaluated to true from space '{space}'"
  | .invalidCondition space condition cause =>
    s!"Transition condition '{condition}' from space '{space}' is invalid: " ++ cause.message
  | .unknownTask space task => s!"Artifact references unknown task '{task}' in space '{space}'"
  | .unknownSpace space => s!"Artifact references unknown space '{space}'"
  | .missingParameter space index task parameter =>
    s!"Task '{task}' needs parameter '{parameter}' but parameter set {toString index} " ++
      s!"of space '{space}' does not provide it"
  | .missingInput space index task input =>
    s!"Task '{task}' needs input '{input}' but no value is recorded for it " ++
      s!"(space '{space}', parameter set {toString index})"
  | .artifactMismatch runId expected actual =>
    s!"Run '{runId}' was created from artifact {expected} but the current artifact hashes to " ++
      actual
  | .terminated runId => s!"Run '{runId}' was terminated"
  | .runNotFound runId => s!"Run not found: {runId}"
  | .noAnswer fault => fault.message
  | .repository cause => cause.message

/-- Whether a run was stopped on request. -/
def isTermination : RunError → Bool
  | .terminated _ => true
  | _ => false

end RunError

end Sweep
