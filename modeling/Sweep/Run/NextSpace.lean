import Sweep.Run.Session

/-!
# The way from space to space

After a space its transitions are looked at in the order in which they are declared. The first one
without a condition is taken, or the first one whose condition holds; a condition with a
placeholder asks for a new answer each time it is looked at. A space without transitions leads to
the end.
-/

namespace Sweep.Conduct

variable {S : Type} (c : Conduct S)

def promptFor (space name : String) (condition : Condition) (target : String) : String :=
  s!"[{space}] Value for '{name}' (go to {target} if {condition.source}):"

/-- The answer that a condition is evaluated on, if it needs one. -/
def answerFor (space : String) (condition : Condition) (target : String) :
    Activity S (Option String) := do
  match condition.placeholder with
  | none => return none
  | some name =>
    let prompt := promptFor space name condition target
    c.emit (.inputRequired c.runId space prompt)
    return some (← c.ask prompt)

/-- Whether a condition of a transition holds. -/
def holds (space text target : String) : Activity S Bool := do
  match Condition.parse text with
  | .error e => throw (.invalidCondition space text e)
  | .ok condition =>
    let answer ← c.answerFor space condition target
    match condition.evaluate answer with
    | .error e => throw (.invalidCondition space text e)
    | .ok verdict => return verdict

/-- The target of the first transition that can be taken. -/
def choose (space : String) : List Transition → Activity S String
  | [] => throw (.noTransition space)
  | t :: rest =>
    match t.condition with
    | none => return t.target
    | some text => do
      if ← c.holds space text t.target then return t.target
      else choose space rest

/-- The space that follows a space, or the end. -/
def next (space : String) : Activity S String :=
  match c.artifact.control.outgoing space with
  | [] => return endMark
  | transitions => c.choose space transitions

end Sweep.Conduct
