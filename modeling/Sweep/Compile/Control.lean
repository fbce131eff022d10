import Sweep.Compile.Failure
import Sweep.Experiment.Basic
import Sweep.Table

/-!
# The graph of spaces

The transitions between spaces form a graph that is entered at one space and left at the sentinel
`END`. An experiment without transitions runs its spaces in the order of their declaration. In any
graph, `END` and every space have to be reachable.

The walk over a graph ends because every transition enters the queue at most once: it leaves the
list of transitions not yet followed when it does.
-/

namespace Sweep

/-- The space that is entered first, and the transitions that follow. -/
structure ControlGraph where
  start : String
  transitions : List Transition
deriving DecidableEq, Repr

namespace Transition

def isConditional (t : Transition) : Bool := t.condition.isSome

/-- A transition without white space around its names and its condition; a condition of white space
only is none. -/
def trimmed (t : Transition) : Transition :=
  { source := Text.trim t.source
    target := Text.trim t.target
    condition :=
      (t.condition.map Text.trim).filter fun c => !c.isEmpty }

end Transition

namespace ControlGraph

/-- The transitions from a space in their order. -/
def outgoing (g : ControlGraph) (space : String) : List Transition :=
  g.transitions.filter fun t => t.source == space

def leaving (node : String) (ts : List Transition) : List Transition :=
  ts.filter fun t => t.source == node

/-- The transitions of a list that do not leave a node. -/
def notLeaving (node : String) (ts : List Transition) : List Transition :=
  ts.filter fun t => !(t.source == node)

theorem length_leaving_add_length_notLeaving (node : String) (ts : List Transition) :
    (leaving node ts).length + (notLeaving node ts).length = ts.length := by
  induction ts with
  | nil => rfl
  | cons t rest ih =>
    simp only [leaving, notLeaving] at ih ⊢
    by_cases h : (t.source == node) = true <;> simp [h] <;> omega

/-- Visits the nodes of a queue and all nodes after them. -/
def visit (queue : List String) (unfollowed : List Transition) (seen : List String) :
    List String :=
  match queue with
  | [] => seen
  | node :: queue =>
    if seen.contains node then visit queue unfollowed seen
    else
      visit (queue ++ (leaving node unfollowed).map (·.target)) (notLeaving node unfollowed)
        (node :: seen)
termination_by queue.length + unfollowed.length
decreasing_by
  · simp only [List.length_cons]
    omega
  · have := length_leaving_add_length_notLeaving node unfollowed
    simp only [List.length_append, List.length_map, List.length_cons]
    omega

/-- All nodes that can be reached from the start, in increasing order. -/
def reachable (g : ControlGraph) : List String :=
  sortDistinct (visit [g.start] g.transitions [])

/-- The spaces one after the other, the last followed by the end. -/
def chainTransitions : List String → List Transition
  | [] => []
  | [last] => [⟨last, endMark, none⟩]
  | space :: next :: rest => ⟨space, next, none⟩ :: chainTransitions (next :: rest)

/-- The graph of an experiment without transitions. -/
def sequential (spaces : List String) : ControlGraph :=
  { start := spaces.headD "", transitions := chainTransitions spaces }

def transitionErrors (spaces : List String) (t : Transition) : List CompileError :=
  let undefined (space : String) : List CompileError :=
    if spaces.contains space then [] else [.undefinedSpace t.source t.target space]
  if t.source = startMark then undefined t.target
  else
    undefined t.source ++
    (if t.target = endMark then [] else undefined t.target) ++
    match t.condition with
    | none => []
    | some text =>
      match Condition.parse text with
      | .ok _ => []
      | .error e => [.invalidCondition t.source t.target e]

/-- The distinct members of a list in the order of their first occurrence. -/
def distinct [DecidableEq α] (xs : List α) : List α :=
  xs.foldl (fun done x => if x ∈ done then done else done ++ [x]) []

/-- The graph that an experiment's transitions describe. -/
def explicit (control : List Transition) (spaces : List String) :
    Except CompileFailure ControlGraph :=
  let trimmed := control.map Transition.trimmed
  let entries := trimmed.filter fun t => t.source == startMark
  let others := trimmed.filter fun t => !(t.source == startMark)
  let starts := distinct (entries.map (·.target))
  let errors := trimmed.flatMap (transitionErrors spaces)
  match starts with
  | [] => .error ⟨.missingStart, errors⟩
  | [start] => (CompileFailure.check errors).map fun _ => ⟨start, distinct others⟩
  | starts => .error ⟨.ambiguousStart starts, errors⟩

/-- What cannot be reached in a graph although it has to be. -/
def reachabilityErrors (g : ControlGraph) (spaces : List String) : List CompileError :=
  let reachable := g.reachable
  (if reachable.contains endMark then [] else [.unreachableEnd g.start]) ++
  (spaces.filter fun space => !reachable.contains space).map fun space =>
    .unreachableSpace space g.start

/-- The graph of some spaces, described by transitions or, if there are none, by their order. -/
def build (spaces : List String) (control : Option (List Transition)) :
    Except CompileFailure ControlGraph :=
  if spaces.isEmpty then .error ⟨.emptyExperiment, []⟩
  else do
    let g ←
      match control with
      | some (t :: rest) => explicit (t :: rest) spaces
      | _ => .ok (sequential spaces)
    CompileFailure.check (g.reachabilityErrors spaces)
    return g

end ControlGraph

end Sweep
