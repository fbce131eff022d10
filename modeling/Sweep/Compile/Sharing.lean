import Sweep.Compile.ResolvedTask
import Sweep.Json.Printer

/-!
# Sharing equal tasks

Workflows that inherit the same task see equal tasks under different identities. Tasks of equal
content are collapsed onto one representative. Where the identity of a representative has been
claimed by other content, the representative is renamed after the space in which its content was
first discovered.
-/

namespace Sweep

namespace ResolvedTask

/-- The content of a task as a text: what a task does, without where it comes from. -/
def fingerprint (t : ResolvedTask) : String :=
  Json.compact <| .list
    [.text t.name, .text t.implementation, .ofStrings t.dynamicParameters,
     .record t.staticParameters.entries, .ofStrings t.inputs, .ofStrings t.outputs]

/-- Whether a string starts with another. -/
def startsWith (s start : String) : Bool := start.toList.isPrefixOf s.toList

/-- The order in which a representative is chosen: a workflow whose name starts another's name comes
before that, then the shorter name, then the lower depth, then the order of the names. -/
def representativeOrder (a b : ResolvedTask) : Ordering :=
  if a.workflow ≠ b.workflow ∧ startsWith b.workflow a.workflow then .lt
  else if a.workflow ≠ b.workflow ∧ startsWith a.workflow b.workflow then .gt
  else
    (compare a.workflow.utf8ByteSize b.workflow.utf8ByteSize).then <|
      (compare a.depth b.depth).then (compare a.workflow b.workflow)

/-- The first of the least tasks of a list that starts with `t`. -/
def least (t : ResolvedTask) (rest : List ResolvedTask) : ResolvedTask :=
  rest.foldl (fun best u => if u.representativeOrder best = .lt then u else best) t

end ResolvedTask

/-- The representatives of all contents, and the identity that each task is known by. -/
structure Sharing where
  /-- The representatives by their workflows, both in the order of discovery. -/
  groups : List (List ResolvedTask) := []
  /-- Space, identity in it, and the identity of the representative; the latest entry first. -/
  canonical : List ((String × String) × String) := []

namespace Sharing

/-- The identity that a space's task is known by. -/
def canonicalId? (s : Sharing) (space id : String) : Option String :=
  (s.canonical.find? fun entry => entry.1 == (space, id)).map (·.2)

/-- The number of representatives. -/
def taskCount (s : Sharing) : Nat := s.groups.flatten.length

def addToGroup (t : ResolvedTask) :
    List (String × List ResolvedTask) → List (String × List ResolvedTask)
  | [] => [(t.workflow, [t])]
  | (workflow, group) :: rest =>
    if workflow = t.workflow then (workflow, group ++ [t]) :: rest
    else (workflow, group) :: addToGroup t rest

/-- What has been shared so far: groups, claimed identities with the contents that claim them, and
the identities that tasks are known by. -/
structure Progress where
  groups : List (String × List ResolvedTask) := []
  claimed : List (String × String) := []
  canonical : List ((String × String) × String) := []

/-- Shares one content, of which `first` is the task discovered first. -/
def Progress.share (p : Progress) (first : ResolvedTask) (rest : List ResolvedTask) : Progress :=
  let content := first.fingerprint
  let representative := first.least rest
  let clash :=
    match p.claimed.find? fun entry => entry.1 == representative.id with
    | some (_, other) => other != content
    | none => false
  let representative :=
    if clash then { representative with id := representative.id ++ "@" ++ first.space }
    else representative
  { groups := addToGroup representative p.groups
    claimed := (representative.id, content) :: p.claimed
    canonical := (first :: rest).foldl
      (fun known t => ((t.space, t.id), representative.id) :: known) p.canonical }

/-- The tasks of equal content, gathered in the order in which the contents are discovered. -/
def gather (tasks : List ResolvedTask) : List (ResolvedTask × List ResolvedTask) :=
  let add (done : List (String × ResolvedTask × List ResolvedTask)) (t : ResolvedTask) :=
    let content := t.fingerprint
    if done.any fun entry => entry.1 == content then
      done.map fun (c, first, rest) =>
        if c == content then (c, first, rest ++ [t]) else (c, first, rest)
    else done ++ [(content, t, [])]
  (tasks.foldl add []).map (·.2)

/-- Shares the equal tasks among those of all spaces, given in the order of discovery. -/
def ofTasks (tasks : List ResolvedTask) : Sharing :=
  let progress :=
    (gather tasks).foldl (fun p (first, rest) => Progress.share p first rest) {}
  { groups := progress.groups.map (·.2), canonical := progress.canonical }

end Sharing

end Sweep
