import Sweep.Compile.Failure
import Sweep.Table
import Sweep.Workflow.Basic

/-!
# Workflows with their ancestors merged in

A workflow is resolved by walking from it up to a workflow without parent, or to one that has been
resolved before, and merging down again: ancestors' tasks come first, a descendant may configure
them but not declare them again, data slots merge by name, and a workflow without chain has its
nearest ancestor's. The walk ends because every step takes one workflow out of those not yet
visited.
-/

namespace Sweep

/-- A workflow together with all it inherits. -/
structure ResolvedWorkflow where
  name : String
  parent : Option String
  /-- The number of ancestors. -/
  depth : Nat
  /-- The workflow and its ancestors, the root first. -/
  lineage : List String
  tasks : List Task
  data : List DataSlot
  chain : Option Chain
deriving DecidableEq, Repr

namespace ResolvedWorkflow

/-- The first task of a given name. -/
def task? (w : ResolvedWorkflow) (name : String) : Option Task :=
  w.tasks.find? fun t => t.name == name

/-- The names of the tasks in the order of the chain, or of declaration if there is none. -/
def order (w : ResolvedWorkflow) : List String :=
  match w.chain with
  | some chain => chain.order
  | none => w.tasks.map (·.name)

def dataNames (w : ResolvedWorkflow) : List String := w.data.map (·.name)

end ResolvedWorkflow

namespace Workflow

/-- Adds the tasks that a workflow declares to those it inherits. -/
def declareTasks (w : Workflow) (inherited : List Task) :
    List Task → List Task → Except CompileError (List Task)
  | declared, [] => .ok (inherited ++ declared)
  | declared, t :: rest =>
    match inherited.find? fun u => u.name == t.name with
    | some u => .error (.illegalOverride w.name t.name u.workflow)
    | none =>
      if declared.any fun u => u.name == t.name then .error (.duplicateTask w.name t.name)
      else declareTasks w inherited (declared ++ [w.own t]) rest

/-- Applies a configuration to the first task that it names, if there is one. -/
def configureTask? (c : Configuration) : List Task → Option (List Task)
  | [] => none
  | t :: rest =>
    if t.name = c.task then some (t.apply c :: rest)
    else (configureTask? c rest).map (t :: ·)

/-- Applies the configurations of a workflow in order. -/
def configureTasks (w : Workflow) : List Configuration → List Task →
    Except CompileError (List Task)
  | [], tasks => .ok tasks
  | c :: rest, tasks =>
    match configureTask? c tasks with
    | some tasks => configureTasks w rest tasks
    | none => .error (.undefinedTask s!"Workflow '{w.name}' configuration" c.task)

/-- Replaces the first data slot of the same name, or adds the slot at the end. -/
def mergeSlot : List DataSlot → DataSlot → List DataSlot
  | [], slot => [slot]
  | s :: rest, slot => if s.name = slot.name then slot :: rest else s :: mergeSlot rest slot

/-- Checks that a chain is framed by the sentinels and names only tasks that there are. -/
def checkChain (w : Workflow) (tasks : List Task) : Option Chain → Except CompileError Unit
  | none => .ok ()
  | some chain =>
    if !chain.isWellFormed then .error (.malformedChain w.name)
    else
      match chain.order.find? fun name => !tasks.any fun t => t.name == name with
      | some name => .error (.undefinedTask s!"Workflow '{w.name}' task chain" name)
      | none => .ok ()

/-- Merges a workflow over its resolved parent. -/
def merge (w : Workflow) (base : Option ResolvedWorkflow) :
    Except CompileError ResolvedWorkflow := do
  let inherited := (base.map (·.tasks)).getD []
  let tasks ← w.declareTasks inherited [] w.tasks
  let tasks ← w.configureTasks w.configurations tasks
  let data := w.data.foldl mergeSlot ((base.map (·.data)).getD [])
  let chain := w.chain.orElse fun _ => base.bind (·.chain)
  w.checkChain tasks chain
  return {
    name := w.name
    parent := w.parent
    depth := (base.map (·.depth + 1)).getD 0
    lineage := (base.map (·.lineage)).getD [] ++ [w.name]
    tasks, data, chain }

end Workflow

theorem Table.size_erase_lt {t : Table α} {key : String} {value : α}
    (h : t.get? key = some value) : (t.erase key).size < t.size := by
  obtain ⟨entry, found, -⟩ := Option.map_eq_some_iff.1 h
  have mem := List.mem_of_find?_eq_some found
  have same := List.find?_some found
  simp only [Table.erase, Table.size]
  exact List.length_filter_lt_length_iff_exists.2 ⟨entry, mem, by simpa using same⟩

/-- The known workflows, and those among them that have been resolved so far. -/
structure Lineages where
  models : Table Workflow
  resolved : Table ResolvedWorkflow := ∅

namespace Lineages

/-- Nothing is resolved at first. Of several workflows of one name the last is known. -/
def ofWorkflows (workflows : List Workflow) : Lineages :=
  { models := .ofList (workflows.map fun w => (w.name, w)) }

def names (l : Lineages) : List String := l.models.keys

def contains (l : Lineages) (name : String) : Bool := l.models.contains name

/-- The walk from a workflow upwards: the resolved ancestor at which it ends, if any, and the
workflows below that, the uppermost first. `path` lists the workflows visited before. -/
def ancestry (resolved : Table ResolvedWorkflow) (unvisited : Table Workflow)
    (path : List String) (name : String) :
    Except CompileError (Option ResolvedWorkflow × List Workflow) :=
  match resolved.get? name with
  | some base => .ok (some base, [])
  | none =>
    if path.contains name then .error (.circularInheritance (path ++ [name]))
    else
      match _h : unvisited.get? name with
      | none => .error (.undefinedParent (path.getLast?.getD "") name)
      | some w =>
        match w.parent with
        | none => .ok (none, [w])
        | some parent =>
          match ancestry resolved (unvisited.erase name) (path ++ [name]) parent with
          | .error e => .error e
          | .ok (base, below) => .ok (base, below ++ [w])
termination_by unvisited.size
decreasing_by exact Table.size_erase_lt _h

/-- Merges workflows downwards and keeps each result, up to the first that cannot be merged. -/
def descend (l : Lineages) : Option ResolvedWorkflow → List Workflow →
    Except CompileError (Option ResolvedWorkflow) × Lineages
  | base, [] => (.ok base, l)
  | base, w :: below =>
    match w.merge base with
    | .error e => (.error e, l)
    | .ok merged =>
      descend { l with resolved := l.resolved.insert w.name merged } (some merged) below

/-- Resolves one workflow and all its ancestors. -/
def resolve (l : Lineages) (name : String) :
    Except CompileError ResolvedWorkflow × Lineages :=
  match ancestry l.resolved l.models [] name with
  | .error e => (.error e, l)
  | .ok (base, below) =>
    match l.descend base below with
    | (.ok (some w), l) => (.ok w, l)
    | (.ok none, l) => (.error (.undefinedParent "" name), l)
    | (.error e, l) => (.error e, l)

/-- Resolves workflows in turn; the errors found, each once, come first in the result. -/
def resolveEach : List String → List CompileError → Lineages → List CompileError × Lineages
  | [], errors, l => (errors, l)
  | name :: rest, errors, l =>
    match l.resolve name with
    | (.ok _, l) => resolveEach rest errors l
    | (.error e, l) =>
      resolveEach rest (if errors.contains e then errors else errors ++ [e]) l

/-- Resolves all known workflows. -/
def resolveAll (l : Lineages) : Except CompileFailure (Table ResolvedWorkflow) × Lineages :=
  let (errors, l) := resolveEach l.names [] l
  (CompileFailure.check errors |>.map fun _ => l.resolved, l)

end Lineages

end Sweep
