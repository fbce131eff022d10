import Mathlib.Data.List.Forall2
import Mathlib.Data.List.Induction
import Mathlib.Data.List.Nodup
import Sweep.Compile.Lineage
import Sweep.Compile.ResolvedTask
import Sweep.Proofs.Lists

/-!
# What is merged

A workflow that is merged over its parent has the parent's tasks, followed by those that it
declares, each with the workflow's configurations of it applied in order. Configurations change
neither the name nor the owner of a task, so names that differ still differ, and a configuration
that is applied to the first task of a name is applied to every task of that name. The data slots
are the parent's, some of them replaced, followed by new ones. The chain is the workflow's own, or
else the parent's, and was checked against the tasks.

So what a line of workflows comes to, merged from the root down, shows where everything stems from:
each task is declared by one workflow of the line and configured by that one and by all below it.
-/

namespace Sweep

/-! ## Configurations of a task -/

namespace Task

/-- A task with those of some configurations applied, in order, that are about it. -/
def configuredBy (configurations : List Configuration) (t : Task) : Task :=
  (configurations.filter fun c => c.task == t.name).foldl apply t

variable (t : Task)

@[simp] theorem apply_name (c : Configuration) : (t.apply c).name = t.name := rfl

@[simp] theorem apply_workflow (c : Configuration) : (t.apply c).workflow = t.workflow := rfl

theorem foldl_apply_name (configurations : List Configuration) :
    (configurations.foldl apply t).name = t.name := by
  induction configurations generalizing t with
  | nil => rfl
  | cons c rest ih => exact ih (t.apply c)

@[simp] theorem configuredBy_name (configurations : List Configuration) :
    (t.configuredBy configurations).name = t.name :=
  t.foldl_apply_name _

@[simp] theorem configuredBy_workflow (configurations : List Configuration) :
    (t.configuredBy configurations).workflow = t.workflow := by
  rw [configuredBy]
  generalize configurations.filter _ = about
  induction about generalizing t with
  | nil => rfl
  | cons c rest ih => exact ih (t.apply c)

@[simp] theorem configuredBy_nil : t.configuredBy [] = t := rfl

theorem configuredBy_cons (c : Configuration) (rest : List Configuration) :
    t.configuredBy (c :: rest) =
      (if c.task = t.name then t.apply c else t).configuredBy rest := by
  rw [configuredBy, List.filter_cons]
  by_cases about : c.task = t.name
  · simp [about, configuredBy]
  · simp [about, configuredBy]

/-- Configurations are applied one after the other. -/
theorem configuredBy_append (first second : List Configuration) :
    t.configuredBy (first ++ second) = (t.configuredBy first).configuredBy second := by
  rw [configuredBy, configuredBy, configuredBy_name, List.filter_append, List.foldl_append]
  rfl

/-- Configurations of other tasks change nothing. -/
theorem configuredBy_eq_self {configurations : List Configuration}
    (other : ∀ c ∈ configurations, c.task ≠ t.name) : t.configuredBy configurations = t := by
  have none : configurations.filter (fun c => c.task == t.name) = [] :=
    List.filter_eq_nil_iff.2 fun c mem => by simpa using other c mem
  rw [configuredBy, none]
  rfl

end Task

/-- The names of tasks are those of the tasks before they were configured. -/
theorem map_name_configuredBy (configurations : List Configuration) (tasks : List Task) :
    (tasks.map (Task.configuredBy configurations)).map (·.name) = tasks.map (·.name) := by
  rw [List.map_map]
  exact List.map_congr_left fun t _ => t.configuredBy_name configurations

namespace Workflow

variable {w : Workflow}

@[simp] theorem own_name (w : Workflow) (t : Task) : (w.own t).name = t.name := rfl

theorem own_workflow (w : Workflow) (t : Task) : (w.own t).workflow = w.name := rfl

/-! ## Tasks -/

/-- What is declared is added at the end, under names that are new. -/
theorem of_declareTasks {inherited declared rest tasks : List Task}
    (distinct : ((inherited ++ declared).map (·.name)).Nodup)
    (done : w.declareTasks inherited declared rest = .ok tasks) :
    tasks = inherited ++ (declared ++ rest.map w.own) ∧ (tasks.map (·.name)).Nodup := by
  induction rest generalizing declared with
  | nil =>
    cases done
    exact ⟨by simp, distinct⟩
  | cons t rest ih =>
    rw [declareTasks] at done
    split at done
    · cases done
    · next notInherited =>
      split at done
      · cases done
      · next notDeclared =>
        have new : t.name ∉ (inherited ++ declared).map (·.name) := by
          simp only [List.map_append, List.mem_append, List.mem_map, not_or]
          constructor
          · rintro ⟨u, mem, same⟩
            simpa [same] using List.find?_eq_none.1 notInherited u mem
          · rintro ⟨u, mem, same⟩
            exact notDeclared (List.any_eq_true.2 ⟨u, mem, by simp [same]⟩)
        have distinct' : ((inherited ++ (declared ++ [w.own t])).map (·.name)).Nodup := by
          rw [← List.append_assoc, List.map_append]
          exact distinct.append (List.nodup_singleton _)
            (List.disjoint_singleton.2 (by simpa using new))
        obtain ⟨rfl, nodup⟩ := ih distinct' done
        exact ⟨by simp, nodup⟩

/-- Among tasks of different names, the first that a configuration names is the only one. -/
theorem of_configureTask? {c : Configuration} {tasks configured : List Task}
    (distinct : (tasks.map (·.name)).Nodup) (done : configureTask? c tasks = some configured) :
    configured = tasks.map (Task.configuredBy [c]) := by
  induction tasks generalizing configured with
  | nil => cases done
  | cons t rest ih =>
    obtain ⟨new, distinct⟩ := List.nodup_cons.1 distinct
    rw [configureTask?] at done
    split at done
    · next about =>
      cases done
      have others : ∀ u ∈ rest, u.configuredBy [c] = u := by
        intro u mem
        refine u.configuredBy_eq_self fun d among => ?_
        obtain rfl := List.mem_singleton.1 among
        exact fun same => new (List.mem_map.2 ⟨u, mem, (about.trans same).symm⟩)
      rw [List.map_cons, Task.configuredBy_cons, if_pos about.symm, Task.configuredBy_nil,
        List.map_congr_left others, List.map_id'']
      exact fun _ => rfl
    · next other =>
      obtain ⟨rest', later, rfl⟩ := Option.map_eq_some_iff.1 done
      rw [ih distinct later, List.map_cons, t.configuredBy_eq_self]
      intro d mem
      obtain rfl := List.mem_singleton.1 mem
      exact Ne.symm other

theorem of_configureTasks {configurations : List Configuration} {tasks configured : List Task}
    (distinct : (tasks.map (·.name)).Nodup)
    (done : w.configureTasks configurations tasks = .ok configured) :
    configured = tasks.map (Task.configuredBy configurations) := by
  induction configurations generalizing tasks with
  | nil =>
    cases done
    exact (List.map_id'' (fun t => t.configuredBy_nil) _).symm
  | cons c rest ih =>
    rw [configureTasks] at done
    split at done
    · next tasks' first =>
      obtain rfl := of_configureTask? distinct first
      rw [ih (by rwa [map_name_configuredBy]) done, List.map_map]
      exact List.map_congr_left fun t _ => (t.configuredBy_append [c] rest).symm
    · cases done

/-! ## Data slots -/

/-- A slot replaces one of its name or is added at the end. -/
theorem map_name_mergeSlot (data : List DataSlot) (slot : DataSlot) :
    (mergeSlot data slot).map (·.name) =
      if slot.name ∈ data.map (·.name) then data.map (·.name)
      else data.map (·.name) ++ [slot.name] := by
  induction data with
  | nil => rfl
  | cons s rest ih =>
    rw [mergeSlot]
    by_cases same : s.name = slot.name
    · simp [same]
    · rw [if_neg same, List.map_cons, ih, List.map_cons]
      by_cases later : slot.name ∈ rest.map (·.name)
      · rw [if_pos later, if_pos (List.mem_cons_of_mem _ later)]
      · rw [if_neg later, if_neg (by simp [Ne.symm same, later]), List.cons_append]

/-- Slots that are merged leave the names before them in place, and all names different. -/
theorem foldl_mergeSlot (slots : List DataSlot) {data : List DataSlot}
    (distinct : (data.map (·.name)).Nodup) :
    data.map (·.name) <+: (slots.foldl mergeSlot data).map (·.name) ∧
      ((slots.foldl mergeSlot data).map (·.name)).Nodup := by
  induction slots generalizing data with
  | nil => exact ⟨List.prefix_rfl, distinct⟩
  | cons slot rest ih =>
    have names := map_name_mergeSlot data slot
    split at names
    · obtain ⟨kept, nodup⟩ := ih (names ▸ distinct)
      exact ⟨names ▸ kept, nodup⟩
    · next new =>
      have distinct' : ((mergeSlot data slot).map (·.name)).Nodup := by
        rw [names]
        exact distinct.append (List.nodup_singleton _) (List.disjoint_singleton.2 new)
      obtain ⟨kept, nodup⟩ := ih distinct'
      exact ⟨(names ▸ List.prefix_append _ _ : _ <+: _).trans kept, nodup⟩

end Workflow

/-! ## Chains -/

namespace Chain

/-- A chain that frames tasks of a list: between the sentinels stand names of tasks only. -/
structure Frames (c : Chain) (tasks : List Task) : Prop where
  framed : c.elements = startMark :: c.order ++ [endMark]
  inner : ∀ name ∈ c.order, name ≠ startMark ∧ name ≠ endMark
  named : ∀ name ∈ c.order, ∃ t ∈ tasks, t.name = name

theorem isSentinel_eq_false {element : String} :
    isSentinel element = false ↔ element ≠ startMark ∧ element ≠ endMark := by
  simp [isSentinel]

theorem mem_order {c : Chain} {name : String} :
    name ∈ c.order ↔ name ∈ c.elements ∧ name ≠ startMark ∧ name ≠ endMark := by
  rw [order, List.mem_filter, Bool.not_eq_true', isSentinel_eq_false]

/-- A well-formed chain consists of its order between the sentinels. -/
theorem framed_of_isWellFormed {c : Chain} (wellFormed : c.isWellFormed = true) :
    c.elements = startMark :: c.order ++ [endMark] := by
  obtain ⟨elements⟩ := c
  simp only [isWellFormed, Bool.and_eq_true, decide_eq_true_eq, beq_iff_eq, List.all_eq_true,
    Bool.not_eq_true'] at wellFormed
  obtain ⟨⟨⟨long, first⟩, last⟩, inner⟩ := wellFormed
  match elements with
  | head :: rest =>
    cases first
    have some : rest ≠ [] := by
      rintro rfl
      simp at long
    rw [List.getLast?_cons_of_ne_nil some] at last
    have ends : rest.dropLast ++ [endMark] = rest := List.dropLast_append_getLast? endMark last
    have tasks : order ⟨startMark :: rest⟩ = rest.dropLast := by
      have marks : isSentinel startMark = true ∧ isSentinel endMark = true := by decide
      have kept : rest.dropLast.filter (fun e => !isSentinel e) = rest.dropLast :=
        List.filter_eq_self.2 fun e mem => by simpa using inner e mem
      rw [order, ← ends]
      simp [marks.1, marks.2, kept]
    rw [tasks, List.cons_append, ends]

end Chain

namespace Workflow

variable {w : Workflow}

theorem frames_of_checkChain {tasks : List Task} {chain : Option Chain}
    (checked : w.checkChain tasks chain = .ok ()) : ∀ c ∈ chain, c.Frames tasks := by
  rintro c rfl
  rw [checkChain] at checked
  split at checked
  · cases checked
  · next wellFormed =>
    split at checked
    · cases checked
    · next named =>
      refine ⟨Chain.framed_of_isWellFormed (by simpa using wellFormed),
        fun name mem => (Chain.mem_order.1 mem).2, fun name mem => ?_⟩
      simpa using List.find?_eq_none.1 named name mem

/-! ## Workflows -/

def Declares (w : Workflow) (name : String) : Prop := ∃ t ∈ w.tasks, t.name = name

def inherited (base : Option ResolvedWorkflow) : List Task := (base.map (·.tasks)).getD []

def inheritedData (base : Option ResolvedWorkflow) : List DataSlot := (base.map (·.data)).getD []

/-- A workflow as it is merged over its parent, if there is one. -/
structure Merges (w : Workflow) (base : Option ResolvedWorkflow) (r : ResolvedWorkflow) :
    Prop where
  name : r.name = w.name
  parent : r.parent = w.parent
  depth : r.depth = (base.map (·.depth + 1)).getD 0
  lineage : r.lineage = (base.map (·.lineage)).getD [] ++ [w.name]
  tasks : r.tasks = (inherited base ++ w.tasks.map w.own).map (Task.configuredBy w.configurations)
  distinct : (r.tasks.map (·.name)).Nodup
  data : r.data = w.data.foldl mergeSlot (inheritedData base)
  chain : r.chain = w.chain.or (base.bind (·.chain))
  framed : ∀ c ∈ r.chain, c.Frames r.tasks

theorem merges_of_merge {base : Option ResolvedWorkflow} {r : ResolvedWorkflow}
    (distinct : ((inherited base).map (·.name)).Nodup) (merged : w.merge base = .ok r) :
    w.Merges base r := by
  obtain ⟨declared, first, merged⟩ := exists_of_bind_ok merged
  obtain ⟨tasks, second, merged⟩ := exists_of_bind_ok merged
  obtain ⟨_, checked, merged⟩ := exists_of_bind_ok merged
  rw [← List.append_nil (inherited base)] at distinct
  obtain ⟨rfl, nodup⟩ := of_declareTasks distinct first
  obtain rfl := of_configureTasks nodup second
  have chain : (w.chain.orElse fun _ => base.bind (·.chain)) =
      w.chain.or (base.bind (·.chain)) := by
    cases w.chain <;> rfl
  rw [chain] at checked merged
  cases merged
  exact ⟨rfl, rfl, rfl, rfl, rfl, by rwa [map_name_configuredBy], rfl, rfl,
    frames_of_checkChain checked⟩

end Workflow

/-! ## The tasks of a space

A space configures the tasks of its workflow as a workflow configures those that it inherits. If
the space is accepted, it has exactly one task for each name in the order of its workflow, provided
that the workflow has tasks of these names.
-/

namespace ResolvedWorkflow

variable {r : ResolvedWorkflow} {name : String} {t : Task}

theorem of_task? (found : r.task? name = some t) : t ∈ r.tasks ∧ t.name = name :=
  ⟨List.mem_of_find?_eq_some found,
    beq_iff_eq.1 (List.find?_some (p := fun u : Task => u.name == name) found)⟩

/-- The order names only tasks of the workflow. -/
theorem declares_order (framed : ∀ c ∈ r.chain, c.Frames r.tasks) (mem : name ∈ r.order) :
    ∃ t ∈ r.tasks, t.name = name := by
  rw [order] at mem
  split at mem
  · next chain same => exact (framed chain same).named name mem
  · exact List.mem_map.1 mem

theorem exists_task? (declared : ∃ t ∈ r.tasks, t.name = name) : ∃ t, r.task? name = some t := by
  obtain ⟨t, mem, rfl⟩ := declared
  rw [← Option.isSome_iff_exists, task?, List.find?_isSome]
  exact ⟨t, mem, beq_self_eq_true _⟩

end ResolvedWorkflow

namespace Space

variable {s : Space} {r : ResolvedWorkflow} {tasks : List ResolvedTask}
  {warnings : List CompileWarning}

/-- What a space that is accepted makes of its workflow. -/
theorem of_resolveTasks (accepted : s.resolveTasks r = .ok (tasks, warnings)) :
    tasks = (orderedTasks r).map (s.resolveTask r) ∧
      s.configurationErrors r ++ s.implementationErrors r = [] := by
  obtain ⟨_, checked, accepted⟩ := exists_of_bind_ok accepted
  cases accepted
  exact ⟨rfl, CompileFailure.check_eq_ok_iff.1 checked⟩

/-- No task of a space that is accepted is without implementation. -/
theorem exists_implementation (accepted : s.resolveTasks r = .ok (tasks, warnings)) {t : Task}
    (mem : t ∈ orderedTasks r) : (s.configure t).implementation.isSome := by
  obtain ⟨-, none⟩ := List.append_eq_nil_iff.1 (of_resolveTasks accepted).2
  rw [implementationErrors, List.map_eq_nil_iff, List.filter_eq_nil_iff] at none
  have concrete := none t mem
  rw [Task.isAbstract] at concrete
  split at concrete
  · next path => simp [path]
  · exact absurd rfl concrete

/-- There is one task for each name, in order. -/
theorem forall₂_resolveTasks (accepted : s.resolveTasks r = .ok (tasks, warnings))
    (named : ∀ name ∈ r.order, ∃ t ∈ r.tasks, t.name = name) :
    List.Forall₂ (fun name t => ∃ u, r.task? name = some u ∧ t = s.resolveTask r u) r.order
      tasks := by
  rw [(of_resolveTasks accepted).1, orderedTasks]
  generalize r.order = order at named
  induction order with
  | nil => exact .nil
  | cons name order ih =>
    obtain ⟨u, found⟩ := r.exists_task? (named name List.mem_cons_self)
    rw [List.filterMap_cons, found]
    exact .cons ⟨u, found, rfl⟩ (ih fun other mem => named other (List.mem_cons_of_mem _ mem))

end Space

/-! ## Merging down a line -/

namespace Workflow

/-- Merges workflows over a base, the uppermost first, up to the first that cannot be merged. -/
def mergeAll (base : Option ResolvedWorkflow) (line : List Workflow) :
    Except CompileError (Option ResolvedWorkflow) :=
  line.foldlM (fun base w => (w.merge base).map some) base

theorem mergeAll_cons (base : Option ResolvedWorkflow) (w : Workflow) (line : List Workflow) :
    mergeAll base (w :: line) = (w.merge base).map some >>= fun base => mergeAll base line :=
  List.foldlM_cons

theorem mergeAll_append (base : Option ResolvedWorkflow) (upper lower : List Workflow) :
    mergeAll base (upper ++ lower) = mergeAll base upper >>= fun base => mergeAll base lower :=
  List.foldlM_append

/-- What a line of workflows has been merged to. -/
inductive MergesAll : List Workflow → ResolvedWorkflow → Prop
  | root {w : Workflow} {r : ResolvedWorkflow} : w.Merges none r → MergesAll [w] r
  | child {line : List Workflow} {base r : ResolvedWorkflow} {w : Workflow} :
      MergesAll line base → w.Merges (some base) r → MergesAll (line ++ [w]) r

namespace MergesAll

variable {line : List Workflow} {r : ResolvedWorkflow}

theorem distinct (h : MergesAll line r) : (r.tasks.map (·.name)).Nodup := by
  cases h with
  | root merged | child _ merged => exact merged.distinct

end MergesAll

/-- The last of a line is merged over what the line above it comes to. -/
theorem mergeAll_concat {line : List Workflow} {w : Workflow} {found : Option ResolvedWorkflow}
    (merged : mergeAll none (line ++ [w]) = .ok found) :
    ∃ base r, mergeAll none line = .ok base ∧ w.merge base = .ok r ∧ found = some r := by
  rw [mergeAll_append] at merged
  obtain ⟨base, above, last⟩ := exists_of_bind_ok merged
  obtain ⟨_, here, done⟩ := exists_of_bind_ok (mergeAll_cons base w [] ▸ last)
  cases done
  obtain ⟨r, made, rfl⟩ := exists_of_map_ok here
  exact ⟨base, r, above, made, rfl⟩

/-- A line is merged to nothing only if it is empty. -/
theorem mergesAll_of_mergeAll {line : List Workflow} {found : Option ResolvedWorkflow}
    (merged : mergeAll none line = .ok found) :
    (line = [] ∧ found = none) ∨ ∃ r, found = some r ∧ MergesAll line r := by
  induction line using List.reverseRecOn generalizing found with
  | nil =>
    cases merged
    exact .inl ⟨rfl, rfl⟩
  | append_singleton line w ih =>
    obtain ⟨base, r, above, made, rfl⟩ := mergeAll_concat merged
    refine .inr ⟨r, rfl, ?_⟩
    rcases ih above with ⟨rfl, rfl⟩ | ⟨b, rfl, upper⟩
    · exact .root (merges_of_merge List.nodup_nil made)
    · exact .child upper (merges_of_merge upper.distinct made)

theorem mergesAll_of_some {line : List Workflow} {r : ResolvedWorkflow}
    (merged : mergeAll none line = .ok (some r)) : MergesAll line r := by
  rcases mergesAll_of_mergeAll merged with ⟨-, absurd⟩ | ⟨_, same, made⟩
  · cases absurd
  · cases same
    exact made

def configurationsFrom (w : Workflow) (below : List Workflow) : List Configuration :=
  (w :: below).flatMap (·.configurations)

theorem configurationsFrom_concat (w : Workflow) (below : List Workflow) (v : Workflow) :
    configurationsFrom w (below ++ [v]) = configurationsFrom w below ++ v.configurations := by
  simp [configurationsFrom]

namespace MergesAll

variable {line : List Workflow} {r : ResolvedWorkflow}

/-- The last of a line is the workflow that it is merged to. -/
theorem exists_last (h : MergesAll line r) :
    ∃ w, line.getLast? = some w ∧ r.name = w.name ∧ r.parent = w.parent := by
  cases h with
  | @root w _ merged => exact ⟨w, rfl, merged.name, merged.parent⟩
  | @child _ _ _ w _ merged =>
    exact ⟨w, List.getLast?_concat, merged.name, merged.parent⟩

theorem lineage_eq (h : MergesAll line r) : r.lineage = line.map (·.name) := by
  induction h with
  | root merged => exact merged.lineage
  | child _ merged ih =>
    rw [merged.lineage, List.map_append]
    exact congrArg (· ++ _) ih

theorem length_eq (h : MergesAll line r) : line.length = r.depth + 1 := by
  induction h with
  | root merged =>
    rw [merged.depth]
    rfl
  | child _ merged ih =>
    rw [merged.depth, List.length_append, ih]
    rfl

/-! ### Tasks -/

/-- Every task is declared by a workflow of the line and configured by that and all below. -/
theorem mem_tasks_iff (h : MergesAll line r) {t : Task} :
    t ∈ r.tasks ↔ ∃ above w below u, line = above ++ w :: below ∧ u ∈ w.tasks ∧
      t = (w.own u).configuredBy (configurationsFrom w below) := by
  induction h generalizing t with
  | @root w r merged =>
    rw [merged.tasks]
    constructor
    · intro mem
      obtain ⟨_, among, rfl⟩ := List.mem_map.1 mem
      obtain ⟨u, declared, rfl⟩ := List.mem_map.1 among
      exact ⟨[], w, [], u, rfl, declared, by simp [configurationsFrom]⟩
    · rintro ⟨above, v, below, u, split, declared, rfl⟩
      obtain ⟨rfl, rfl, rfl⟩ : above = [] ∧ v = w ∧ below = [] := by
        cases above <;> simp_all
      exact List.mem_map.2 ⟨v.own u, List.mem_map_of_mem declared, by simp [configurationsFrom]⟩
  | @child line base r w upper merged ih =>
    rw [merged.tasks]
    simp only [List.mem_map, List.mem_append]
    constructor
    · rintro ⟨_, inherited | ⟨u, declared, rfl⟩, rfl⟩
      · obtain ⟨above, v, below, u, rfl, declared, rfl⟩ := ih.1 inherited
        refine ⟨above, v, below ++ [w], u, by simp, declared, ?_⟩
        rw [configurationsFrom_concat, Task.configuredBy_append]
      · exact ⟨line, w, [], u, rfl, declared, by simp [configurationsFrom]⟩
    · rintro ⟨above, v, below, u, split, declared, rfl⟩
      rcases split_concat split with ⟨rfl, rfl, -⟩ | ⟨below, rfl, rfl⟩
      · exact ⟨w.own u, .inr ⟨u, declared, rfl⟩, by simp [configurationsFrom]⟩
      · refine ⟨_, .inl (ih.2 ⟨above, v, below, u, rfl, declared, rfl⟩), ?_⟩
        rw [configurationsFrom_concat, Task.configuredBy_append]

/-- Among the workflows of a line, which have different names, the owner of a task is the only one
that declares it. -/
theorem exists_owner (h : MergesAll line r) (names : (line.map (·.name)).Nodup) {t : Task}
    (mem : t ∈ r.tasks) : ∃ w ∈ line, t.workflow = w.name ∧ w.Declares t.name ∧
      ∀ v ∈ line, v.Declares t.name → v = w := by
  obtain ⟨above, w, below, u, rfl, declared, rfl⟩ := h.mem_tasks_iff.1 mem
  refine ⟨w, by simp, ?_, ⟨u, declared, by simp⟩, ?_⟩
  · rw [Task.configuredBy_workflow, own_workflow]
  rintro v among ⟨u', declared', same⟩
  obtain ⟨above', below', split⟩ := List.append_of_mem among
  have mem' := h.mem_tasks_iff.2 ⟨above', v, below', u', split, declared', rfl⟩
  -- Both declarations end up as tasks, and these have different names.
  have one := List.inj_on_of_nodup_map h.distinct mem' mem (by simpa using same)
  have owner : v.name = w.name := by
    have workflows := congrArg Task.workflow one
    rwa [Task.configuredBy_workflow, Task.configuredBy_workflow, own_workflow, own_workflow]
      at workflows
  exact List.inj_on_of_nodup_map names among (by simp) owner

/-! ### Chains and data -/

/-- The chain is that of the lowest workflow that has one. -/
theorem chain_eq (h : MergesAll line r) : r.chain = line.reverse.findSome? (·.chain) := by
  induction h with
  | root merged =>
    rw [merged.chain, List.reverse_singleton, List.findSome?_singleton]
    exact Option.or_none
  | @child line base r w _ merged ih =>
    rw [merged.chain, List.reverse_append, List.reverse_singleton, List.singleton_append,
      List.findSome?_cons, ← ih]
    cases w.chain <;> rfl

theorem framed (h : MergesAll line r) : ∀ c ∈ r.chain, c.Frames r.tasks := by
  cases h with
  | root merged | child _ merged => exact merged.framed

theorem nodup_dataNames (h : MergesAll line r) : r.dataNames.Nodup := by
  induction h with
  | root merged =>
    have none : ((inheritedData none).map (·.name)).Nodup := List.nodup_nil
    rw [ResolvedWorkflow.dataNames, merged.data]
    exact (foldl_mergeSlot _ none).2
  | child _ merged ih =>
    rw [ResolvedWorkflow.dataNames, merged.data]
    exact (foldl_mergeSlot _ ih).2

end MergesAll

/-- What a workflow inherits stands before all that it adds. -/
theorem Merges.names_extend {w : Workflow} {base r : ResolvedWorkflow}
    (h : w.Merges (some base) r) (distinct : base.dataNames.Nodup) :
    base.tasks.map (·.name) <+: r.tasks.map (·.name) ∧ base.dataNames <+: r.dataNames := by
  constructor
  · rw [h.tasks, map_name_configuredBy, List.map_append]
    exact List.prefix_append _ _
  · rw [ResolvedWorkflow.dataNames, ResolvedWorkflow.dataNames, h.data]
    exact (foldl_mergeSlot w.data distinct).1

end Workflow

end Sweep
