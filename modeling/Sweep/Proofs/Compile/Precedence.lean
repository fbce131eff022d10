import Sweep.Proofs.Compile.Merging
import Sweep.Proofs.Compile.Resolution
import Sweep.Proofs.Lists

/-!
# The order in which configurations count

A task that a workflow declares is configured by that workflow, then by those below it, down to
the one that a space names, and at last by the space. What a space runs is the declaration with all
these configurations applied in this order. So it has the implementation, the inputs and the outputs
that were given last, and a parameter has the value that was given for it last: to list a parameter
without a value never takes its value away.
-/

namespace Sweep

/-! ## Parameters -/

namespace Parameter

/-- What is listed for a name in some parameters: values, or nothing for one without value. -/
def valuesOf (name : String) (parameters : List Parameter) : List (Option Json) :=
  (parameters.filter fun p => p.name = name).map (·.value)

def lastBound (name : String) (parameters : List Parameter) : Option Json :=
  ((valuesOf name parameters).filterMap id).getLast?

variable (name : String) {parameters given : List Parameter} {p : Parameter}

theorem valuesOf_cons : valuesOf name (p :: parameters) =
    if p.name = name then p.value :: valuesOf name parameters else valuesOf name parameters := by
  by_cases same : p.name = name <;> simp [valuesOf, same]

theorem valuesOf_eq_nil_iff : valuesOf name parameters = [] ↔ name ∉ parameters.map (·.name) := by
  simp [valuesOf, List.filter_eq_nil_iff]

theorem lastBound_concat : lastBound name (parameters ++ [p]) =
    if p.name = name then p.value.or (lastBound name parameters)
    else lastBound name parameters := by
  have split : valuesOf name (parameters ++ [p]) =
      valuesOf name parameters ++ valuesOf name [p] := by
    simp [valuesOf]
  rw [lastBound, split, valuesOf_cons]
  by_cases same : p.name = name
  · rw [if_pos same, if_pos same]
    exact getLast?_filterMap_concat id _ p.value
  · rw [if_neg same, if_neg same, lastBound]
    exact congrArg (fun values => (values.filterMap id).getLast?)
      (List.append_nil (valuesOf name parameters))

/-- A parameter that is merged rebinds the first of its name, if it has a value, or is added. -/
theorem valuesOf_mergeParameter : valuesOf name (Task.mergeParameter parameters p) =
    if p.name = name then
      p.value.or (valuesOf name parameters).head?.join :: (valuesOf name parameters).tail
    else valuesOf name parameters := by
  induction parameters with
  | nil => by_cases same : p.name = name <;> simp [Task.mergeParameter, valuesOf, same]
  | cons q rest ih =>
    rw [Task.mergeParameter]
    by_cases met : q.name = p.name
    · rw [if_pos met]
      by_cases same : p.name = name
      · cases value : p.value <;> simp [valuesOf_cons, isBound, met, same, value]
      · cases value : p.value <;> simp [valuesOf_cons, isBound, met, same, value]
    · rw [if_neg met, valuesOf_cons, ih]
      by_cases same : p.name = name
      · simp [valuesOf_cons, same ▸ met, same]
      · simp [valuesOf_cons, same]

/-- Some parameters keep, of all that was listed for a name, the value that was given last. -/
def KeepsLast (name : String) (kept all : List Parameter) : Prop :=
  valuesOf name kept = if name ∈ all.map (·.name) then [lastBound name all] else []

theorem keepsLast_self (once : (valuesOf name parameters).length ≤ 1) :
    KeepsLast name parameters parameters := by
  rw [KeepsLast, lastBound]
  split
  · next listed =>
    match values : valuesOf name parameters with
    | [] => exact absurd listed ((valuesOf_eq_nil_iff name).1 values)
    | [value] => cases value <;> rfl
    | _ :: _ :: _ =>
      rw [values] at once
      simp at once
  · next unlisted => exact (valuesOf_eq_nil_iff name).2 unlisted

/-- A parameter without value is not added again, and does not take away the value there is. -/
theorem KeepsLast.mergeParameter {kept all : List Parameter} (h : KeepsLast name kept all) :
    KeepsLast name (Task.mergeParameter kept p) (all ++ [p]) := by
  rw [KeepsLast] at h
  rw [KeepsLast, valuesOf_mergeParameter, h, lastBound_concat]
  simp only [List.map_append, List.mem_append, List.map_singleton, List.mem_singleton]
  by_cases same : p.name = name
  · have listed : name ∈ all.map (·.name) ∨ name = p.name := .inr same.symm
    rw [if_pos same, if_pos same, if_pos listed]
    split
    · rfl
    · next new =>
      rw [lastBound, (valuesOf_eq_nil_iff name).2 new]
      rfl
  · rw [if_neg same, if_neg same]
    simp only [Ne.symm same, or_false]

theorem keepsLast_foldl (once : (valuesOf name parameters).length ≤ 1) :
    KeepsLast name (given.foldl Task.mergeParameter parameters) (parameters ++ given) := by
  induction given using List.reverseRecOn with
  | nil => exact (List.append_nil parameters).symm ▸ keepsLast_self name once
  | append_singleton given p ih =>
    rw [List.foldl_concat, ← List.append_assoc]
    exact ih.mergeParameter name

end Parameter

/-! ## Tasks -/

namespace Task

open Parameter

variable (t : Task) (given : List Configuration) (name : String)

/-- What a configuration replaces if it gives something is, in the end, what was given last. -/
theorem foldl_apply_eq {α : Type} {field : Task → α} {given? : Configuration → Option α}
    (replaces : ∀ t c, field (apply t c) = (given? c).getD (field t)) :
    field (given.foldl apply t) = (given.filterMap given?).getLast?.getD (field t) := by
  induction given using List.reverseRecOn with
  | nil => rfl
  | append_singleton given c ih =>
    rw [List.foldl_concat, getLast?_filterMap_concat, replaces, ih]
    cases given? c <;> rfl

theorem implementation_foldl_apply : (given.foldl apply t).implementation =
    (given.filterMap (·.implementation)).getLast?.or t.implementation := by
  have replaces (t : Task) (c : Configuration) :
      (t.apply c).implementation = (c.implementation.map some).getD t.implementation := by
    rw [apply]
    cases c.implementation <;> rfl
  rw [t.foldl_apply_eq given replaces, ← List.map_filterMap, List.getLast?_map]
  cases (given.filterMap (·.implementation)).getLast? <;> rfl

theorem parameters_foldl_apply : (given.foldl apply t).parameters =
    (given.flatMap (·.parameters)).foldl mergeParameter t.parameters := by
  induction given generalizing t with
  | nil => rfl
  | cons c rest ih => rw [List.foldl_cons, ih, List.flatMap_cons, List.foldl_append, apply]

/-- A static parameter has the last of the values that are listed for it. -/
theorem get?_staticParameters : t.staticParameters.get? name = lastBound name t.parameters := by
  rw [staticParameters, Table.get?_ofList]
  induction t.parameters using List.reverseRecOn with
  | nil => rfl
  | append_singleton rest p ih =>
    rw [lastBound_concat, ← ih, List.filterMap_append, List.reverse_append, List.find?_append,
      Option.map_or]
    obtain ⟨other, value⟩ := p
    by_cases same : other = name
    · cases value <;> simp [same]
    · cases value <;> simp [same]

theorem mem_dynamicParameters :
    name ∈ t.dynamicParameters ↔ none ∈ valuesOf name t.parameters := by
  simp only [dynamicParameters, valuesOf, List.mem_map, List.mem_filter, Parameter.isBound,
    Bool.not_eq_true', Option.isSome_eq_false_iff, Option.isNone_iff_eq_none, decide_eq_true_eq]
  constructor
  · rintro ⟨p, ⟨mem, unbound⟩, rfl⟩
    exact ⟨p, ⟨mem, rfl⟩, unbound⟩
  · rintro ⟨p, ⟨mem, rfl⟩, unbound⟩
    exact ⟨p, ⟨mem, unbound⟩, rfl⟩

/-- All that is listed as a parameter of a task, first by itself and then by configurations. -/
def listed : List Parameter := t.parameters ++ given.flatMap (·.parameters)

variable {t name} in
/-- A parameter that the task lists at most once keeps the value that is given last. -/
theorem keepsLast_foldl_apply (once : (t.parameters.filter fun p => p.name = name).length ≤ 1) :
    KeepsLast name (given.foldl apply t).parameters (t.listed given) := by
  rw [parameters_foldl_apply]
  exact keepsLast_foldl name (by rwa [valuesOf, List.length_map])

end Task

/-! ## Spaces -/

/-- A resolved task that runs a task as it is configured. -/
structure ResolvedTask.Runs (u : ResolvedTask) (t : Task) : Prop where
  name : u.name = t.name
  declaredIn : u.declaredIn = t.workflow
  implementation : some u.implementation = t.implementation
  dynamicParameters : u.dynamicParameters = t.dynamicParameters
  staticParameters : u.staticParameters = t.staticParameters
  inputs : u.inputs = t.inputs
  outputs : u.outputs = t.outputs

/-- A resolved task that has, of everything, what is given last: by the task that was declared,
or by one of the configurations after it. -/
structure ResolvedTask.HasLast (u : ResolvedTask) (t : Task) (given : List Configuration) :
    Prop where
  implementation :
    some u.implementation = (given.filterMap (·.implementation)).getLast?.or t.implementation
  inputs : u.inputs = (given.filterMap (·.inputs)).getLast?.getD t.inputs
  outputs : u.outputs = (given.filterMap (·.outputs)).getLast?.getD t.outputs
  bound {name : String} : (t.parameters.filter fun p => p.name = name).length ≤ 1 →
    u.staticParameters.get? name = Parameter.lastBound name (t.listed given)
  dynamic {name : String} : (t.parameters.filter fun p => p.name = name).length ≤ 1 →
    (name ∈ u.dynamicParameters ↔
      name ∈ (t.listed given).map (·.name) ∧ Parameter.lastBound name (t.listed given) = none)

theorem ResolvedTask.Runs.hasLast {u : ResolvedTask} {t : Task} {given : List Configuration}
    (runs : u.Runs (given.foldl Task.apply t)) : u.HasLast t given where
  implementation := runs.implementation.trans (t.implementation_foldl_apply given)
  inputs := runs.inputs.trans (t.foldl_apply_eq given fun _ _ => rfl)
  outputs := runs.outputs.trans (t.foldl_apply_eq given fun _ _ => rfl)
  bound := by
    intro name once
    have kept := Task.keepsLast_foldl_apply given once
    rw [runs.staticParameters, Task.get?_staticParameters, Parameter.lastBound, kept]
    split
    · cases Parameter.lastBound name (t.listed given) <;> rfl
    · next unlisted =>
      rw [Parameter.lastBound, (Parameter.valuesOf_eq_nil_iff name).2 unlisted]
  dynamic := by
    intro name once
    have kept := Task.keepsLast_foldl_apply given once
    rw [runs.dynamicParameters, Task.mem_dynamicParameters, kept]
    split
    · next listed => simp only [listed, true_and, List.mem_singleton, eq_comm]
    · next unlisted => simp only [unlisted, false_and, List.not_mem_nil]

/-- The configurations of a task that a workflow declares, in the order in which they count: those
of the workflow, of the workflows below it, and of a space. -/
def Space.configurationsOf (s : Space) (w : Workflow) (below : List Workflow) (t : Task) :
    List Configuration :=
  (Workflow.configurationsFrom w below ++ s.configurations).filter fun c => c.task == t.name

/-- A space that is accepted runs the tasks of its workflow as it configures them. -/
theorem Space.runs_configure {s : Space} {r : ResolvedWorkflow} {tasks : List ResolvedTask}
    {warnings : List CompileWarning} (accepted : s.resolveTasks r = .ok (tasks, warnings))
    {u : ResolvedTask} (mem : u ∈ tasks) :
    ∃ t ∈ r.tasks, t.name = u.name ∧ u.Runs (s.configure t) := by
  rw [(of_resolveTasks accepted).1] at mem
  obtain ⟨t, ordered, rfl⟩ := List.mem_map.1 mem
  obtain ⟨name, -, found⟩ := List.mem_filterMap.1 ordered
  obtain ⟨path, implemented⟩ :=
    Option.isSome_iff_exists.1 (exists_implementation accepted ordered)
  have implementation : some ((s.configure t).implementation.getD "") =
      (s.configure t).implementation := by
    rw [implemented]
    rfl
  exact ⟨t, (r.of_task? found).1, (t.configuredBy_name s.configurations).symm,
    ⟨rfl, rfl, implementation, rfl, rfl, rfl, rfl⟩⟩

namespace Lineages

open Workflow (configurationsFrom mergesAll_of_some)

/-- Workflows of a list with different names are told by their names. -/
theorem eq_of_map_name_eq {workflows line line' : List Workflow}
    (distinct : (workflows.map (·.name)).Nodup) (among : ∀ w ∈ line, w ∈ workflows)
    (among' : ∀ w ∈ line', w ∈ workflows) (same : line.map (·.name) = line'.map (·.name)) :
    line = line' := by
  induction line generalizing line' with
  | nil => exact (List.map_eq_nil_iff.1 same.symm).symm
  | cons w rest ih =>
    obtain ⟨w', rest', rfl, first, others⟩ := List.map_eq_cons_iff.1 same.symm
    rw [List.inj_on_of_nodup_map distinct (among' w' List.mem_cons_self)
      (among w List.mem_cons_self) first]
    rw [ih (fun v mem => among v (List.mem_cons_of_mem _ mem))
      (fun v mem => among' v (List.mem_cons_of_mem _ mem)) others.symm]

/-- Wherever in the lineage of a workflow a task is declared, a space over the workflow that is
accepted runs the declaration with the configurations of its workflow, of all below and at last
of the space applied, and so has of everything what was given last. -/
theorem runs_last {workflows : List Workflow} {calls : List Call} {name : String}
    {r : ResolvedWorkflow} {above below : List Workflow} {w : Workflow} {t : Task} {s : Space}
    {tasks : List ResolvedTask} {warnings : List CompileWarning}
    (distinct : (workflows.map (·.name)).Nodup)
    (resolved : ((after workflows calls).resolve name).1 = .ok r)
    (known : ∀ v ∈ above ++ w :: below, v ∈ workflows)
    (lineage : r.lineage = (above ++ w :: below).map (·.name)) (declared : t ∈ w.tasks)
    (accepted : s.resolveTasks r = .ok (tasks, warnings)) :
    (t.name ∈ r.order → ∃ u ∈ tasks, u.name = t.name) ∧
      ∀ u ∈ tasks, u.name = t.name →
        u.Runs ((s.configurationsOf w below t).foldl Task.apply (w.own t)) ∧
          u.HasLast (w.own t) (s.configurationsOf w below t) := by
  have keyed := keyed_ofWorkflows workflows
  obtain ⟨line, h, merged⟩ := (sound_after workflows calls).exists_line keyed resolved
  have made := mergesAll_of_some merged
  obtain rfl : line = above ++ w :: below := by
    refine eq_of_map_name_eq distinct (fun v mem => ?_) known (made.lineage_eq.symm.trans lineage)
    exact (of_get?_ofWorkflows (h.known_of_mem keyed mem)).1
  constructor
  · intro named
    have all := Space.forall₂_resolveTasks accepted fun _ mem => r.declares_order made.framed mem
    obtain ⟨u, mem, x, found, rfl⟩ := exists_of_forall₂ all named
    exact ⟨_, mem, (x.configuredBy_name s.configurations).trans (r.of_task? found).2⟩
  · intro u mem named
    obtain ⟨x, among, same, runs⟩ := Space.runs_configure accepted mem
    have configured := made.mem_tasks_iff.2 ⟨above, w, below, t, rfl, declared, rfl⟩
    have names : x.name = ((w.own t).configuredBy (configurationsFrom w below)).name := by
      rw [same, named, Task.configuredBy_name, Workflow.own_name]
    -- The task that the space configures is the one that was declared here.
    obtain rfl := List.inj_on_of_nodup_map made.distinct among configured names
    have used : s.configure ((w.own t).configuredBy (configurationsFrom w below)) =
        (s.configurationsOf w below t).foldl Task.apply (w.own t) :=
      ((w.own t).configuredBy_append _ _).symm
    rw [used] at runs
    exact ⟨runs, runs.hasLast⟩

def plainTask : Task :=
  { name := "t", implementation := some "t.sh", inputs := ["d"]
    parameters := [.dynamic "p", .bound "q" (.text "1"), .dynamic "n"] }

def plain : Workflow :=
  { name := "W", tasks := [plainTask]
    configurations := [{ task := "t", parameters := [.bound "p" (.text "2")] }] }

/-- A workflow that gives other inputs, though none, and lists a parameter without value. -/
def tuned : Workflow :=
  { name := "V", parent := some "W"
    configurations := [{ task := "t", implementation := some "v.sh", inputs := some []
                         parameters := [.dynamic "q"] }] }

def overTuned : Space :=
  { name := "A", workflow := "V"
    configurations := [{ task := "t", parameters := [.bound "p" (.text "3")] }] }

/-- The space's value comes last, the value that was not given again stays, and a parameter for
which nothing gives a value stays dynamic. -/
theorem runs_last_tuned : ∃ r tasks warnings, ((after [tuned, plain] []).resolve "V").1 = .ok r ∧
    overTuned.resolveTasks r = .ok (tasks, warnings) ∧ ∃ u ∈ tasks,
      u.Runs ((overTuned.configurationsOf plain [tuned] plainTask).foldl Task.apply
        (plain.own plainTask)) ∧
      u.implementation = "v.sh" ∧ u.inputs = [] ∧ u.dynamicParameters = ["n"] ∧
      u.staticParameters.get? "p" = some (.text "3") ∧
      u.staticParameters.get? "q" = some (.text "1") := by
  obtain ⟨r, resolved, lineage, order, accepted⟩ :=
    exists_ok (r := ((after [tuned, plain] []).resolve "V").1)
      (p := fun r => r.lineage = ["W", "V"] ∧ r.order = ["t"] ∧
        (overTuned.resolveTasks r).toOption.any (fun _ => True)) (by decide +kernel)
  obtain ⟨⟨tasks, warnings⟩, made, -⟩ := exists_ok accepted
  obtain ⟨listed, all⟩ := @runs_last [tuned, plain] [] "V" r [] [tuned] plain plainTask overTuned
    tasks warnings (by decide) resolved (by decide) lineage List.mem_cons_self made
  obtain ⟨u, mem, named⟩ := listed (order ▸ List.mem_singleton.2 rfl)
  obtain ⟨runs, last⟩ := all u mem named
  refine ⟨r, tasks, warnings, resolved, made, u, mem, runs, ?_, last.inputs.trans (by decide),
    runs.dynamicParameters.trans (by decide), (last.bound (by decide)).trans (by decide),
    (last.bound (by decide)).trans (by decide)⟩
  exact Option.some.inj (last.implementation.trans (by decide))

end Lineages

end Sweep
