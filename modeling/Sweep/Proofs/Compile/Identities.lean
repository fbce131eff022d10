import Sweep.Proofs.Compile.Planning

/-!
# The identities of compiled tasks

An artifact lists the representatives of all contents, and every space names its tasks by the
identities of their representatives. The definitions have different identities, and every space
finds its own tasks by them, exactly if the groups of equal tasks are distinguished: sharing looks
whether the identity of a representative is taken, but not whether the one in its place is.
-/

namespace Sweep

structure TaskDefinition.Implements (d : TaskDefinition) (t : ResolvedTask) : Prop where
  implementation : d.implementation = t.implementation
  dynamicParameters : d.dynamicParameters = t.dynamicParameters
  staticParameters : d.staticParameters = t.staticParameters
  inputData : d.inputData = t.inputs
  outputData : d.outputData = t.outputs

instance (d : TaskDefinition) (t : ResolvedTask) : Decidable (d.Implements t) :=
  decidable_of_iff (d.implementation = t.implementation ∧
      d.dynamicParameters = t.dynamicParameters ∧ d.staticParameters = t.staticParameters ∧
      d.inputData = t.inputs ∧ d.outputData = t.outputs)
    ⟨fun ⟨h₁, h₂, h₃, h₄, h₅⟩ => ⟨h₁, h₂, h₃, h₄, h₅⟩,
      fun ⟨h₁, h₂, h₃, h₄, h₅⟩ => ⟨h₁, h₂, h₃, h₄, h₅⟩⟩

namespace Artifact

def taskIds (a : Artifact) : List String := a.tasks.flatten.map (·.taskId)

/-- A task is found under an identity as it was resolved. -/
def Finds (a : Artifact) (t : ResolvedTask) (id : String) : Prop :=
  ∃ d, a.task? id = some d ∧ d.Implements t

instance (a : Artifact) (t : ResolvedTask) (id : String) : Decidable (a.Finds t id) :=
  decidable_of_iff ((a.task? id).any fun d => d.Implements t)
    (by simp [Finds, Option.any_eq_true])

/-- Every space finds each task of its plan at the task's place in its order. -/
def FindsPlanned (a : Artifact) (plans : List SpacePlan) : Prop :=
  List.Forall₂ (fun p s => List.Forall₂ a.Finds p.tasks s.tasksOrder) plans a.spaces

instance (a : Artifact) (plans : List SpacePlan) : Decidable (a.FindsPlanned plans) :=
  inferInstanceAs (Decidable (List.Forall₂ _ _ _))

/-- Among definitions of different identities each is found by its own. -/
theorem task?_eq {a : Artifact} (distinct : a.taskIds.Nodup) {d : TaskDefinition}
    (mem : d ∈ a.tasks.flatten) : a.task? d.taskId = some d :=
  find?_eq_some_of_nodup distinct mem

end Artifact

namespace Compile

open Sharing

variable {e : Experiment} {workflows : List Workflow} {plans : List SpacePlan} {a : Artifact}

/-- The definitions of an artifact are those of the representatives. -/
theorem Stages.perm_tasks (h : Stages e workflows plans a) :
    a.tasks.flatten.Perm
      ((assign [] (gather (plans.flatMap (·.tasks)))).map fun pair => taskDefinition pair.2) := by
  obtain ⟨control, rfl⟩ := h.assembled
  have shared := (share_gathered (plans.flatMap (·.tasks))).1.map taskDefinition
  rw [List.map_map, List.map_flatten] at shared
  exact shared

theorem Stages.nodup_taskIds_iff (h : Stages e workflows plans a) :
    a.taskIds.Nodup ↔ Distinguished [] (gather (plans.flatMap (·.tasks))) := by
  have ids := (h.perm_tasks.map (·.taskId)).nodup_iff
  rw [List.map_map] at ids
  rw [← nodup_assign_iff]
  exact ids.trans (by simp [Function.comp_def, taskDefinition])

theorem implements_taskDefinition {t r : ResolvedTask} (same : t.SameContent r) :
    (taskDefinition r).Implements t :=
  ⟨same.implementation.symm, same.dynamicParameters.symm, same.staticParameters.symm,
    same.inputs.symm, same.outputs.symm⟩

/-- The definition of a group's representative runs every task of the group. -/
theorem implements_of_assigned {pair : Group × ResolvedTask}
    (assigned : pair ∈ assign [] (gather (plans.flatMap (·.tasks)))) {t : ResolvedTask}
    (among : t ∈ members pair.1) : (taskDefinition pair.2).Implements t := by
  have content : t.fingerprint = pair.2.fingerprint :=
    (fingerprint_of_mem (fst_mem_of_assign assigned) among).trans
      (fingerprint_representative assigned).symm
  exact implements_taskDefinition (ResolvedTask.fingerprint_eq_iff.1 content)

/-- Every definition of an artifact runs a planned task. -/
theorem Stages.exists_implemented (h : Stages e workflows plans a) {d : TaskDefinition}
    (mem : d ∈ a.tasks.flatten) : ∃ t ∈ plans.flatMap (·.tasks), d.Implements t := by
  obtain ⟨pair, assigned, rfl⟩ := List.mem_map.1 (h.perm_tasks.mem_iff.1 mem)
  have among : pair.1.1 ∈ members pair.1 := List.mem_cons_self
  exact ⟨pair.1.1, mem_gather.2 ⟨_, fst_mem_of_assign assigned, among⟩,
    implements_of_assigned assigned among⟩

/-- The spaces of an artifact are put together from the plans. -/
theorem Stages.spaces_eq (h : Stages e workflows plans a) :
    a.spaces = plans.map (spaceDefinition e (.ofTasks (plans.flatMap (·.tasks)))) := by
  obtain ⟨control, rfl⟩ := h.assembled
  rfl

/-- If identities differ, every planned task is found under the identity of its representative. -/
theorem Stages.findsPlanned (h : Stages e workflows plans a) (distinct : a.taskIds.Nodup) :
    a.FindsPlanned plans := by
  have finds : ∀ p ∈ plans, ∀ t ∈ p.tasks,
      a.Finds t (((ofTasks (plans.flatMap (·.tasks))).canonicalId? p.name t.id).getD t.id) := by
    intro p plan t task
    have mem : t ∈ plans.flatMap (·.tasks) := List.mem_flatMap.2 ⟨p, plan, task⟩
    obtain ⟨pair, assigned, among, known⟩ := h.planned_tasks.identified.canonicalId?_eq mem
    have defined : taskDefinition pair.2 ∈ a.tasks.flatten :=
      h.perm_tasks.mem_iff.2 (List.mem_map.2 ⟨pair, assigned, rfl⟩)
    rw [← h.space_eq plan task, known]
    exact ⟨taskDefinition pair.2, Artifact.task?_eq distinct defined,
      implements_of_assigned assigned among⟩
  rw [Artifact.FindsPlanned, h.spaces_eq, List.forall₂_map_right_iff, List.forall₂_same]
  intro p plan
  rw [spaceDefinition, List.forall₂_map_right_iff, List.forall₂_same]
  exact finds p plan

/-- A space of an artifact is as it was planned. -/
structure Realizes (a : Artifact) (experimentData : List DataSlot) (p : SpacePlan)
    (space : SpaceDefinition) : Prop where
  spaceId : space.spaceId = p.name
  parameters : space.parameters = p.parameterSets
  inputData : space.inputData = inputValues experimentData p.spaceData
  tasks : List.Forall₂ a.Finds p.tasks space.tasksOrder

/-- If every space finds its tasks, each is as it was planned. -/
theorem Stages.exists_realized (h : Stages e workflows plans a) (finds : a.FindsPlanned plans)
    {space : SpaceDefinition} (mem : space ∈ a.spaces) :
    ∃ p ∈ plans, Realizes a e.data p space := by
  rw [Artifact.FindsPlanned, h.spaces_eq, List.forall₂_map_right_iff, List.forall₂_same] at finds
  rw [h.spaces_eq] at mem
  obtain ⟨p, plan, rfl⟩ := List.mem_map.1 mem
  exact ⟨p, plan, rfl, rfl, rfl, finds p plan⟩

/-- A workflow of two tasks, of the given names. -/
def pairWorkflow (name other : String) : Workflow :=
  { name := "W"
    tasks :=
      [{ name, workflow := "W", implementation := some "./one.sh" },
       { name := other, workflow := "W", implementation := some "./other.sh" }] }

/-- Two spaces over one workflow, of which the second runs another program for the first task. -/
def overriding (name : String) : Experiment :=
  { name := "E"
    spaces :=
      [{ name := "A", workflow := "W" },
       { name := "B", workflow := "W"
         configurations := [{ task := name, implementation := some "./two.sh" }] }] }

/-- A compiled artifact defines tasks of different identities, and lets every space find the tasks
that were resolved for it, exactly if the groups of equal tasks are distinguished. -/
theorem compile_identifies_iff {out : Compilation} {warnings : List CompileWarning}
    (compiled : compile e workflows = .ok out)
    (planned : planSpaces e workflows = .ok (plans, warnings)) :
    (out.artifact.taskIds.Nodup ∧ out.artifact.FindsPlanned plans) ↔
      Distinguished [] (gather (plans.flatMap (·.tasks))) := by
  have h := stages compiled planned
  rw [← h.nodup_taskIds_iff]
  constructor
  · intro both
    exact both.1
  · intro distinct
    exact ⟨distinct, h.findsPlanned distinct⟩

/-- The task that a space overrides is defined next to the shared ones. -/
theorem compile_identifies_overriding : ∃ out plans warnings,
    compile (overriding "t") [pairWorkflow "t" "u"] = .ok out ∧
      planSpaces (overriding "t") [pairWorkflow "t" "u"] = .ok (plans, warnings) ∧
      out.artifact.taskIds = ["W:t", "W:u", "W:t@B"] ∧ out.artifact.taskIds.Nodup ∧
      out.artifact.FindsPlanned plans := by
  obtain ⟨out, compiled, ids⟩ := exists_ok (r := compile (overriding "t") [pairWorkflow "t" "u"])
    (p := fun out => out.artifact.taskIds = ["W:t", "W:u", "W:t@B"]) (by decide +kernel)
  obtain ⟨⟨plans, warnings⟩, planned, distinguished⟩ :=
    exists_ok (r := planSpaces (overriding "t") [pairWorkflow "t" "u"])
      (p := fun found => Distinguished [] (gather (found.1.flatMap (·.tasks)))) (by decide +kernel)
  exact ⟨out, plans, warnings, compiled, planned, ids,
    (compile_identifies_iff compiled planned).2 distinguished⟩

/-- A task may bear the identity that another one gets where it is overridden: two definitions have
one identity then, and the space that overrides a task runs another one in its place. -/
theorem compile_confuses_marked : ∃ out plans warnings,
    compile (overriding "t") [pairWorkflow "t" "t@B"] = .ok out ∧
      planSpaces (overriding "t") [pairWorkflow "t" "t@B"] = .ok (plans, warnings) ∧
      out.artifact.taskIds = ["W:t", "W:t@B", "W:t@B"] ∧ ¬ out.artifact.taskIds.Nodup ∧
      ¬ out.artifact.FindsPlanned plans := by
  obtain ⟨⟨plans, warnings⟩, planned, confused⟩ :=
    exists_ok (r := planSpaces (overriding "t") [pairWorkflow "t" "t@B"])
      (p := fun found => (compile (overriding "t") [pairWorkflow "t" "t@B"]).toOption.any fun out =>
        out.artifact.taskIds = ["W:t", "W:t@B", "W:t@B"] ∧ ¬ out.artifact.FindsPlanned found.1)
      (by decide +kernel)
  obtain ⟨out, compiled, ids, lost⟩ := exists_ok confused
  refine ⟨out, plans, warnings, compiled, planned, ids, ?_, lost⟩
  rw [ids]
  decide

/-- Experiments of plain names are compiled to tasks of different identities, which every space
finds. -/
theorem compile_identifies_of_plain {out : Compilation} {warnings : List CompileWarning}
    (compiled : compile e workflows = .ok out)
    (planned : planSpaces e workflows = .ok (plans, warnings))
    (plain : ∀ t ∈ plans.flatMap (·.tasks),
      IsPlain t.workflow ∧ IsPlain t.name ∧ IsPlain t.space) :
    out.artifact.taskIds.Nodup ∧ out.artifact.FindsPlanned plans := by
  have h := stages compiled planned
  have distinct := h.nodup_taskIds_iff.2 (distinguished_of_plain h.planned_tasks plain)
  exact ⟨distinct, h.findsPlanned distinct⟩

end Compile

end Sweep
