import Sweep.Proofs.Compile.Identities
import Sweep.Proofs.Run.Supply
import Sweep.Proofs.Table

/-!
# The flow of data in a compiled experiment

What a compilation has checked of a space's inputs is that each is declared or put out by an
earlier task of the space, and that those which no task of the experiment puts out have values. An
input that is declared without a value passes the check if some task puts it out, wherever that task
stands: the space awaits it. A dry run fails for want of such inputs only, and only as long as no
task that puts them out has been completed.
-/

namespace Sweep

namespace SpacePlan

/-- A space awaits a data name: it is declared, neither the space nor the experiment has a value for
it, and some task of the experiment puts it out. -/
structure Awaits (p : SpacePlan) (experimentData : List DataSlot) (plans : List SpacePlan)
    (name : String) : Prop where
  declared : name ∈ p.declaredData experimentData
  noValue : hasValue p.spaceData name = false ∧ hasValue experimentData name = false
  produced : ∃ t ∈ plans.flatMap (·.tasks), name ∈ t.outputs

/-- In tasks that were checked, an input is available at the start or put out before. -/
theorem available_of_checked {space : String} {available : List String}
    {before after : List ResolvedTask} {t : ResolvedTask}
    (checked : missingInputs space available (before ++ t :: after) = []) {name : String}
    (input : name ∈ t.inputs) : name ∈ available ∨ ∃ u ∈ before, name ∈ u.outputs := by
  induction before generalizing available with
  | nil =>
    rw [List.nil_append, missingInputs, List.append_eq_nil_iff, List.map_eq_nil_iff,
      List.filter_eq_nil_iff] at checked
    exact .inl (by simpa using checked.1 name input)
  | cons u before ih =>
    rw [List.cons_append, missingInputs, List.append_eq_nil_iff] at checked
    rcases ih checked.2 with mem | ⟨v, mem, out⟩
    · exact (List.mem_append.1 mem).imp_right fun out => ⟨u, List.mem_cons_self, out⟩
    · exact .inr ⟨v, List.mem_cons_of_mem _ mem, out⟩

theorem mem_initialInputs {plans : List SpacePlan} {name : String} :
    name ∈ initialInputs plans ↔ (∃ t ∈ plans.flatMap (·.tasks), name ∈ t.inputs) ∧
      ¬∃ t ∈ plans.flatMap (·.tasks), name ∈ t.outputs := by
  rw [initialInputs, mem_sortDistinct, List.mem_filter, List.mem_flatMap]
  simp only [Bool.not_eq_true', List.contains_eq_mem, decide_eq_false_iff_not, List.mem_flatMap]

/-- An initial input has a value in every space. -/
theorem hasValue_of_checked {plans : List SpacePlan} {experimentData : List DataSlot}
    (checked : initialInputErrors plans experimentData = []) {p : SpacePlan} (mem : p ∈ plans)
    {name : String} (initial : name ∈ initialInputs plans) :
    hasValue p.spaceData name = true ∨ hasValue experimentData name = true := by
  have fine := List.flatMap_eq_nil_iff.1 checked p mem
  rw [List.map_eq_nil_iff, List.filter_eq_nil_iff] at fine
  have valued := fine name initial
  cases h : hasValue p.spaceData name
  · simpa [h] using valued
  · exact .inl rfl

theorem checked_of_checkData {plans : List SpacePlan} {experimentData : List DataSlot}
    (checked : checkData plans experimentData = .ok ()) :
    (∀ p ∈ plans, p.dataErrors experimentData = []) ∧
      initialInputErrors plans experimentData = [] := by
  have none := CompileFailure.check_eq_ok_iff.1 checked
  rw [List.append_eq_nil_iff, List.flatMap_eq_nil_iff] at none
  exact none

end SpacePlan

namespace Compile

open SpacePlan

/-- A space starts with a value for a name exactly if it or the experiment has one. -/
theorem get?_inputValues_eq_none {experimentData spaceData : List DataSlot} {name : String} :
    (inputValues experimentData spaceData).get? name = none ↔
      hasValue spaceData name = false ∧ hasValue experimentData name = false := by
  rw [← Option.not_isSome_iff_eq_none, inputValues, Table.isSome_get?_ofList]
  have valued (data : List DataSlot) : hasValue data name = true ↔
      ∃ slot ∈ data, slot.name = name ∧ slot.value.isSome = true := by
    simp [hasValue]
  rw [← Bool.not_eq_true, ← Bool.not_eq_true, valued, valued, ← not_or]
  refine not_congr ?_
  simp only [List.mem_map, List.mem_filterMap, List.mem_append, Option.map_eq_some_iff]
  constructor
  · rintro ⟨_, ⟨slot, mem, value, known, rfl⟩, rfl⟩
    have bound : slot.value.isSome = true := by rw [known]; rfl
    exact mem.symm.imp (⟨slot, ·, rfl, bound⟩) (⟨slot, ·, rfl, bound⟩)
  · rintro (⟨slot, mem, rfl, bound⟩ | ⟨slot, mem, rfl, bound⟩)
    all_goals
      obtain ⟨value, known⟩ := Option.isSome_iff_exists.1 bound
    · exact ⟨_, ⟨slot, .inr mem, value, known, rfl⟩, rfl⟩
    · exact ⟨_, ⟨slot, .inl mem, value, known, rfl⟩, rfl⟩

variable {S : Type} {c : Conduct S} {kept : S → Prop} {e : Experiment} {workflows : List Workflow}
  {plans : List SpacePlan}

/-- The tasks that the engine finds for a space are those of the space's plan. -/
theorem Stages.planned_of_tasksOf (h : Stages e workflows plans c.artifact)
    (finds : c.artifact.FindsPlanned plans) {space : SpaceDefinition}
    (mem : space ∈ c.artifact.spaces) {tasks : List TaskDefinition}
    (known : c.tasksOf space = .ok tasks) :
    ∃ p ∈ plans, space.spaceId = p.name ∧ space.inputData = inputValues e.data p.spaceData ∧
      List.Forall₂ (fun t d => d.Implements t) p.tasks tasks := by
  obtain ⟨p, plan, realized⟩ := h.exists_realized finds mem
  refine ⟨p, plan, realized.spaceId, realized.inputData, ?_⟩
  have found := Conduct.tasksOf_forall₂ known
  have implemented := realized.tasks
  clear known finds realized
  generalize space.tasksOrder = ids at found implemented
  generalize p.tasks = resolved at implemented
  induction implemented generalizing tasks with
  | nil =>
    cases found
    exact .nil
  | cons first _ ih =>
    cases found with
    | cons here others =>
      obtain ⟨d, defined, implements⟩ := first
      rw [defined] at here
      cases here
      exact .cons implements (ih others)

/-- A dry run of a compiled experiment, from the beginning, fails for want of an input only in a
space that awaits it, and before any task that puts it out is completed. -/
theorem dryRun_missing (out : Compilation) (warnings : List CompileWarning)
    (compiled : compile e workflows = .ok out)
    (planned : planSpaces e workflows = .ok (plans, warnings))
    (finds : out.artifact.FindsPlanned plans) (artifact : c.artifact = out.artifact)
    (dry : c.options.dryRun = true) (reliable : c.host.Reliable c.runId kept) {s : Session S}
    (fresh : c.Fresh kept s) {visits : Nat} {space task name : String} {index : Nat}
    (failed : (c.run visits s).1 = .error (.missingInput space index task name)) :
    ∃ p ∈ plans, p.name = space ∧ (∃ t ∈ p.tasks, name ∈ t.inputs) ∧ p.Awaits e.data plans name ∧
      ∃ marks, (c.run visits s).2.marks = s.marks ++ marks ∧ ¬c.PutOut marks name := by
  have h : Stages e workflows plans c.artifact := artifact ▸ stages compiled planned
  rw [← artifact] at finds
  obtain ⟨space, mem, tasks, latest, known, rfl, lacks, marks⟩ :=
    Conduct.dryRun_lacks reliable dry fresh failed
  obtain ⟨p, plan, named, initial, implement⟩ := h.planned_of_tasksOf finds mem known
  obtain ⟨before, d, after, rfl, -, input, notBefore⟩ := lacks.reached
  -- The plan's tasks before the one that fails, and that task itself.
  have earlier := List.forall₂_take_append _ _ _ implement
  have rest := List.forall₂_drop_append _ _ _ implement
  obtain ⟨t, later, implements, -, here⟩ := List.forall₂_cons_right_iff.1 rest
  have shape : p.tasks = p.tasks.take before.length ++ t :: later := by
    rw [← here, List.take_append_drop]
  rw [implements.inputData] at input
  have task : t ∈ p.tasks := shape ▸ List.mem_append_right _ List.mem_cons_self
  have among : t ∈ plans.flatMap (·.tasks) := List.mem_flatMap.2 ⟨p, plan, task⟩
  obtain ⟨ordered, valued⟩ := checked_of_checkData h.data
  have noValue := get?_inputValues_eq_none.1 (initial ▸ lacks.initial)
  refine ⟨p, plan, named.symm, ⟨t, task, input⟩, ⟨?_, noValue, ?_⟩, marks⟩
  · have checked := ordered p plan
    rw [dataErrors, shape] at checked
    rcases available_of_checked checked input with declared | ⟨u, before, out⟩
    · exact declared
    · obtain ⟨d', mem, implements⟩ := exists_of_forall₂ earlier before
      exact absurd (implements.outputData ▸ out) (notBefore d' mem)
  · by_contra unproduced
    rcases hasValue_of_checked valued plan (mem_initialInputs.2 ⟨⟨t, among, input⟩, unproduced⟩)
      with bound | bound
    · rw [noValue.1] at bound
      cases bound
    · rw [noValue.2] at bound
      cases bound

/-- A space that consumes a data name, before one that produces it. -/
def awaiting : Experiment :=
  { name := "E"
    spaces := [{ name := "A", workflow := "C" }, { name := "B", workflow := "P" }]
    data := [⟨"x", none⟩] }

def awaitingWorkflows : List Workflow :=
  [{ name := "C"
     tasks := [{ name := "use", workflow := "C", implementation := some "./use.sh"
                 inputs := ["x"] }] },
   { name := "P"
     tasks := [{ name := "make", workflow := "P", implementation := some "./make.sh"
                 outputs := ["x"] }] }]

def dryRunOf (a : Artifact) : Conduct (Table RunSnapshot) where
  host := .inMemory (fun _ => .ok ⟨.exited 0, .empty, .empty⟩) fun _ => false
  artifact := a
  options := { dryRun := true }
  runId := "r"

open Conduct in
/-- The dry run fails at the first task of the first space, for want of what that awaits. -/
theorem dryRun_missing_awaiting : ∃ out plans warnings s,
    compile awaiting awaitingWorkflows = .ok out ∧
      planSpaces awaiting awaitingWorkflows = .ok (plans, warnings) ∧
      out.artifact.FindsPlanned plans ∧ (dryRunOf out.artifact).Fresh (fun _ => True) s ∧
      ((dryRunOf out.artifact).run 3 s).1 = .error (.missingInput "A" 0 "C:use" "x") ∧
      ∃ p ∈ plans, p.name = "A" ∧ (∃ t ∈ p.tasks, "x" ∈ t.inputs) ∧
        p.Awaits awaiting.data plans "x" := by
  obtain ⟨⟨plans, warnings⟩, planned, found⟩ :=
    exists_ok (r := planSpaces awaiting awaitingWorkflows)
      (p := fun found => (compile awaiting awaitingWorkflows).toOption.any fun out =>
        out.artifact.FindsPlanned found.1 ∧
          errorOf? ((dryRunOf out.artifact).run 3 onEmptyTable).1 =
            some (.missingInput "A" 0 "C:use" "x"))
      (by decide +kernel)
  obtain ⟨out, compiled, finds, ended⟩ := exists_ok found
  have fresh : (dryRunOf out.artifact).Fresh (fun _ => True) onEmptyTable := inMemory_fresh rfl _
  have failed := errorOf?_eq_some.1 ended
  obtain ⟨p, mem, named, input, awaits, -⟩ :=
    dryRun_missing out warnings compiled planned finds rfl rfl (Host.inMemory_reliable _ _ _)
      fresh failed
  exact ⟨out, plans, warnings, _, compiled, planned, finds, fresh, failed, p, mem, named, input,
    awaits⟩

open Conduct in
/-- An experiment that compiles can fail for want of an input although its run is fresh and dry. -/
theorem dryRun_fails : ∃ out,
    compile awaiting awaitingWorkflows = .ok out ∧ out.artifact.validate = .ok () ∧
      (dryRunOf out.artifact).Fresh (fun _ => True) onEmptyTable ∧
      ((dryRunOf out.artifact).run 3 onEmptyTable).1 =
        .error (.missingInput "A" 0 "C:use" "x") := by
  obtain ⟨out, compiled, valid, ended⟩ := exists_ok (r := compile awaiting awaitingWorkflows)
    (p := fun out => out.artifact.fault? = none ∧
      errorOf? ((dryRunOf out.artifact).run 3 onEmptyTable).1 =
        some (.missingInput "A" 0 "C:use" "x"))
    (by decide +kernel)
  refine ⟨out, compiled, ?_, inMemory_fresh rfl _, errorOf?_eq_some.1 ended⟩
  rw [Artifact.validate, valid]

end Compile

end Sweep
