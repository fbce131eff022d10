import Sweep.Compile.Basic
import Sweep.Proofs.Compile.Merging
import Sweep.Proofs.Compile.Sharing

/-!
# What a compilation is made of

A compilation that succeeds has gone through all its stages. The plans stand in the order of the
spaces, each is what its space makes of a resolved workflow, and the spaces have different names. So
a space and an identity name one planned task.
-/

namespace Sweep.Compile

/-! ## The stages -/

/-- The stages of a compilation that succeeds, with what each of them has found. -/
structure Stages (e : Experiment) (workflows : List Workflow) (plans : List SpacePlan)
    (a : Artifact) : Prop where
  spaces : checkSpaces e = .ok ()
  planned : ∃ warnings, planSpaces e workflows = .ok (plans, warnings)
  data : SpacePlan.checkData plans e.data = .ok ()
  assembled : ∃ control, a = assemble e plans control

theorem stages {e : Experiment} {workflows : List Workflow} {out : Compilation}
    {plans : List SpacePlan} {warnings : List CompileWarning}
    (compiled : compile e workflows = .ok out)
    (planned : planSpaces e workflows = .ok (plans, warnings)) :
    Stages e workflows plans out.artifact := by
  unfold compile at compiled
  cases spaces : checkSpaces e with
  | error failure =>
    rw [spaces] at compiled
    cases compiled
  | ok =>
    rw [spaces, planned] at compiled
    simp only [bind, Except.bind] at compiled
    cases data : SpacePlan.checkData plans e.data with
    | error failure =>
      rw [data] at compiled
      cases compiled
    | ok =>
      rw [data] at compiled
      cases control : ControlGraph.build (e.spaces.map (·.name)) e.control with
      | error failure =>
        rw [control] at compiled
        cases compiled
      | ok graph =>
        rw [control] at compiled
        cases compiled
        exact ⟨spaces, ⟨_, planned⟩, data, graph, rfl⟩

theorem exists_plans {e : Experiment} {workflows : List Workflow} {out : Compilation}
    (compiled : compile e workflows = .ok out) :
    ∃ plans warnings, planSpaces e workflows = .ok (plans, warnings) := by
  unfold compile at compiled
  cases spaces : checkSpaces e with
  | error failure =>
    rw [spaces] at compiled
    cases compiled
  | ok =>
    cases planned : planSpaces e workflows with
    | error failure =>
      rw [spaces, planned] at compiled
      cases compiled
    | ok found => exact ⟨found.1, found.2, rfl⟩

/-- The warnings of a compilation are those of planning, and that workflows are not used. -/
theorem warnings_of_compile {e : Experiment} {workflows : List Workflow} {out : Compilation}
    {plans : List SpacePlan} {warnings : List CompileWarning}
    (compiled : compile e workflows = .ok out)
    (planned : planSpaces e workflows = .ok (plans, warnings)) :
    out.warnings = warnings ++ (unusedWorkflows e workflows).map .unusedWorkflow := by
  unfold compile at compiled
  obtain ⟨_, -, compiled⟩ := exists_of_bind_ok compiled
  obtain ⟨_, found, compiled⟩ := exists_of_bind_ok compiled
  obtain ⟨_, -, compiled⟩ := exists_of_bind_ok compiled
  obtain ⟨_, -, compiled⟩ := exists_of_bind_ok compiled
  rw [planned] at found
  cases found
  cases compiled
  rfl

/-! ## The names of spaces -/

theorem nodup_of_duplicates {seen names : List String}
    (none : checkSpaces.duplicates seen names = []) :
    names.Nodup ∧ ∀ name ∈ names, name ∉ seen := by
  induction names generalizing seen with
  | nil => exact ⟨List.nodup_nil, nofun⟩
  | cons name rest ih =>
    rw [checkSpaces.duplicates, List.append_eq_nil_iff] at none
    obtain ⟨distinct, others⟩ := ih none.2
    have new : name ∉ seen := by
      intro mem
      rw [if_pos (List.contains_iff_mem.2 mem)] at none
      cases none.1
    refine ⟨List.nodup_cons.2 ⟨fun mem => others name mem List.mem_cons_self, distinct⟩, ?_⟩
    intro other mem
    rcases List.mem_cons.1 mem with rfl | mem
    · exact new
    · exact fun seen => others other mem (List.mem_cons_of_mem _ seen)

theorem nodup_spaces {e : Experiment} (checked : checkSpaces e = .ok ()) :
    (e.spaces.map (·.name)).Nodup := by
  unfold checkSpaces at checked
  split at checked
  · cases checked
  · exact (nodup_of_duplicates (CompileFailure.check_eq_ok_iff.1 checked)).1

/-! ## The plans -/

structure PlanOf (s : Space) (w : ResolvedWorkflow) (p : SpacePlan) : Prop where
  name : p.name = s.name
  resolved : ∃ warnings, s.resolveTasks w = .ok (p.tasks, warnings)
  tasks : p.tasks = (Space.orderedTasks w).map (s.resolveTask w)
  workflowData : p.workflowData = w.data
  spaceData : p.spaceData = s.data
  parameterSets : s.parameterSets = .ok p.parameterSets

theorem planOf {s : Space} {w : ResolvedWorkflow} {p : SpacePlan} {warnings : List CompileWarning}
    (h : planSpace s w = .ok (p, warnings)) : PlanOf s w p := by
  unfold planSpace at h
  cases sets : s.parameterSets with
  | error failure =>
    rw [sets] at h
    cases h
  | ok parameterSets =>
    rw [sets] at h
    cases resolved : s.resolveTasks w with
    | error failure =>
      rw [resolved] at h
      cases h
    | ok found =>
      rw [resolved] at h
      cases h
      exact ⟨rfl, ⟨found.2, resolved⟩, (Space.of_resolveTasks resolved).1, rfl, rfl, sets⟩

/-- The tasks of a plan are tasks of its workflow as its space sees them. -/
theorem PlanOf.exists_task {s : Space} {w : ResolvedWorkflow} {p : SpacePlan} (made : PlanOf s w p)
    {t : ResolvedTask} (mem : t ∈ p.tasks) :
    ∃ task, w.task? t.name = some task ∧ t = s.resolveTask w task := by
  rw [made.tasks] at mem
  obtain ⟨task, ordered, rfl⟩ := List.mem_map.1 mem
  obtain ⟨name, -, found⟩ := List.mem_filterMap.1 ordered
  have kept : (s.resolveTask w task).name = task.name := task.configuredBy_name s.configurations
  exact ⟨task, by rwa [kept, (w.of_task? found).2], rfl⟩

/-- A space is planned over its workflow, if that is known and is resolved. -/
theorem add_planned {p : Planning} {s : Space} {w : ResolvedWorkflow} {lineages : Lineages}
    {plan : SpacePlan} {warnings : List CompileWarning}
    (known : p.lineages.contains s.workflow = true)
    (resolved : p.lineages.resolve s.workflow = (.ok w, lineages))
    (planned : planSpace s w = .ok (plan, warnings)) :
    p.add s = { p with lineages, plans := p.plans ++ [plan],
                       warnings := p.warnings ++ warnings } := by
  rw [Planning.add, if_neg (by rw [known]; decide), resolved]
  dsimp only
  rw [planned]

/-- What is planned without error is planned over the space's resolved workflow. -/
theorem exists_of_add {p : Planning} {s : Space} (fine : (p.add s).errors = []) :
    p.errors = [] ∧ p.lineages.contains s.workflow = true ∧ ∃ w lineages plan warnings,
      p.lineages.resolve s.workflow = (.ok w, lineages) ∧
        planSpace s w = .ok (plan, warnings) := by
  unfold Planning.add at fine
  split at fine
  · simp at fine
  · next known =>
    split at fine
    · next failure lineages resolved =>
      dsimp only at fine
      split at fine
      · next listed =>
        rw [fine] at listed
        cases listed
      · simp at fine
    · next w lineages resolved =>
      cases planned : planSpace s w with
      | error errors =>
        rw [planned] at fine
        obtain ⟨-, none⟩ := List.append_eq_nil_iff.1 fine
        unfold planSpace at planned
        split at planned
        · cases planned
          cases none
        · split at planned
          · cases planned
            cases none
          · cases planned
      | ok found =>
        rw [planned] at fine
        exact ⟨fine, by simpa using known, w, lineages, found.1, found.2, resolved, planned⟩

/-- Plans stand in the order of the spaces that they are made of. -/
def Follow (spaces : List Space) (plans : List SpacePlan) : Prop :=
  List.Forall₂ (fun s p => ∃ w, PlanOf s w p) spaces plans

namespace Follow

variable {spaces : List Space} {plans : List SpacePlan}

theorem map_name (h : Follow spaces plans) : spaces.map (·.name) = plans.map (·.name) := by
  induction h with
  | nil => rfl
  | cons made _ ih =>
    obtain ⟨w, made⟩ := made
    rw [List.map_cons, List.map_cons, made.name, ih]

theorem exists_planOf (h : Follow spaces plans) {p : SpacePlan} (mem : p ∈ plans) :
    ∃ s ∈ spaces, ∃ w, PlanOf s w p :=
  exists_of_forall₂ (List.Forall₂.flip h) mem

end Follow

/-- The plan of each space, and the warnings about it. -/
def Found (spaces : List Space) (found : List (SpacePlan × List CompileWarning)) : Prop :=
  List.Forall₂ (fun s f => ∃ w, planSpace s w = .ok f) spaces found

theorem Found.follow {spaces : List Space} {found : List (SpacePlan × List CompileWarning)}
    (h : Found spaces found) : Follow spaces (found.map (·.1)) := by
  refine List.forall₂_map_right_iff.2 (h.imp ?_)
  rintro s f ⟨w, planned⟩
  exact ⟨w, planOf planned⟩

theorem found_of_fold {spaces : List Space} {p : Planning}
    (fine : (spaces.foldl Planning.add p).errors = []) :
    p.errors = [] ∧ ∃ found, Found spaces found ∧
      (spaces.foldl Planning.add p).plans = p.plans ++ found.map (·.1) ∧
      (spaces.foldl Planning.add p).warnings = p.warnings ++ found.flatMap (·.2) := by
  induction spaces generalizing p with
  | nil => exact ⟨fine, [], .nil, (List.append_nil _).symm, (List.append_nil _).symm⟩
  | cons s rest ih =>
    obtain ⟨first, found, follow, plans, warnings⟩ := ih fine
    obtain ⟨before, known, w, lineages, plan, about, resolved, planned⟩ := exists_of_add first
    refine ⟨before, (plan, about) :: found, .cons ⟨w, planned⟩ follow, ?_, ?_⟩
    · rw [List.foldl_cons, plans, add_planned known resolved planned, List.append_assoc]
      rfl
    · rw [List.foldl_cons, warnings, add_planned known resolved planned, List.append_assoc]
      rfl

/-- What planning comes to is found space by space. -/
theorem found_of_planSpaces {e : Experiment} {workflows : List Workflow} {plans : List SpacePlan}
    {warnings : List CompileWarning} (planned : planSpaces e workflows = .ok (plans, warnings)) :
    ∃ found, Found e.spaces found ∧ plans = found.map (·.1) ∧ warnings = found.flatMap (·.2) := by
  unfold planSpaces at planned
  simp only at planned
  cases checked : CompileFailure.check
      (e.spaces.foldl Planning.add { lineages := .ofWorkflows workflows }).errors with
  | error failure =>
    rw [checked] at planned
    cases planned
  | ok =>
    rw [checked] at planned
    obtain ⟨-, found, follow, plans, warnings⟩ :=
      found_of_fold (CompileFailure.check_eq_ok_iff.1 checked)
    cases planned
    exact ⟨found, follow, plans, warnings⟩

variable {e : Experiment} {workflows : List Workflow} {plans : List SpacePlan} {a : Artifact}

namespace Stages

theorem plans_follow (h : Stages e workflows plans a) :
    Follow e.spaces plans := by
  obtain ⟨warnings, planned⟩ := h.planned
  obtain ⟨found, follow, rfl, -⟩ := found_of_planSpaces planned
  exact follow.follow

theorem nodup_plans (h : Stages e workflows plans a) : (plans.map (·.name)).Nodup :=
  h.plans_follow.map_name ▸ nodup_spaces h.spaces

theorem exists_planOf (h : Stages e workflows plans a) {p : SpacePlan} (mem : p ∈ plans) :
    ∃ s ∈ e.spaces, ∃ w, PlanOf s w p :=
  h.plans_follow.exists_planOf mem

theorem space_eq (h : Stages e workflows plans a) {p : SpacePlan} (mem : p ∈ plans)
    {t : ResolvedTask} (task : t ∈ p.tasks) : t.space = p.name := by
  obtain ⟨s, -, w, made⟩ := h.exists_planOf mem
  obtain ⟨_, -, rfl⟩ := made.exists_task task
  exact made.name.symm

theorem planned_tasks (h : Stages e workflows plans a) :
    Sharing.Planned (plans.flatMap (·.tasks)) := by
  have source {t : ResolvedTask} (mem : t ∈ plans.flatMap (·.tasks)) :
      ∃ p ∈ plans, t ∈ p.tasks := List.mem_flatMap.1 mem
  have samePlan {p q : SpacePlan} (hp : p ∈ plans) (hq : q ∈ plans) {t u : ResolvedTask}
      (ht : t ∈ p.tasks) (hu : u ∈ q.tasks) (same : t.space = u.space) : p = q := by
    rw [h.space_eq hp ht, h.space_eq hq hu] at same
    exact List.inj_on_of_nodup_map h.nodup_plans hp hq same
  refine ⟨?_, ?_, ?_⟩
  · intro t mem
    obtain ⟨p, hp, mem⟩ := source mem
    obtain ⟨s, -, w, made⟩ := h.exists_planOf hp
    obtain ⟨task, -, rfl⟩ := made.exists_task mem
    rfl
  · intro t ht u hu same
    obtain ⟨p, hp, ht⟩ := source ht
    obtain ⟨q, hq, hu⟩ := source hu
    obtain rfl := samePlan hp hq ht hu same
    obtain ⟨s, -, w, made⟩ := h.exists_planOf hp
    obtain ⟨_, -, rfl⟩ := made.exists_task ht
    obtain ⟨_, -, rfl⟩ := made.exists_task hu
    rfl
  · intro t ht u hu same named
    obtain ⟨p, hp, ht⟩ := source ht
    obtain ⟨q, hq, hu⟩ := source hu
    obtain rfl := samePlan hp hq ht hu same
    obtain ⟨s, -, w, made⟩ := h.exists_planOf hp
    obtain ⟨task, found, rfl⟩ := made.exists_task ht
    obtain ⟨other, found', rfl⟩ := made.exists_task hu
    rw [named, found'] at found
    rw [Option.some.inj found]

end Stages

end Sweep.Compile
