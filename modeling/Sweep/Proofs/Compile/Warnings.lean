import Sweep.Proofs.Compile.Expansion
import Sweep.Proofs.Compile.Identities
import Sweep.Proofs.Run.Preparing

/-!
# Warnings come true

A compilation warns of a parameter that a task needs and that its space does not define. The sets of
a space bind exactly what the space defines, and a task is found as it was resolved, so the warning
is right in either direction: where it is given, the task cannot be prepared in any set of the
space; where it is not given, no set lacks a parameter of the task.
-/

namespace Sweep

namespace Space

variable {s : Space}

theorem mem_unboundWarnings {t : ResolvedTask} {space id name : String} :
    .unboundDynamicParameter space id name ∈ s.unboundWarnings t ↔
      space = s.name ∧ id = t.id ∧ name ∈ t.dynamicParameters ∧
        ¬∃ p ∈ s.parameters, p.name = name := by
  simp only [unboundWarnings, List.mem_map, List.mem_filter,
    CompileWarning.unboundDynamicParameter.injEq]
  constructor
  · rintro ⟨_, ⟨unbound, undefined⟩, rfl, rfl, rfl⟩
    exact ⟨rfl, rfl, unbound, by simpa using undefined⟩
  · rintro ⟨rfl, rfl, unbound, undefined⟩
    exact ⟨name, ⟨unbound, by simpa using undefined⟩, rfl, rfl, rfl⟩

end Space

namespace Compile

variable {e : Experiment} {workflows : List Workflow} {plans : List SpacePlan} {out : Compilation}
  {warnings : List CompileWarning}

/-- The warnings about unbound parameters of a planned space are those about its tasks. -/
theorem mem_warnings_of_planSpace {s : Space} {w : ResolvedWorkflow} {p : SpacePlan}
    (planned : planSpace s w = .ok (p, warnings)) {space id name : String} :
    .unboundDynamicParameter space id name ∈ warnings ↔
      ∃ t ∈ p.tasks, .unboundDynamicParameter space id name ∈ s.unboundWarnings t := by
  unfold planSpace at planned
  split at planned
  · cases planned
  split at planned
  · cases planned
  next tasks about resolved =>
  cases planned
  unfold Space.resolveTasks at resolved
  obtain ⟨_, -, resolved⟩ := exists_of_bind_ok resolved
  cases resolved
  split
  · next none =>
    rw [List.isEmpty_iff.1 none]
    simp
  · exact List.mem_flatMap

/-- A task of a space is warned of for a parameter exactly if it needs the parameter and the space
does not define it. -/
theorem mem_warnings_iff (compiled : compile e workflows = .ok out)
    (planned : planSpaces e workflows = .ok (plans, warnings)) {p : SpacePlan} (plan : p ∈ plans) :
    ∃ s ∈ e.spaces, (∃ w, PlanOf s w p) ∧ ∀ t ∈ p.tasks, ∀ name,
      .unboundDynamicParameter p.name t.id name ∈ out.warnings ↔
        name ∈ t.dynamicParameters ∧ ¬∃ q ∈ s.parameters, q.name = name := by
  have h := stages compiled planned
  have distinct := h.nodup_plans
  have tasks := h.planned_tasks
  have sameSpace {t u : ResolvedTask} (ht : t ∈ p.tasks) (hu : u ∈ p.tasks) : t.space = u.space :=
    (h.space_eq plan ht).trans (h.space_eq plan hu).symm
  have unique {t u : ResolvedTask} (ht : t ∈ p.tasks) (hu : u ∈ p.tasks) (same : t.id = u.id) :
      t = u :=
    tasks.eq_of_id (List.mem_flatMap.2 ⟨p, plan, ht⟩) (List.mem_flatMap.2 ⟨p, plan, hu⟩)
      (sameSpace ht hu) same
  rw [warnings_of_compile compiled planned]
  obtain ⟨found, follow, rfl, rfl⟩ := found_of_planSpaces planned
  rw [List.map_map] at distinct
  obtain ⟨⟨p, about⟩, among, rfl⟩ := List.mem_map.1 plan
  obtain ⟨s, space, w, made⟩ := exists_of_forall₂ follow.flip among
  refine ⟨s, space, ⟨w, planOf made⟩, fun t task name => ?_⟩
  have named : p.name = s.name := (planOf made).name
  constructor
  · intro warned
    rcases List.mem_append.1 warned with warned | warned
    · obtain ⟨⟨p', about'⟩, among', warned⟩ := List.mem_flatMap.1 warned
      obtain ⟨s', space', w', made'⟩ := exists_of_forall₂ follow.flip among'
      obtain ⟨u, task', told⟩ := (mem_warnings_of_planSpace made').1 warned
      obtain ⟨same, id, unbound, undefined⟩ := Space.mem_unboundWarnings.1 told
      have plansAgree : p'.name = p.name := (planOf made').name.trans same.symm
      obtain ⟨rfl, rfl⟩ := Prod.mk.inj (List.inj_on_of_nodup_map distinct among' among plansAgree)
      obtain rfl := List.inj_on_of_nodup_map (nodup_spaces h.spaces) space' space
        (same.symm.trans named)
      obtain rfl := unique task task' id
      exact ⟨unbound, undefined⟩
    · obtain ⟨_, -, other⟩ := List.mem_map.1 warned
      cases other
  · rintro ⟨unbound, undefined⟩
    apply List.mem_append_left
    refine List.mem_flatMap.2 ⟨_, among, (mem_warnings_of_planSpace made).2 ⟨t, task, ?_⟩⟩
    exact Space.mem_unboundWarnings.2 ⟨named, rfl, unbound, undefined⟩

/-- A task lacks a parameter in one set of a space exactly if it does in all of them, and exactly if
the compilation warned of a parameter of the task. -/
theorem warns_iff_lacksParameter (compiled : compile e workflows = .ok out)
    (planned : planSpaces e workflows = .ok (plans, warnings))
    (distinct : out.artifact.taskIds.Nodup) {space : SpaceDefinition}
    (mem : space ∈ out.artifact.spaces) :
    ∃ p ∈ plans, p.name = space.spaceId ∧ List.Forall₂ (fun t id =>
      ∃ d, out.artifact.task? id = some d ∧ d.Implements t ∧
        ∀ {S : Type} (c : Conduct S) (s : Session S),
          ((∃ entry ∈ space.parameters.zipIdx, c.LacksParameter space entry.2 entry.1 d s) ↔
            ∀ entry ∈ space.parameters.zipIdx, c.LacksParameter space entry.2 entry.1 d s) ∧
          ((∃ entry ∈ space.parameters.zipIdx, c.LacksParameter space entry.2 entry.1 d s) ↔
            ∃ name, .unboundDynamicParameter space.spaceId t.id name ∈ out.warnings))
      p.tasks space.tasksOrder := by
  have h := stages compiled planned
  obtain ⟨p, plan, realized⟩ := h.exists_realized (h.findsPlanned distinct) mem
  obtain ⟨s, -, ⟨w, made⟩, warned⟩ := mem_warnings_iff compiled planned plan
  refine ⟨p, plan, realized.spaceId.symm, ?_⟩
  refine ((List.forall₂_and_left _ _).2 ⟨fun t task => task, realized.tasks⟩).imp ?_
  rintro t id ⟨task, d, found, implements⟩
  refine ⟨d, found, implements, fun {S} c s₁ => ?_⟩
  have expanded : s.parameterSets = .ok space.parameters :=
    made.parameterSets.trans (congrArg _ realized.parameters.symm)
  -- In each set the task lacks what the space does not define, which does not depend on the set.
  have each : ∀ entry ∈ space.parameters.zipIdx, c.LacksParameter space entry.2 entry.1 d s₁ ↔
      ∃ name ∈ t.dynamicParameters, ¬∃ q ∈ s.parameters, q.name = name := by
    intro entry among
    have set : entry.1 ∈ space.parameters := List.fst_mem_of_mem_zipIdx among
    rw [Conduct.lacksParameter_iff, implements.dynamicParameters]
    simp only [Space.get?_eq_none_iff expanded set]
  have told : (∃ name, .unboundDynamicParameter space.spaceId t.id name ∈ out.warnings) ↔
      ∃ name ∈ t.dynamicParameters, ¬∃ q ∈ s.parameters, q.name = name := by
    rw [realized.spaceId]
    exact exists_congr fun name => warned t task name
  have some : space.parameters.zipIdx ≠ [] := by
    intro none
    exact Space.ne_nil_of_parameterSets expanded (List.zipIdx_eq_nil_iff.1 none)
  obtain ⟨first, among⟩ := List.exists_mem_of_ne_nil _ some
  rw [told]
  constructor
  · constructor
    · rintro ⟨entry, listed, lacks⟩ other also
      exact (each other also).2 ((each entry listed).1 lacks)
    · intro all
      exact ⟨first, among, all first among⟩
  · constructor
    · rintro ⟨entry, listed, lacks⟩
      exact (each entry listed).1 lacks
    · intro unbound
      exact ⟨first, among, (each first among).2 unbound⟩

/-- A workflow of two tasks with a parameter in common, of which the first has another one, too. -/
def tuned : Workflow :=
  { name := "W"
    tasks :=
      [{ name := "t", workflow := "W", implementation := some "./t.sh"
         parameters := [.dynamic "size", .dynamic "rate"] },
       { name := "u", workflow := "W", implementation := some "./u.sh"
         parameters := [.dynamic "size"] }] }

/-- A space of two sets that defines the common parameter only. -/
def halfTuned : Experiment :=
  { name := "E"
    spaces :=
      [{ name := "A", workflow := "W"
         parameters := [{ name := "size", domain := .enumeration [.ofInt 1, .ofInt 2] }] }] }

/-- The task of which the compilation warns lacks its parameter in both sets, the other task in
none. -/
theorem warns_iff_lacksParameter_halfTuned : ∃ out, compile halfTuned [tuned] = .ok out ∧
    ∃ space ∈ out.artifact.spaces, space.parameters.length = 2 ∧
      ∃ d d', out.artifact.task? "W:t" = some d ∧ out.artifact.task? "W:u" = some d' ∧
        ∀ {S : Type} (c : Conduct S) (s : Session S),
          (∀ entry ∈ space.parameters.zipIdx, c.LacksParameter space entry.2 entry.1 d s) ∧
          ¬∃ entry ∈ space.parameters.zipIdx, c.LacksParameter space entry.2 entry.1 d' s := by
  obtain ⟨out, compiled, distinct, warned, shape⟩ :=
    exists_ok (r := compile halfTuned [tuned])
      (p := fun out => out.artifact.taskIds.Nodup ∧
        out.warnings = [.unboundDynamicParameter "A" "W:t" "rate"] ∧
        out.artifact.spaces.map (fun s => (s.spaceId, s.tasksOrder, s.parameters.length)) =
          [("A", ["W:t", "W:u"], 2)]) (by decide +kernel)
  obtain ⟨⟨plans, warnings⟩, planned, ids⟩ :=
    exists_ok (r := planSpaces halfTuned [tuned])
      (p := fun found => found.1.map (fun p => p.tasks.map (·.id)) = [["W:t", "W:u"]])
      (by decide +kernel)
  obtain ⟨space, spaces, only⟩ := List.map_eq_singleton_iff.1 shape
  obtain ⟨name, order, length⟩ := by simpa using only
  have mem : space ∈ out.artifact.spaces := spaces ▸ List.mem_singleton_self space
  obtain ⟨p, plan, -, tasks⟩ := warns_iff_lacksParameter compiled planned distinct mem
  have two : p.tasks.map (·.id) = ["W:t", "W:u"] :=
    List.mem_singleton.1 (ids ▸ List.mem_map_of_mem plan)
  obtain ⟨t, rest, shape', id, two⟩ := List.map_eq_cons_iff.1 two
  obtain ⟨u, rfl, id'⟩ := List.map_eq_singleton_iff.1 two
  rw [shape', order] at tasks
  obtain - | ⟨⟨d, found, -, first⟩, - | ⟨⟨d', found', -, second⟩, -⟩⟩ := tasks
  refine ⟨out, compiled, space, mem, length, d, d', found, found', fun c s => ⟨?_, ?_⟩⟩
  · rw [← (first c s).1, (first c s).2, warned, name, id]
    exact ⟨"rate", List.mem_singleton_self _⟩
  · rw [(second c s).2, warned, name, id']
    rintro ⟨other, told⟩
    simp at told

end Compile

end Sweep
