import Sweep.Artifact.Basic

/-!
# What a valid artifact defines

An artifact is valid exactly when the tasks in the orders of its spaces, the start and the ends of
its transitions are all defined.
-/

namespace Sweep.Artifact

variable {a : Artifact}

theorem task?_taskId {id : String} {t : TaskDefinition} (h : a.task? id = some t) :
    t.taskId = id := by
  have found := List.find?_some h
  simpa using found

theorem space?_spaceId {id : String} {space : SpaceDefinition} (h : a.space? id = some space) :
    space.spaceId = id := by
  have found := List.find?_some h
  simpa using found

theorem unknownTask?_eq_none {space : SpaceDefinition} :
    a.unknownTask? space = none ↔ ∀ id ∈ space.tasksOrder, (a.task? id).isSome := by
  simp only [unknownTask?, Option.map_eq_none_iff, List.find?_eq_none, Option.isNone_iff_eq_none,
    Option.isSome_iff_ne_none, ne_eq]

/-- An artifact is valid exactly when every name that it uses is defined. -/
theorem validate_eq_ok : a.validate = .ok () ↔
    (∀ space ∈ a.spaces, ∀ id ∈ space.tasksOrder, (a.task? id).isSome) ∧
      (a.space? a.control.start).isSome ∧
      ∀ t ∈ a.control.transitions, a.declares t = true := by
  have noFault : a.validate = .ok () ↔ a.fault? = none := by
    rw [validate]
    cases a.fault? <;> simp
  rw [noFault, fault?]
  cases spaces : a.spaces.findSome? a.unknownTask? with
  | some fault =>
    obtain ⟨space, mem, unknown⟩ := List.exists_of_findSome?_eq_some spaces
    simp only [reduceCtorEq, false_iff, not_and]
    intro defined
    rw [unknownTask?_eq_none.2 (defined space mem)] at unknown
    cases unknown
  | none =>
    have defined : ∀ space ∈ a.spaces, ∀ id ∈ space.tasksOrder, (a.task? id).isSome :=
      fun space mem => unknownTask?_eq_none.1 (List.findSome?_eq_none_iff.1 spaces space mem)
    cases start : a.space? a.control.start with
    | none => simp
    | some space =>
      simp only [Option.isNone_some, Bool.false_eq_true, if_false, Option.map_eq_none_iff,
        List.find?_eq_none, Bool.not_eq_true', Bool.not_eq_false, Option.isSome_some, true_and]
      constructor
      · intro declared
        exact ⟨defined, declared⟩
      · intro h
        exact h.2

/-- The tasks of a space of a valid artifact are defined. -/
theorem task?_of_validate (valid : a.validate = .ok ()) {id : String} {space : SpaceDefinition}
    (found : a.space? id = some space) :
    ∀ task ∈ space.tasksOrder, ∃ t, a.task? task = some t :=
  fun task mem => Option.isSome_iff_exists.1
    ((validate_eq_ok.1 valid).1 space (List.mem_of_find?_eq_some found) task mem)

end Sweep.Artifact
