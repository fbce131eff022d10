import Sweep.Proofs.Run.Ledger
import Sweep.Proofs.Run.Protocol

/-!
# Ledgers of whole calls

Spaces, parameter sets and tasks are recorded one by one, so how they stand could disagree. What
calls that are not cut off leave behind does agree: the sets of a space are recorded in the order of
their indices and only the last one may be open, a completed set has no open task and a completed
space no open set, and a space that the run is not in is completed if it is known at all. So once a
task has failed at all levels, or the run has left a space, nothing can be running.
-/

namespace Sweep.Ledger

/-- The run has not come to a space, or is done with it. -/
def Settled (l : Ledger) (id : String) : Prop :=
  l.spaces id = none ∨ l.spaces id = some .completed

/-- What is recorded of spaces, parameter sets and tasks agrees. -/
structure Orderly (a : Artifact) (l : Ledger) : Prop where
  sets : ∀ {id index}, l.sets (id, index) ≠ none →
    (∃ space, a.space? id = some space ∧ index < space.parameters.length) ∧ l.spaces id ≠ none ∧
      ∀ j < index, l.sets (id, j) = some .completed
  tasks : ∀ {id index task}, l.tasks (id, index, task) ≠ none →
    (∃ space, a.space? id = some space ∧ task ∈ space.tasksOrder) ∧ l.sets (id, index) ≠ none ∧
      l.tasks (id, index, task) ≠ some .running ∧
      (l.sets (id, index) = some .completed → l.tasks (id, index, task) = some .completed)
  closed : ∀ {id}, l.spaces id = some .completed → ∀ {index}, l.sets (id, index) ≠ none →
    l.sets (id, index) = some .completed
  /-- The end is no space that the run could be in. -/
  elsewhere : ∀ {id}, (l.control = some id → id = endMark) → l.Settled id
  charted : ∀ {id}, l.control = some id → id = endMark ∨ (a.space? id).isSome

/-- The records of a task that has failed, of its set and of its space. -/
structure Failed (l : Ledger) (key : TaskKey) : Prop where
  control : l.control = some key.space
  space : l.spaces key.space = some .failed
  set : l.sets (key.space, key.index) = some .failed
  task : l.tasks (key.space, key.index, key.task) = some .failed

/-- Nothing is recorded as running. -/
structure Still (l : Ledger) : Prop where
  spaces : ∀ id, l.spaces id ≠ some .running
  sets : ∀ key, l.sets key ≠ some .running
  tasks : ∀ key, l.tasks key ≠ some .running

/-- Whatever is known of is completed. -/
structure Complete (l : Ledger) : Prop where
  spaces : ∀ {id status}, l.spaces id = some status → status = .completed
  sets : ∀ {key status}, l.sets key = some status → status = .completed
  tasks : ∀ {key status}, l.tasks key = some status → status = .completed

theorem Complete.still {l : Ledger} (h : l.Complete) : l.Still where
  spaces _ running := nomatch h.spaces running
  sets _ running := nomatch h.sets running
  tasks _ running := nomatch h.tasks running

/-! ## How the run as such stands -/

section Status

variable {l : Ledger} (status : RunStatus)

theorem Orderly.setStatus {a : Artifact} (h : l.Orderly a) : (l.setStatus status).Orderly a :=
  ⟨h.sets, h.tasks, h.closed, h.elsewhere, h.charted⟩

theorem Failed.setStatus {key : TaskKey} (h : l.Failed key) : (l.setStatus status).Failed key :=
  ⟨h.control, h.space, h.set, h.task⟩

theorem Still.setStatus (h : l.Still) : (l.setStatus status).Still := ⟨h.spaces, h.sets, h.tasks⟩

theorem Complete.setStatus (h : l.Complete) : (l.setStatus status).Complete :=
  ⟨h.spaces, h.sets, h.tasks⟩

end Status

namespace Orderly

variable {a : Artifact} {l : Ledger} {id task : String} {index : Nat}

theorem blank (hash : String) : (blank hash).Orderly a where
  sets known := absurd rfl known
  tasks known := absurd rfl known
  closed completed := nomatch completed
  elsewhere _ := .inl rfl
  charted here := nomatch here

/-- The values and how the run as such stands do not matter. -/
theorem congr {l' : Ledger} (h : l.Orderly a) (control : l'.control = l.control)
    (spaces : l'.spaces = l.spaces) (sets : l'.sets = l.sets) (tasks : l'.tasks = l.tasks) :
    l'.Orderly a := by
  obtain ⟨_, _, control', spaces', sets', tasks', _, _⟩ := l'
  cases control
  cases spaces
  cases sets
  cases tasks
  exact ⟨h.sets, h.tasks, h.closed, h.elsewhere, h.charted⟩

/-! ## Changes -/

theorem enter (h : l.Orderly a)
    (settled : ∀ other, (id = other → other = endMark) → l.Settled other)
    (known : id = endMark ∨ (a.space? id).isSome) : (l.enter id).Orderly a where
  sets := h.sets
  tasks := h.tasks
  closed := h.closed
  elsewhere apart := settled _ fun same => apart (congrArg some same)
  charted here := Option.some.inj here ▸ known

/-- A space that the run is in may be recorded to stand in any way, but as completed only if its
sets are. -/
theorem setSpace (h : l.Orderly a) (inside : l.control = some id) (proper : id ≠ endMark)
    (status : UnitStatus) (closes : status = .completed → ∀ index, l.sets (id, index) ≠ none →
      l.sets (id, index) = some .completed) : (l.setSpace id status).Orderly a where
  sets {other index} known := by
    obtain ⟨declared, here, before⟩ := h.sets known
    refine ⟨declared, ?_, before⟩
    rw [setSpace_spaces]
    split
    · nofun
    · exact here
  tasks := h.tasks
  closed {other} completed index known := by
    rw [setSpace_spaces] at completed
    split at completed
    · next same =>
      subst same
      exact closes (Option.some.inj completed) index known
    · exact h.closed completed known
  elsewhere {other} apart := by
    have different : other ≠ id := by
      rintro rfl
      exact proper (apart inside)
    rw [Settled, setSpace_spaces, if_neg different]
    exact h.elsewhere apart
  charted := h.charted

theorem reset (h : l.Orderly a) (id : String) : (l.reset id).Orderly a where
  sets {other index} known := by
    simp only [Ledger.reset] at known ⊢
    split at known
    · exact absurd rfl known
    · next apart =>
      obtain ⟨declared, here, before⟩ := h.sets known
      rw [Function.update_of_ne apart]
      exact ⟨declared, here, fun j less => by rw [if_neg apart]; exact before j less⟩
  tasks {other index task} known := by
    simp only [Ledger.reset] at known ⊢
    split at known
    · exact absurd rfl known
    · next apart =>
      rw [if_neg apart, if_neg apart]
      exact h.tasks known
  closed {other} completed index known := by
    simp only [Ledger.reset] at completed known ⊢
    split at known
    · exact absurd rfl known
    · next apart =>
      rw [if_neg apart]
      rw [Function.update_of_ne apart] at completed
      exact h.closed completed known
  elsewhere {other} apart := by
    by_cases same : other = id
    · exact .inl (by simp [Ledger.reset, same])
    · simp only [Settled, Ledger.reset, Function.update_of_ne same]
      exact h.elsewhere apart
  charted := h.charted

/-- The first open set of a space that is not completed may be recorded to stand in any way, but as
completed only if its tasks are. -/
theorem setSet (h : l.Orderly a) {space : SpaceDefinition} (known : a.space? id = some space)
    (inside : index < space.parameters.length) (visited : l.spaces id ≠ none)
    (open_ : l.spaces id ≠ some .completed) (before : ∀ j < index, l.sets (id, j) = some .completed)
    (first : l.sets (id, index) ≠ some .completed) (status : UnitStatus)
    (closes : status = .completed → ∀ task, l.tasks (id, index, task) ≠ none →
      l.tasks (id, index, task) = some .completed) : (l.setSet id index status).Orderly a where
  sets {other i} found := by
    simp only [setSet_sets] at found ⊢
    by_cases same : (other, i) = (id, index)
    · cases same
      refine ⟨⟨space, known, inside⟩, visited, fun j less => ?_⟩
      rw [if_neg (fun key => Nat.ne_of_lt less (Prod.mk.inj key).2)]
      exact before j less
    · rw [if_neg same] at found
      obtain ⟨declared, here, earlier⟩ := h.sets found
      refine ⟨declared, here, fun j less => ?_⟩
      split
      · next key =>
        cases key
        exact absurd (earlier index less) first
      · exact earlier j less
  tasks {other i task} found := by
    obtain ⟨declared, here, resting, done⟩ := h.tasks found
    refine ⟨declared, ?_, resting, fun completed => ?_⟩
    · rw [setSet_sets]
      split
      · nofun
      · exact here
    · rw [setSet_sets] at completed
      split at completed
      · next key =>
        cases key
        exact closes (Option.some.inj completed) task found
      · exact done completed
  closed {other} completed i found := by
    have apart : other ≠ id := by
      rintro rfl
      exact open_ completed
    have different : (other, i) ≠ (id, index) := fun key => apart (Prod.mk.inj key).1
    rw [setSet_sets, if_neg different] at found ⊢
    exact h.closed completed found
  elsewhere := h.elsewhere
  charted := h.charted

/-- A task of an open set may be recorded as completed or failed. -/
theorem setTask (h : l.Orderly a) {space : SpaceDefinition} (known : a.space? id = some space)
    (declared : task ∈ space.tasksOrder) (visited : l.sets (id, index) ≠ none)
    (open_ : l.sets (id, index) ≠ some .completed) (status : UnitStatus)
    (resting : status ≠ .running) : (l.setTask id index task status).Orderly a where
  sets := h.sets
  tasks {other i u} found := by
    simp only [Ledger.setTask, Function.update_apply] at found ⊢
    by_cases same : (other, i, u) = (id, index, task)
    · cases same
      rw [if_pos rfl]
      exact ⟨⟨space, known, declared⟩, visited, fun running => resting (Option.some.inj running),
        fun completed => absurd completed open_⟩
    · rw [if_neg same] at found ⊢
      exact h.tasks found
  closed := h.closed
  elsewhere := h.elsewhere
  charted := h.charted

/-! ## What follows -/

/-- Where no space is open everything is completed. -/
theorem complete (h : l.Orderly a) (settled : ∀ id, l.Settled id) : l.Complete := by
  have spaces {id : String} (known : l.spaces id ≠ none) : l.spaces id = some .completed :=
    (settled id).resolve_left known
  have sets {key : String × Nat} (known : l.sets key ≠ none) : l.sets key = some .completed :=
    h.closed (spaces (h.sets known).2.1) known
  have tasks {key : String × Nat × String} (known : l.tasks key ≠ none) :
      l.tasks key = some .completed :=
    (h.tasks known).2.2.2 (sets (h.tasks known).2.1)
  have only {status : UnitStatus} {found : Option UnitStatus} (known : found = some status)
      (completed : found ≠ none → found = some .completed) : status = .completed :=
    Option.some.inj (known.symm.trans (completed (by rw [known]; nofun)))
  exact ⟨fun known => only known spaces, fun known => only known sets,
    fun known => only known tasks⟩

/-- When a task has failed nothing goes on elsewhere. -/
theorem still_of_failed (h : l.Orderly a) {key : TaskKey} (failed : l.Failed key) : l.Still := by
  have settled {id : String} (apart : id ≠ key.space) : l.Settled id := by
    refine h.elsewhere fun here => ?_
    rw [failed.control] at here
    exact absurd (Option.some.inj here).symm apart
  refine ⟨fun id running => ?_, fun ⟨id, index⟩ running => ?_, fun ⟨id, index, task⟩ running => ?_⟩
  · by_cases same : id = key.space
    · rw [same, failed.space] at running
      cases running
    · rcases settled same with unknown | completed
      · rw [unknown] at running
        cases running
      · rw [completed] at running
        cases running
  · have known : l.sets (id, index) ≠ none := by
      rw [running]
      nofun
    by_cases same : id = key.space
    · subst same
      rcases Nat.lt_trichotomy index key.index with less | rfl | more
      · have visited : l.sets (key.space, key.index) ≠ none := by
          rw [failed.set]
          nofun
        rw [(h.sets visited).2.2 index less] at running
        cases running
      · rw [failed.set] at running
        cases running
      · have done := (h.sets known).2.2 key.index more
        rw [failed.set] at done
        cases done
    · have completed := (settled same).resolve_left (h.sets known).2.1
      rw [h.closed completed known] at running
      cases running
  · exact (h.tasks (by rw [running]; nofun)).2.2.1 running

end Orderly

end Sweep.Ledger
