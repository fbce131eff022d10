import Sweep.Proofs.Run.Orderly
import Sweep.Proofs.Run.Recording

/-!
# What a call leaves behind

A call that is not cut off leaves an orderly ledger, if it finds one. What it leaves beyond that
depends on how it ends: after a failure the run is recorded as failed with the text of the failure,
and nothing as running; at the end of the way everything is completed. Whatever an earlier call has
left open is written over before anything else can fail.
-/

namespace Sweep

variable {S : Type}

structure Ledger.Underway (a : Artifact) (l : Ledger) : Prop where
  orderly : l.Orderly a
  going : l.status ≠ .completed

/-- The ledger that an error is met in: after a failure the task, its set and its space have failed,
and other errors but a termination are only met between spaces. -/
structure Ledger.Meets (a : Artifact) (e : RunError) (l : Ledger) : Prop where
  underway : l.Underway a
  failed : ∀ key, e.task? = some key → l.Failed key
  between : e.task? = none → e.isTermination = false → ∀ id, l.Settled id

structure RunSnapshot.FailedBy (a : Artifact) (e : RunError) (x : RunSnapshot) : Prop where
  orderly : x.ledger.Orderly a
  status : x.run.status = .failed
  error : x.run.error = some e.message
  finished : x.run.finishedAt.isSome
  /-- A task that has failed has failed at all levels. -/
  failed : ∀ key, e.task? = some key → x.ledger.Failed key
  still : x.ledger.Still

theorem RunSnapshot.FailedBy.underway {a : Artifact} {e : RunError} {x : RunSnapshot}
    (h : x.FailedBy a e) : x.ledger.Underway a where
  orderly := h.orderly
  going completed := nomatch h.status.symm.trans completed

structure RunSnapshot.Finished (a : Artifact) (x : RunSnapshot) : Prop where
  orderly : x.ledger.Orderly a
  status : x.run.status = .completed
  position : x.run.currentSpace = none ∧ x.run.currentSet = none ∧ x.run.currentTask = none
  control : x.ledger.control = some endMark
  complete : x.ledger.Complete

structure RunSnapshot.ShowsFailure (e : RunError) (x : RunSnapshot) : Prop where
  status : x.run.status = .failed
  error : x.run.error = some e.message
  finished : x.run.finishedAt.isSome
  spaces : ∀ r ∈ x.spaces, r.status ≠ .running
  sets : ∀ r ∈ x.sets, r.status ≠ .running
  tasks : ∀ r ∈ x.tasks, r.status ≠ .running
  /-- If a task has failed, so have its set and its space. -/
  failed : ∀ key, e.task? = some key → (x.space? key.space).map (·.status) = some .failed ∧
    (x.set? key.space key.index).map (·.status) = some .failed ∧
    (x.task? key.space key.index key.task).map (·.status) = some .failed

structure RunSnapshot.ShowsEnd (x : RunSnapshot) : Prop where
  status : x.run.status = .completed
  position : x.run.currentSpace = none ∧ x.run.currentSet = none ∧ x.run.currentTask = none
  control : x.control.map (·.space) = some endMark
  spaces : ∀ r ∈ x.spaces, r.status = .completed
  sets : ∀ r ∈ x.sets, r.status = .completed
  tasks : ∀ r ∈ x.tasks, r.status = .completed

theorem RunSnapshot.FailedBy.shows {a : Artifact} {e : RunError} {x : RunSnapshot}
    (h : x.FailedBy a e) (keyed : x.Keyed) : x.ShowsFailure e where
  status := h.status
  error := h.error
  finished := h.finished
  spaces _ mem running := h.still.spaces _ (running ▸ keyed.space_eq mem)
  sets _ mem running := h.still.sets _ (running ▸ keyed.set_eq mem)
  tasks _ mem running := h.still.tasks _ (running ▸ keyed.task_eq mem)
  failed key named := ⟨(h.failed key named).space, (h.failed key named).set,
    (h.failed key named).task⟩

theorem RunSnapshot.Finished.shows {a : Artifact} {x : RunSnapshot} (h : x.Finished a)
    (keyed : x.Keyed) : x.ShowsEnd where
  status := h.status
  position := h.position
  control := h.control
  spaces _ mem := h.complete.spaces (keyed.space_eq mem)
  sets _ mem := h.complete.sets (keyed.set_eq mem)
  tasks _ mem := h.complete.tasks (keyed.task_eq mem)

namespace Ledger

variable {a : Artifact} {l : Ledger}

theorem Underway.meets_terminated (h : l.Underway a) (runId : String) :
    l.Meets a (.terminated runId) := ⟨h, nofun, nofun⟩

theorem Meets.still {e : RunError} (h : l.Meets a e) (other : e.isTermination = false) :
    l.Still := by
  cases named : e.task? with
  | none => exact (h.underway.orderly.complete (h.between named other)).still
  | some key => exact h.underway.orderly.still_of_failed (h.failed key named)

theorem setTask_setTask (l : Ledger) (space : String) (index : Nat) (task : String)
    (status status' : UnitStatus) : (l.setTask space index task status).setTask space index task
      status' = l.setTask space index task status' := by
  simp only [setTask, Function.update_idem]

/-- A task fails together with its set and its space. -/
theorem Underway.meets_failed (h : l.Underway a) {space : SpaceDefinition} {index : Nat}
    {task : String} (found : a.space? space.spaceId = some space) (proper : space.spaceId ≠ endMark)
    (declared : task ∈ space.tasksOrder) (works : l.WorksOn space.spaceId index) {e : RunError}
    (named : e.task? = some ⟨space.spaceId, index, task⟩) :
    (((l.setTask space.spaceId index task .failed).setSet space.spaceId index .failed).setSpace
      space.spaceId .failed).Meets a e := by
  have visited : l.sets (space.spaceId, index) ≠ none := by simp [works.2]
  have open_ : l.sets (space.spaceId, index) ≠ some .completed := by simp [works.2]
  have tasks := h.orderly.setTask found declared visited open_ .failed (by decide)
  obtain ⟨⟨space', found', inside⟩, -, before⟩ := h.orderly.sets visited
  cases found.symm.trans found'
  have sets := tasks.setSet found inside (by simp [setTask, works.1.2])
    (by simp [setTask, works.1.2]) before open_ .failed (by rintro ⟨⟩)
  refine ⟨⟨sets.setSpace works.1.1 proper .failed (by rintro ⟨⟩), h.going⟩,
    fun key same => ?_, fun none => ?_⟩
  · cases named.symm.trans same
    exact ⟨works.1.1, Function.update_self .., Function.update_self .., Function.update_self ..⟩
  · rw [named] at none
    cases none

/-- The first open set of a space that is visited is started. -/
theorem Underway.startSet (h : l.Underway a) {space : SpaceDefinition} {index : Nat}
    (found : a.space? space.spaceId = some space) (inside : index < space.parameters.length)
    (visits : l.Visits space.spaceId)
    (before : ∀ j < index, l.sets (space.spaceId, j) = some .completed)
    (open_ : l.sets (space.spaceId, index) ≠ some .completed) :
    (l.setSet space.spaceId index .running).Underway a ∧
      (l.setSet space.spaceId index .running).WorksOn space.spaceId index :=
  ⟨⟨h.orderly.setSet found inside (by simp [visits.2]) (by simp [visits.2]) before open_ .running
    (by rintro ⟨⟩), h.going⟩, visits, Function.update_self ..⟩

/-- A set is completed when all its tasks are, and so are then all sets up to it. -/
theorem Underway.completeSet (h : l.Underway a) {space : SpaceDefinition} {index : Nat}
    (found : a.space? space.spaceId = some space) (works : l.WorksOn space.spaceId index)
    (done : ∀ task ∈ space.tasksOrder,
      l.tasks (space.spaceId, index, task) = some .completed) :
    (l.setSet space.spaceId index .completed).Underway a ∧
      ∀ j < index + 1,
        (l.setSet space.spaceId index .completed).sets (space.spaceId, j) = some .completed := by
  have visited : l.sets (space.spaceId, index) ≠ none := by simp [works.2]
  obtain ⟨⟨space', found', inside⟩, -, before⟩ := h.orderly.sets visited
  cases found.symm.trans found'
  refine ⟨⟨h.orderly.setSet found inside (by simp [works.1.2]) (by simp [works.1.2]) before
    (by simp [works.2]) .completed fun _ task listed => ?_, h.going⟩, fun j upTo => ?_⟩
  · obtain ⟨⟨space', found', declared⟩, -⟩ := h.orderly.tasks listed
    cases found.symm.trans found'
    exact done task declared
  · rw [setSet_sets]
    rcases Nat.lt_succ_iff_lt_or_eq.1 upTo with less | rfl
    · rw [before j less, ite_self]
    · rw [if_pos rfl]

/-- From one ledger to another nothing has changed but that some tasks of a set were completed. -/
structure Advances (space : String) (index : Nat) (tasks : List String) (l l' : Ledger) : Prop where
  frame : l' = { l with tasks := l'.tasks, values := l'.values, latest := l'.latest }
  done : ∀ task ∈ tasks, l'.tasks (space, index, task) = some .completed
  stays : ∀ key, l.tasks key = some .completed → l'.tasks key = some .completed

namespace Advances

variable {space : String} {index : Nat} {tasks tasks' : List String} {l' l'' : Ledger}

theorem refl (l : Ledger) : l.Advances space index [] l := ⟨rfl, nofun, fun _ done => done⟩

theorem trans (first : l.Advances space index tasks l')
    (second : l'.Advances space index tasks' l'') :
    l.Advances space index (tasks ++ tasks') l'' := by
  refine ⟨?_, fun task mem => ?_, fun key done => second.stays key (first.stays key done)⟩
  · rw [second.frame, first.frame]
  · exact (List.mem_append.1 mem).elim (fun mem => second.stays _ (first.done task mem))
      (second.done task)

theorem setTask (values : String × Nat × String → Option String) (latest : String → Option String)
    (task : String) : l.Advances space index [task]
      { l.setTask space index task .completed with values, latest } := by
  refine ⟨rfl, fun other mem => ?_, fun key done => ?_⟩
  · cases List.mem_singleton.1 mem
    exact Function.update_self ..
  · simp only [Ledger.setTask, Function.update_apply, done, ite_self]

theorem works (h : l.Advances space index tasks l') {other : String} {i : Nat}
    (works : l.WorksOn other i) : l'.WorksOn other i := by
  rw [WorksOn, Visits, h.frame]
  exact works

end Advances

end Ledger

namespace Conduct

/-- An activity that leaves a ledger of a kind when it comes to its end, and otherwise one that its
error may be met in. -/
abbrev Leaves {α : Type} (c : Conduct S) (kept : S → Prop) (a : Activity S α) (x : RunSnapshot)
    (R : α → Ledger → Prop) : Prop :=
  c.Upholds kept (fun _ => True) (fun e y => y.ledger.Meets c.artifact e) a x
    fun v y => R v y.ledger

/-- An activity at whose end the run is recorded as it has ended, unless it has not. -/
abbrev RecordsEnd {α : Type} (c : Conduct S) (kept : S → Prop) (a : Activity S (Option α))
    (x : RunSnapshot) : Prop :=
  c.Upholds kept (fun _ => True) (fun e y => y.ledger.Underway c.artifact ∧
    (e.isTermination = false → y.FailedBy c.artifact e)) a x
    fun ended y => ended ≠ none → y.Finished c.artifact

variable {c : Conduct S} {kept : S → Prop} {x : RunSnapshot}

section Changes

variable (reliable : c.host.Reliable c.runId kept)

include reliable

/-- A change that succeeds. -/
theorem leaves_record {operation : RepositoryM S Unit}
    (change : Timestamp → RunSnapshot → Except RecordKey RunSnapshot) {l : Ledger}
    (modifies : ∀ now s, operation now s = c.host.backend.modify c.runId change now s)
    (changes : ∀ now, ∃ y, change now x = .ok y ∧ y.run.runId = x.run.runId ∧ y.ledger = l) :
    c.Leaves kept (c.record operation) x fun _ l' => l' = l := by
  refine upholds_record reliable change modifies (fun now y changed _ => ?_)
    fun now key refused => ?_ <;> obtain ⟨z, known, named, ledger⟩ := changes now
  · cases changed.symm.trans known
    exact ⟨named, trivial, ledger⟩
  · cases refused.symm.trans known

theorem leaves_update (change : Timestamp → RunSnapshot → RunSnapshot) {l : Ledger}
    (named : ∀ now, (change now x).run.runId = x.run.runId)
    (becomes : ∀ now, (change now x).ledger = l) :
    c.Leaves kept (c.record (c.host.backend.update c.runId change)) x fun _ l' => l' = l :=
  leaves_record reliable (fun now x => .ok (change now x)) (fun _ _ => rfl)
    fun now => ⟨_, rfl, named now, becomes now⟩

theorem leaves_setSpaceStatus {space : String} (status : UnitStatus)
    (known : x.ledger.spaces space ≠ none) :
    c.Leaves kept (c.record (c.host.backend.setSpaceStatus c.runId space status)) x fun _ l =>
      l = x.ledger.setSpace space status :=
  leaves_record reliable _ (fun _ _ => rfl) fun now =>
    (x.ledger_setSpaceStatus now (Option.isSome_iff_ne_none.2 known)).imp
      fun _ ⟨changed, run, _, ledger⟩ => ⟨changed, by rw [run], ledger⟩

theorem leaves_setSetStatus {space : String} {index : Nat} (status : UnitStatus)
    (known : x.ledger.sets (space, index) ≠ none) :
    c.Leaves kept (c.record (c.host.backend.setSetStatus c.runId space index status)) x fun _ l =>
      l = x.ledger.setSet space index status :=
  leaves_record reliable _ (fun _ _ => rfl) fun now =>
    (x.ledger_setSetStatus now (Option.isSome_iff_ne_none.2 known)).imp
      fun _ ⟨changed, run, _, ledger⟩ => ⟨changed, by rw [run], ledger⟩

theorem leaves_setTaskStatus {space : String} {index : Nat} {task : String} (status : UnitStatus)
    (error : Option String) (known : x.ledger.tasks (space, index, task) ≠ none) :
    c.Leaves kept (c.record (c.host.backend.setTaskStatus c.runId space index task status error)) x
      fun _ l => l = x.ledger.setTask space index task status :=
  leaves_record reliable _ (fun _ _ => rfl) fun now =>
    (x.ledger_setTaskStatus now (Option.isSome_iff_ne_none.2 known)).imp
      fun _ ⟨changed, run, _, ledger⟩ => ⟨changed, by rw [run], ledger⟩

/-- To look for a request changes nothing, unless there is one. -/
theorem leaves_checkTermination (underway : x.ledger.Underway c.artifact) :
    c.Leaves kept c.checkTermination x fun _ l => l = x.ledger := by
  have asked (requested : Bool) : c.Leaves kept (if requested then do
        c.record (c.host.backend.setRunStatus c.runId .terminated none)
        throw (.terminated c.runId)
      else pure () : Activity S Unit) x fun _ l => l = x.ledger := by
    cases requested
    · exact Upholds.pure rfl
    · refine (leaves_update reliable (fun now x => x.setStatus now .terminated none)
        (l := x.ledger.setStatus .terminated) (fun _ => rfl) fun _ => rfl).bind fun _ y ledger => ?_
      refine Upholds.throw (Ledger.Underway.meets_terminated ⟨?_, ?_⟩ c.runId) <;> rw [ledger]
      · exact underway.orderly.congr rfl rfl rfl rfl
      · rintro ⟨⟩
  exact fun s => asked s.terminating s

/-! ## Tasks -/

theorem leaves_recordValues (space : SpaceDefinition) (index : Nat) (t : TaskDefinition)
    (outputs : List (String × String)) :
    c.Leaves kept (c.recordValues space index t outputs) x fun _ l =>
      l = { x.ledger with values := l.values, latest := l.latest } := by
  induction outputs generalizing x with
  | nil => exact Upholds.pure rfl
  | cons output rest ih =>
    obtain ⟨name, value⟩ := output
    let mapping (now : Timestamp) : DataMapping :=
      { spaceId := space.spaceId, index, name, value, taskId := some t.taskId, recordedAt := now }
    have puts : c.Leaves kept
        (c.record fun now => c.host.backend.putMapping c.runId (mapping now) now) x fun _ l =>
          l = { x.ledger with values := l.values, latest := l.latest } :=
      upholds_record reliable (fun now x => .ok (x.putMapping (mapping now))) (fun _ _ => rfl)
        (by rintro now _ ⟨⟩ -; exact ⟨rfl, trivial, rfl⟩) (by rintro _ _ ⟨⟩)
    refine puts.bind fun _ y first => ?_
    refine ih.mono fun _ z others => ?_
    rw [others, first]

/-- The failure of a task is recorded of the task, of its set and of its space. -/
theorem leaves_recordFailure {space : SpaceDefinition} {index : Nat} {t : TaskDefinition}
    (e : RunError) (task : x.ledger.tasks (space.spaceId, index, t.taskId) ≠ none)
    (set : x.ledger.sets (space.spaceId, index) ≠ none)
    (visited : x.ledger.spaces space.spaceId ≠ none) :
    c.Leaves kept (c.recordFailure space index t e) x fun _ l =>
      l = ((x.ledger.setTask space.spaceId index t.taskId .failed).setSet space.spaceId index
        .failed).setSpace space.spaceId .failed := by
  refine (leaves_setTaskStatus reliable .failed _ task).bind fun _ y tasks => ?_
  refine (leaves_setSetStatus reliable .failed (by rw [tasks]; exact set)).bind fun _ z sets => ?_
  refine (leaves_setSpaceStatus reliable .failed (by rw [sets, tasks]; exact visited)).mono
    fun _ w spaces => ?_
  rw [spaces, sets, tasks]

section Visiting

variable {space : SpaceDefinition} (found : c.artifact.space? space.spaceId = some space)
  (proper : space.spaceId ≠ endMark)

include found proper

/-- A task is completed, or it fails with its set and its space. -/
theorem leaves_runTask {index : Nat} (set : ParameterSet) {t : TaskDefinition}
    (declared : t.taskId ∈ space.tasksOrder) (underway : x.ledger.Underway c.artifact)
    (works : x.ledger.WorksOn space.spaceId index) :
    c.Leaves kept (c.runTask space index set t) x fun _ l =>
      l.Underway c.artifact ∧ x.ledger.Advances space.spaceId index [t.taskId] l := by
  rw [runTask]
  refine (leaves_update reliable (fun now x => x.startTask now space.spaceId index t.taskId)
    (l := x.ledger.setTask space.spaceId index t.taskId .running) (fun _ => rfl)
    fun now => x.ledger_startTask now _ _ _).bind fun _ y started => ?_
  have running : y.ledger.tasks (space.spaceId, index, t.taskId) ≠ none := by
    simp [started, Ledger.setTask]
  have sets : y.ledger.sets (space.spaceId, index) ≠ none := by
    simp [started, Ledger.setTask, works.2]
  have spaces : y.ledger.spaces space.spaceId ≠ none := by
    simp [started, Ledger.setTask, works.1.2]
  refine Upholds.bind (Upholds.mark _ _) ?_
  rintro _ _ rfl
  refine Upholds.bind (Upholds.emit _) ?_
  rintro _ z rfl
  refine Upholds.bind (Upholds.attempt
    (F := fun e w => e.task? = some ⟨space.spaceId, index, t.taskId⟩ ∧ w = z)
    (upholds_outputValues reliable space index set t fun e named => ⟨named, rfl⟩)) ?_
  rintro (e | values) w ⟨produced, failed⟩
  · obtain ⟨named, rfl⟩ := failed e rfl
    refine (leaves_recordFailure reliable e running sets spaces).bind fun _ y₁ ledger => ?_
    rw [started, Ledger.setTask_setTask] at ledger
    refine Upholds.bind (Upholds.mark _ _) ?_
    rintro _ _ rfl
    exact Upholds.throw (ledger ▸ underway.meets_failed found proper declared works named)
  · obtain ⟨length, rfl⟩ := produced values rfl
    refine (leaves_recordValues reliable space index t (t.outputData.zip values)).bind
      fun _ y₁ filled => ?_
    refine (leaves_setTaskStatus reliable .completed none
      (by rw [filled]; exact running)).bind fun _ y₂ completed => ?_
    refine Upholds.bind (Upholds.mark _ _) ?_
    rintro _ y₂ rfl
    refine (Upholds.emit _).mono ?_
    rintro _ y₂ rfl
    have ledger : y₂.ledger = { x.ledger.setTask space.spaceId index t.taskId .completed with
        values := y₁.ledger.values, latest := y₁.ledger.latest } := by
      rw [completed, filled, started, Ledger.setTask, Ledger.setTask, Ledger.setTask]
      simp only [Function.update_idem]
    rw [ledger]
    refine ⟨⟨?_, underway.going⟩, .setTask _ _ _⟩
    exact (underway.orderly.setTask found declared (by simp [works.2]) (by simp [works.2])
      .completed (by decide)).congr rfl rfl rfl rfl

theorem leaves_runTasks {index : Nat} (set : ParameterSet) (total done : Nat)
    {tasks : List TaskDefinition} (declared : ∀ t ∈ tasks, t.taskId ∈ space.tasksOrder)
    (underway : x.ledger.Underway c.artifact) (works : x.ledger.WorksOn space.spaceId index) :
    c.Leaves kept (c.runTasks space index set total done tasks) x fun _ l =>
      l.Underway c.artifact ∧
        x.ledger.Advances space.spaceId index (tasks.map (·.taskId)) l := by
  induction tasks generalizing x done with
  | nil => exact Upholds.pure ⟨underway, .refl _⟩
  | cons t rest ih =>
    refine (leaves_runTask reliable found proper set (declared t List.mem_cons_self) underway
      works).bind ?_
    rintro _ y ⟨underway', first⟩
    refine Upholds.bind (Upholds.emit _) ?_
    rintro _ _ rfl
    refine (leaves_checkTermination reliable underway').bind fun _ z same => ?_
    rw [← same] at underway' first
    refine (ih (done + 1) (fun u mem => declared u (List.mem_cons_of_mem t mem)) underway'
      (first.works works)).mono ?_
    rintro _ w ⟨underway'', others⟩
    exact ⟨underway'', first.trans others⟩

/-- The parameter sets from an index on are completed one after the other. -/
theorem leaves_runSets {tasks : List TaskDefinition} (known : c.tasksOf space = .ok tasks)
    (completed : Nat) (sets : List ParameterSet) (start : Nat)
    (length : start + sets.length = space.parameters.length)
    (underway : x.ledger.Underway c.artifact) (visits : x.ledger.Visits space.spaceId)
    (before : ∀ j < start, x.ledger.sets (space.spaceId, j) = some .completed) :
    c.Leaves kept (c.runSets space tasks completed (sets.zipIdx start)) x fun _ l =>
      l.Underway c.artifact ∧ l.Visits space.spaceId ∧
        ∀ j < space.parameters.length, l.sets (space.spaceId, j) = some .completed := by
  have ids : tasks.map (·.taskId) = space.tasksOrder := tasksOf_taskIds known
  induction sets generalizing x start completed with
  | nil =>
    have all : start = space.parameters.length := length
    exact Upholds.pure ⟨underway, visits, all ▸ before⟩
  | cons set rest ih =>
    obtain ⟨inside, length'⟩ : start < space.parameters.length ∧
        start + 1 + rest.length = space.parameters.length := by
      rw [← length, List.length_cons]
      omega
    rw [List.zipIdx_cons, runSets]
    refine Upholds.bind (Upholds.of_reads_ok (reads_isSetCompleted space start)) ?_
    rintro _ y ⟨rfl, rfl⟩
    by_cases done : y.ledger.sets (space.spaceId, start) = some .completed
    · simp only [done, decide_true, if_true]
      exact ih _ _ length' underway visits fun j upTo =>
        (Nat.lt_succ_iff_lt_or_eq.1 upTo).elim (before j) fun same => same ▸ done
    simp only [done, decide_false, Bool.false_eq_true, if_false]
    refine (leaves_update reliable (fun now x => x.startSet now space.spaceId start set)
      (l := y.ledger.setSet space.spaceId start .running) (fun _ => rfl)
      fun now => y.ledger_startSet now _ _ _).bind fun _ z started => ?_
    obtain ⟨opened, works⟩ := underway.startSet found inside visits before done
    rw [← started] at opened works
    refine Upholds.bind (Upholds.emit _) ?_
    rintro _ z rfl
    refine (leaves_runTasks reliable found proper set _ _
      (fun t mem => ids ▸ List.mem_map_of_mem mem) opened works).bind ?_
    rintro _ w ⟨underway', advances⟩
    have works' := advances.works works
    refine (leaves_setSetStatus reliable .completed (by simp [works'.2])).bind fun _ v closed => ?_
    obtain ⟨underway'', upTo⟩ := underway'.completeSet found works' (ids ▸ advances.done)
    have visits' : v.ledger.Visits space.spaceId := closed ▸ works'.1
    rw [← closed] at underway'' upTo
    refine Upholds.bind (Upholds.emit _) ?_
    rintro _ v rfl
    refine Upholds.bind (Upholds.emit _) ?_
    rintro _ v rfl
    refine (leaves_checkTermination reliable underway'').bind fun _ u same => ?_
    rw [← same] at underway'' upTo visits'
    exact ih _ _ length' underway'' visits' upTo

/-- A space that is visited is completed. -/
theorem leaves_visit (valid : c.artifact.validate = .ok ())
    (underway : x.ledger.Underway c.artifact)
    (inside : x.ledger.control = some space.spaceId)
    (open_ : x.ledger.spaces space.spaceId ≠ some .completed) :
    c.Leaves kept (c.visit space) x fun _ l => l.Underway c.artifact ∧
      l.control = some space.spaceId ∧ l.spaces space.spaceId = some .completed := by
  obtain ⟨tasks, known⟩ := tasksOf_of_validate valid found
  have goesOn {y : RunSnapshot} (underway : y.ledger.Underway c.artifact)
      (visits : y.ledger.Visits space.spaceId) : c.Leaves kept (do
        c.emit (.spaceStarted c.runId space.spaceId)
        let tasks ← c.tasksOf space
        c.runSets space tasks 0 space.parameters.zipIdx
        c.record (c.host.backend.setSpaceStatus c.runId space.spaceId .completed)
        c.emit (.spaceCompleted c.runId space.spaceId)) y fun _ l => l.Underway c.artifact ∧
          l.control = some space.spaceId ∧ l.spaces space.spaceId = some .completed := by
    refine Upholds.bind (Upholds.emit _) ?_
    rintro _ y rfl
    rw [known]
    refine Upholds.bind (R := fun found z => found = tasks ∧ z = y) (Upholds.pure ⟨rfl, rfl⟩) ?_
    rintro _ _ ⟨rfl, rfl⟩
    refine (leaves_runSets reliable found proper known 0 space.parameters 0 (Nat.zero_add _)
      underway visits fun j less => absurd less (Nat.not_lt_zero j)).bind ?_
    rintro _ z ⟨underway', visits', all⟩
    refine (leaves_setSpaceStatus reliable .completed (by simp [visits'.2])).bind
      fun _ w closed => ?_
    refine (Upholds.emit _).mono ?_
    rintro _ w rfl
    rw [closed]
    refine ⟨⟨underway'.orderly.setSpace visits'.1 proper .completed fun _ index listed => ?_,
      underway'.going⟩, visits'.1, Function.update_self ..⟩
    obtain ⟨⟨space', found', less⟩, -⟩ := underway'.orderly.sets listed
    cases found.symm.trans found'
    exact all index less
  rw [visit]
  refine Upholds.bind (Upholds.of_reads_ok (reads_query (·.space? space.spaceId))) ?_
  rintro _ y ⟨rfl, rfl⟩
  have shown : y.ledger.spaces space.spaceId = (y.space? space.spaceId).map (·.status) := rfl
  simp only
  split
  · refine (leaves_update reliable (fun now x => x.startSpace now space.spaceId)
      (l := y.ledger.setSpace space.spaceId .running) (fun _ => rfl)
      fun now => y.ledger_startSpace now _).bind fun _ z started => ?_
    refine goesOn ⟨?_, ?_⟩ ?_ <;> rw [started]
    · exact underway.orderly.setSpace inside proper .running (by rintro ⟨⟩)
    · exact underway.going
    · exact ⟨inside, Function.update_self ..⟩
  · next running =>
    refine goesOn underway ⟨inside, ?_⟩
    rw [shown]
    cases listed : y.space? space.spaceId with
    | none => simp [listed] at running
    | some record => simpa [listed] using running

end Visiting

/-- A space that is entered is completed when it is left. -/
theorem leaves_visitOnce (valid : c.artifact.validate = .ok ()) {space : SpaceDefinition}
    (found : c.artifact.space? space.spaceId = some space) (proper : space.spaceId ≠ endMark)
    (goesOn : Bool) (underway : x.ledger.Underway c.artifact)
    (inside : x.ledger.control = some space.spaceId) :
    c.Leaves kept (c.visitOnce space goesOn) x fun _ l => l.Underway c.artifact ∧
      l.control = some space.spaceId ∧ l.spaces space.spaceId = some .completed := by
  have visits {y : RunSnapshot} (underway : y.ledger.Underway c.artifact)
      (inside : y.ledger.control = some space.spaceId)
      (open_ : y.ledger.spaces space.spaceId ≠ some .completed) : c.Leaves kept (do
        c.visit space
        c.checkTermination) y fun _ l => l.Underway c.artifact ∧
          l.control = some space.spaceId ∧ l.spaces space.spaceId = some .completed := by
    refine (leaves_visit reliable found proper valid underway inside open_).bind ?_
    rintro _ z ⟨underway', inside', completed⟩
    refine (leaves_checkTermination reliable underway').mono ?_
    rintro _ w same
    rw [same]
    exact ⟨underway', inside', completed⟩
  rw [visitOnce]
  refine Upholds.bind (Upholds.of_reads_ok (reads_isSpaceCompleted space.spaceId)) ?_
  rintro _ y ⟨rfl, rfl⟩
  by_cases completed : y.ledger.spaces space.spaceId = some .completed
  · simp only [completed, decide_true, Bool.true_and, if_true]
    cases goesOn
    · refine (leaves_update reliable (fun _ x => x.resetSpace space.spaceId)
        (l := y.ledger.reset space.spaceId) (fun _ => rfl)
        fun _ => y.ledger_resetSpace _).bind fun _ z reset => ?_
      refine visits ⟨?_, ?_⟩ ?_ ?_ <;> rw [reset]
      · exact underway.orderly.reset _
      · exact underway.going
      · exact inside
      · simp [Ledger.reset]
    · exact Upholds.pure ⟨underway, inside, completed⟩
  · simp only [completed, decide_false, Bool.false_and, Bool.false_eq_true, if_false]
    exact visits underway inside completed

/-- A run that comes to the end has left no space open. -/
theorem leaves_traverse (valid : c.artifact.validate = .ok ()) (visits : Nat) {current : String}
    (goesOn : Bool) (known : current = endMark ∨ (c.artifact.space? current).isSome)
    (underway : x.ledger.Underway c.artifact)
    (settled : ∀ id, (current = id → id = endMark) → x.ledger.Settled id) :
    c.Leaves kept (c.traverse visits current goesOn) x fun reached l =>
      reached = true → l.Underway c.artifact ∧ l.control = some endMark := by
  have enters {y : RunSnapshot} {id : String} (known : id = endMark ∨ (c.artifact.space? id).isSome)
      (underway : y.ledger.Underway c.artifact)
      (settled : ∀ other, (id = other → other = endMark) → y.ledger.Settled other) :
      c.Leaves kept (c.record (c.host.backend.enter c.runId id)) y fun _ l =>
        l.Underway c.artifact ∧ l.control = some id ∧ l.spaces = y.ledger.spaces := by
    refine (leaves_update reliable (fun now x => x.enter now id) (l := y.ledger.enter id)
      (fun _ => rfl) fun _ => rfl).mono fun _ z entered => ?_
    rw [entered]
    exact ⟨⟨underway.orderly.enter settled known, underway.going⟩, rfl, rfl⟩
  have arrives {y : RunSnapshot} (underway : y.ledger.Underway c.artifact)
      (settled : ∀ id, (endMark = id → id = endMark) → y.ledger.Settled id) :
      c.Leaves kept (do
        c.record (c.host.backend.enter c.runId endMark)
        return true) y fun reached l =>
          reached = true → l.Underway c.artifact ∧ l.control = some endMark := by
    refine (enters (.inl rfl) underway settled).bind ?_
    rintro _ z ⟨underway', inside, -⟩
    exact Upholds.pure fun _ => ⟨underway', inside⟩
  induction visits generalizing x current goesOn with
  | zero =>
    rw [traverse]
    split
    · next same => exact arrives underway (same ▸ settled)
    · exact Upholds.pure (by rintro ⟨⟩)
  | succ visits ih =>
    rw [traverse]
    split
    · next same => exact arrives underway (same ▸ settled)
    next proper =>
    obtain ⟨space, found⟩ := Option.isSome_iff_exists.1 (known.resolve_left proper)
    have own : space.spaceId = current := Artifact.space?_spaceId found
    subst own
    simp only [found]
    refine (enters known underway settled).bind ?_
    rintro _ y ⟨underway', inside, -⟩
    refine (leaves_visitOnce reliable valid found proper goesOn underway' inside).bind ?_
    rintro _ z ⟨underway'', inside', completed⟩
    have all (id : String) : z.ledger.Settled id := by
      by_cases same : id = space.spaceId
      · exact .inr (same ▸ completed)
      · exact underway''.orderly.elsewhere fun here =>
          absurd (Option.some.inj (inside'.symm.trans here)).symm same
    refine (upholds_next _ fun e noTask _ =>
      ⟨underway'', (fun key named => by cases noTask.symm.trans named), fun _ _ => all⟩).bind ?_
    rintro target w ⟨rfl, chosen⟩
    have onward : target = endMark ∨ (c.artifact.space? target).isSome := by
      rcases chosen with rfl | ⟨t, mem, rfl⟩
      · exact .inl rfl
      · have declared := (Artifact.validate_eq_ok.1 valid).2.2 t mem
        simp only [Artifact.declares, Bool.and_eq_true, Bool.or_eq_true, beq_iff_eq] at declared
        exact declared.2.symm
    exact ih false onward underway'' fun id _ => all id

/-! ## Calls -/

/-- At the end of a call the run is recorded as completed or as failed. -/
theorem recordsEnd_conclude (valid : c.artifact.validate = .ok ()) (resumed : Bool)
    (r : Except RunError Bool)
    (reached : r = .ok true → x.ledger.Underway c.artifact ∧ x.ledger.control = some endMark)
    (failed : ∀ e, r = .error e → x.ledger.Meets c.artifact e) :
    c.RecordsEnd kept (c.conclude resumed r) x := by
  rcases r with e | _ | _ <;> rw [conclude.eq_def]
  · have met := failed e rfl
    cases other : e.isTermination
    · simp only [other, Bool.not_false, if_true]
      refine Upholds.bind (R := fun _ y => y.FailedBy c.artifact e)
        (upholds_update reliable (fun now x => x.setStatus now .failed (some e.message))
          (fun _ => rfl) fun now _ => ⟨trivial, ?_⟩) fun _ y failed => ?_
      · have still := met.still other
        exact ⟨met.underway.orderly.congr rfl rfl rfl rfl, rfl, rfl, rfl,
          fun key named => (met.failed key named).setStatus _, still.setStatus _⟩
      · refine Upholds.bind (Upholds.emit _) ?_
        rintro _ y rfl
        exact Upholds.throw ⟨failed.underway, fun _ => failed⟩
    · simp only [other, Bool.not_true, Bool.false_eq_true, if_false]
      exact Upholds.throw ⟨met.underway, fun failure => by cases other.symm.trans failure⟩
  · exact Upholds.pure fun summary => absurd rfl summary
  · obtain ⟨⟨orderly, -⟩, control⟩ := reached rfl
    have complete : x.ledger.Complete := orderly.complete fun id =>
      orderly.elsewhere fun here => Option.some.inj (here.symm.trans control)
    refine Upholds.bind (R := fun _ y => y.ledger = x.ledger.setStatus .completed)
      (upholds_update reliable (fun now x => x.setStatus now .completed none)
        (fun _ => rfl) fun now _ => ⟨trivial, rfl⟩) fun _ y completed => ?_
    refine Upholds.bind (R := fun _ z => z.Finished c.artifact)
      (upholds_update reliable (fun _ x => x.setPosition none none none)
        (fun _ => rfl) fun now _ => ⟨trivial, ?_⟩) fun _ z finished => ?_
    · have ledger : ((y.setPosition none none none).touch now).ledger =
          x.ledger.setStatus .completed := completed
      refine ⟨?_, congrArg Ledger.status ledger, ⟨rfl, rfl, rfl⟩, ?_, ?_⟩ <;> rw [ledger]
      · exact orderly.setStatus _
      · exact control
      · exact complete.setStatus _
    · obtain ⟨results, found⟩ := exists_resultsOn valid z.ledger
      have told := reads_summary (c := c) (x := z) resumed true
      rw [found] at told
      refine Upholds.bind (Upholds.of_reads_ok told) ?_
      rintro _ w ⟨-, rfl⟩
      exact Upholds.pure fun _ => finished

/-- What carrying a run out leaves behind. -/
theorem recordsEnd_drive (valid : c.artifact.validate = .ok ()) (visits : Nat) (resumed : Bool)
    (orderly : x.ledger.Orderly c.artifact) (nowhere : resumed = false → x.ledger.control = none) :
    c.RecordsEnd kept (c.drive visits resumed) x := by
  refine Upholds.bind (R := fun _ y => y.ledger = x.ledger.setStatus .running)
    (upholds_update reliable (fun now x => x.setStatus now .running none)
      (fun _ => rfl) fun now _ => ⟨trivial, rfl⟩) fun _ y running => ?_
  have underway : y.ledger.Underway c.artifact := by
    rw [running]
    exact ⟨orderly.setStatus _, by rintro ⟨⟩⟩
  have starts : (c.artifact.space? c.artifact.control.start).isSome :=
    (Artifact.validate_eq_ok.1 valid).2.1
  have known : c.firstOn resumed y.ledger = endMark ∨
      (c.artifact.space? (c.firstOn resumed y.ledger)).isSome := by
    rw [firstOn]
    split
    · next here =>
      split
      · exact underway.orderly.charted here
      · exact .inr starts
    · exact .inr starts
  have settled : ∀ id, (c.firstOn resumed y.ledger = id → id = endMark) → y.ledger.Settled id := by
    intro id apart
    refine underway.orderly.elsewhere fun here => apart ?_
    have resumes : resumed = true := by
      cases resumed
      · have away : y.ledger.control = none := by
          rw [running]
          exact nowhere rfl
        cases away.symm.trans here
      · rfl
    simp only [firstOn, here, resumes, if_true]
  have way : c.Leaves kept (do
      c.traverse visits (← c.firstSpace resumed) resumed : Activity S Bool) y fun reached l =>
        reached = true → l.Underway c.artifact ∧ l.control = some endMark := by
    refine Upholds.bind (Upholds.of_reads_ok (reads_firstSpace resumed)) ?_
    rintro _ z ⟨rfl, rfl⟩
    exact leaves_traverse reliable valid visits resumed known underway settled
  refine (Upholds.attempt way).bind fun r z ends => ?_
  exact recordsEnd_conclude reliable valid resumed r (fun reached => ends.1 true reached rfl) ends.2

end Changes

end Conduct

/-- The record of a run between calls. -/
structure RunSnapshot.Coherent (a : Artifact) (x : RunSnapshot) : Prop where
  orderly : x.ledger.Orderly a
  finished : x.run.status = .completed → x.Finished a

theorem Ledger.Underway.coherent {a : Artifact} {x : RunSnapshot} (h : x.ledger.Underway a) :
    x.Coherent a :=
  ⟨h.orderly, fun completed => absurd completed h.going⟩

theorem RunSnapshot.Finished.coherent {a : Artifact} {x : RunSnapshot} (h : x.Finished a) :
    x.Coherent a :=
  ⟨h.orderly, fun _ => h⟩

namespace Conduct

variable {c : Conduct S} {kept : S → Prop} {request : Request}

theorem Finds.unique {s : Session S} {x y : Option RunSnapshot} (first : c.Finds kept s x)
    (second : c.Finds kept s y) : x = y :=
  Except.ok.inj (first.loads.symm.trans second.loads)

/-- A call that carries nothing out and succeeds has found the run completed. -/
theorem completed_of_rests (visits : Nat) {s : Session S} {x : Option RunSnapshot}
    {summary : RunSummary} (finds : c.Finds kept s x) (rests : request.Rests c.artifact x)
    (ended : (c.call request visits s).1 = .ok (some summary)) :
    ∃ y, x = some y ∧ y.run.status = .completed := by
  cases x with
  | none =>
    obtain rfl : request = .resume := rests
    rw [call, resume, bind_eval, finds.run?_eval] at ended
    cases ended
  | some y =>
    by_cases own : y.run.artifactHash = c.artifact.contentHash
    · exact ⟨y, rfl, rests own⟩
    · rw [call_recorded request visits finds, continueRun, if_pos own] at ended
      cases ended

/-- What a call leaves behind that carries the run out. -/
theorem call_leaves (reliable : c.host.Reliable c.runId kept)
    (valid : c.artifact.validate = .ok ()) (visits : Nat) {s : Session S} {x : Option RunSnapshot}
    (finds : c.Finds kept s x) (coherent : ∀ y, x = some y → y.Coherent c.artifact)
    (active : ¬request.Rests c.artifact x) :
    ∃ y, c.Finds kept (c.call request visits s).2 (some y) ∧
      (∀ e, (c.call request visits s).1 = .error e → y.ledger.Underway c.artifact ∧
        (e.isTermination = false → y.FailedBy c.artifact e)) ∧
      ∀ summary, (c.call request visits s).1 = .ok (some summary) → y.Finished c.artifact := by
  obtain ⟨first, y, s', opening, -, -, sees, drives, -⟩ :=
    call_drives reliable request visits finds active
  have orderly : y.ledger.Orderly c.artifact := by
    cases opening with
    | recorded => exact (coherent y rfl).orderly
    | registered _ blank =>
      rw [blank]
      exact .blank _
  obtain ⟨-, z, -, sees', -, -, ends, fails⟩ :=
    recordsEnd_drive reliable valid visits x.isSome orderly opening.nowhere s' sees trivial
  rw [drives]
  exact ⟨z, sees'.finds, fails, fun summary ended => ends _ ended (Option.some_ne_none summary)⟩

end Conduct

/-! ## Calls, one after the other -/

/-- What calls of a run leave behind that have come to their end, each after the one before. -/
inductive Succession (u : Subject S) (kept : S → Prop) : Option RunSnapshot → Prop
  | start : Succession u kept none
  | call {x y : Option RunSnapshot} (c : Conduct S) (request : Request) (visits : Nat)
      (s : Session S) : Succession u kept x → c.subject = u → c.host.Reliable c.runId kept →
      c.Finds kept s x → (c.call request visits s).1 ≠ .ok none →
      c.Finds kept (c.call request visits s).2 y → Succession u kept y

namespace Succession

open Conduct

variable {u : Subject S} {kept : S → Prop} {x : Option RunSnapshot}

/-- Calls that come to their end make up a journey. -/
theorem exists_journey (valid : u.artifact.validate = .ok ()) (past : Succession u kept x) :
    ∃ log, Journey u kept log x := by
  induction past with
  | start => exact ⟨[], .start⟩
  | @call x y c request visits s _ same reliable finds _ finds' ih =>
    obtain ⟨log, journey⟩ := ih
    subst same
    have left := Conduct.call_finds reliable valid request visits finds
    rw [finds'.unique left]
    exact ⟨_, journey.whole c request visits s rfl reliable finds⟩

/-- Between the calls the record is coherent. -/
theorem coherent (valid : u.artifact.validate = .ok ()) (past : Succession u kept x) :
    ∀ y, x = some y → y.Coherent u.artifact := by
  induction past with
  | start => rintro y ⟨⟩
  | @call x y c request visits s _ same reliable finds ended finds' ih =>
    subst same
    rintro z rfl
    by_cases rests : request.Rests c.artifact x
    · obtain ⟨-, ⟨n, same⟩, -⟩ := Conduct.call_rests valid visits finds rests
      rw [same] at finds'
      exact ih z (Except.ok.inj (finds.loads.symm.trans finds'.loads))
    · obtain ⟨w, left, fails, ends⟩ :=
        Conduct.call_leaves reliable valid visits finds ih rests
      cases finds'.unique left
      cases result : (c.call request visits s).1 with
      | error e => exact (fails e result).1.coherent
      | ok summary =>
        cases summary with
        | none => exact absurd result ended
        | some summary => exact (ends summary result).coherent

/-- A call that carries the run out and fails leaves a record that shows the failure; one that
succeeds leaves a record that shows the end. -/
theorem call_coherent (valid : u.artifact.validate = .ok ()) (past : Succession u kept x)
    {c : Conduct S} (same : c.subject = u) (reliable : c.host.Reliable c.runId kept)
    (request : Request) (visits : Nat) {s : Session S} (finds : c.Finds kept s x) :
    (∀ e, (c.call request visits s).1 = .error e → e.isTermination = false →
      ¬request.Rests u.artifact x →
        ∃ y, c.Finds kept (c.call request visits s).2 (some y) ∧ y.ShowsFailure e) ∧
    ∀ summary, (c.call request visits s).1 = .ok (some summary) →
      ∃ y, c.Finds kept (c.call request visits s).2 (some y) ∧ y.ShowsEnd := by
  subst same
  have keyed {y : RunSnapshot} (left : c.Finds kept (c.call request visits s).2 (some y)) :
      y.Keyed := by
    obtain ⟨log, journey⟩ := past.exists_journey valid
    have next := journey.whole c request visits s rfl reliable finds
    rw [(Conduct.call_finds reliable valid request visits finds).unique left] at next
    exact (next.recorded valid y rfl).keyed
  have before := past.coherent valid
  by_cases rests : request.Rests c.artifact x
  · refine ⟨fun e _ _ active => absurd rests active, fun summary ended => ?_⟩
    have left := Conduct.call_finds reliable valid request visits finds
    obtain ⟨log, -, -⟩ := Conduct.call_rests valid visits finds rests
    rw [log, Subject.recordAfter_nil] at left
    obtain ⟨y, rfl, completed⟩ := Conduct.completed_of_rests visits finds rests ended
    exact ⟨y, left, ((before y rfl).finished completed).shows (keyed left)⟩
  · obtain ⟨y, left, fails, ends⟩ := Conduct.call_leaves reliable valid visits finds before rests
    exact ⟨fun e failed other _ => ⟨y, left, ((fails e failed).2 other).shows (keyed left)⟩,
      fun summary ended => ⟨y, left, (ends summary ended).shows (keyed left)⟩⟩

def failing : Conduct (Table RunSnapshot) :=
  { twoSets with host := .inMemory (fun _ => .ok ⟨.exited 1, .empty, .empty⟩) fun _ => false }

def onTable (runs : Table RunSnapshot) : Session (Table RunSnapshot) :=
  { onEmptyTable with store := runs }

theorem finds_onTable {runs : Table RunSnapshot} {x : RunSnapshot}
    (found : runs.get? "r" = some x) (named : x.run.runId = "r") :
    twoSets.Finds (fun _ => True) (onTable runs) (some x) := by
  refine ⟨trivial, congrArg Except.ok found, ?_⟩
  rintro _ ⟨⟩
  exact named

/-- A run whose first task fails is resumed when its programs no longer do. -/
theorem call_coherent_failing :
    let s := onTable (failing.call .run 2 onEmptyTable).2.store
    twoSets.artifact.validate = .ok () ∧ ∃ e summary, ∃ x y : RunSnapshot,
      (failing.call .run 2 onEmptyTable).1 = .error e ∧ e.task? = some ⟨"s", 0, "W:t"⟩ ∧
      twoSets.Finds (fun _ => True) s (some x) ∧ x.ShowsFailure e ∧
      (twoSets.call .resume 2 s).1 = .ok (some summary) ∧
      twoSets.Finds (fun _ => True) (twoSets.call .resume 2 s).2 (some y) ∧ y.ShowsEnd := by
  intro s
  have valid : twoSets.artifact.validate = .ok () := rfl
  have reliable : failing.host.Reliable failing.runId fun _ => True := Host.inMemory_reliable _ _ _
  have empty : failing.Finds (fun _ => True) onEmptyTable none :=
    ⟨trivial, rfl, fun _ h => nomatch h⟩
  have fails : (errorOf? (failing.call .run 2 onEmptyTable).1).bind RunError.task? =
      some ⟨"s", 0, "W:t"⟩ := by
    decide +kernel
  obtain ⟨e, failed, task⟩ := Option.bind_eq_some_iff.1 fails
  rw [errorOf?_eq_some] at failed
  have other : e.isTermination = false := by
    cases e with
    | terminated => cases task
    | _ => rfl
  obtain ⟨x, left, shows⟩ := (Succession.start.call_coherent valid rfl reliable .run 2 empty).1 e
    failed other nofun
  have ended : (failing.call .run 2 onEmptyTable).1 ≠ .ok none := by
    rw [failed]
    simp
  have past : Succession twoSets.subject (fun _ => True) (some x) :=
    .call failing .run 2 onEmptyTable .start rfl reliable empty ended left
  have finds : twoSets.Finds (fun _ => True) s (some x) :=
    finds_onTable (Except.ok.inj left.loads) (left.named x rfl)
  -- The record is of this artifact, so that its hash need not be computed.
  have own : x.run.artifactHash = twoSets.artifact.contentHash := by
    obtain ⟨_, journey⟩ := past.exists_journey valid
    exact (journey.sound valid x rfl).own
  have resumes : twoSets.call .resume 2 s =
      twoSets.drive 2 true { s with readings := s.readings + 1 } := by
    rw [call_recorded .resume 2 finds, continueRun, if_neg (fun differs => differs own),
      if_neg (by simp [shows.status])]
  have ends : (twoSets.drive 2 true { s with readings := s.readings + 1 }).1.toOption.any
      (fun ended => ended.isSome = true) = true := by
    decide +kernel
  rw [← resumes] at ends
  obtain ⟨ended, succeeded, finished⟩ := exists_ok ends
  obtain ⟨summary, rfl⟩ := Option.isSome_iff_exists.1 finished
  obtain ⟨y, left', shows'⟩ := (past.call_coherent valid rfl (Host.inMemory_reliable _ _ _) .resume
    2 finds).2 summary succeeded
  exact ⟨valid, e, summary, x, y, failed, task, finds, shows, succeeded, left', shows'⟩

end Succession

end Sweep
