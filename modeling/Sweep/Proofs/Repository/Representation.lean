import Sweep.Proofs.Repository.Effect
import Sweep.Proofs.Run.Ledger

/-!
# What the repository in memory keeps true of its snapshots

Whatever operations are performed on a repository that was empty, a snapshot is kept under the name
of its run, holds at most one record for every key, and gives a unit a finish time exactly if it is
not running. Every operation but one says the same of the run: only to replace the record of a run
as such can put a finish time on a run that is running, so the run agrees with its status for as
long as it is not replaced.
-/

namespace Sweep

/-- Whether a unit of this status is to have this finish time. -/
def UnitStatus.Ends (status : UnitStatus) (finishedAt : Option Timestamp) : Prop :=
  finishedAt.isSome ↔ status ≠ .running

namespace UnitStatus

theorem ends_running : running.Ends none := by simp [Ends]

theorem ends_finishAt (status : UnitStatus) (now : Timestamp) :
    status.Ends (status.finishAt now) := by
  cases status <;> simp [Ends, finishAt]

end UnitStatus

/-- A run has a finish time exactly if it is not running. -/
def RunRecord.Ends (run : RunRecord) : Prop := run.finishedAt.isSome ↔ run.status ≠ .running

/-- A snapshot in which a unit has a finish time exactly if it is not running. -/
structure RunSnapshot.Timed (x : RunSnapshot) : Prop where
  spaces : ∀ r ∈ x.spaces, r.status.Ends r.finishedAt
  sets : ∀ r ∈ x.sets, r.status.Ends r.finishedAt
  tasks : ∀ r ∈ x.tasks, r.status.Ends r.finishedAt

namespace RunSnapshot.Timed

variable {x y : RunSnapshot} {now : Timestamp}

theorem startSpace (h : x.Timed) (space : String) : (x.startSpace now space).Timed :=
  { h with spaces := forall_mem_replace h.spaces UnitStatus.ends_running }

theorem startSet (h : x.Timed) (space : String) (index : Nat) (parameters : ParameterSet) :
    (x.startSet now space index parameters).Timed :=
  { h with sets := forall_mem_replace h.sets UnitStatus.ends_running }

theorem startTask (h : x.Timed) (space : String) (index : Nat) (task : String) :
    (x.startTask now space index task).Timed :=
  ⟨h.spaces, h.sets, forall_mem_replace h.tasks UnitStatus.ends_running⟩

theorem setSpaceStatus (h : x.Timed) {space : String} {status : UnitStatus}
    (changed : x.setSpaceStatus now space status = .ok y) : y.Timed := by
  obtain ⟨spaces, updated, rfl⟩ := exists_of_setSpaceStatus changed
  exact { h with
    spaces := forall_mem_of_updateFirst? updated (fun _ _ => status.ends_finishAt now) h.spaces }

theorem setSetStatus (h : x.Timed) {space : String} {index : Nat} {status : UnitStatus}
    (changed : x.setSetStatus now space index status = .ok y) : y.Timed := by
  obtain ⟨sets, updated, rfl⟩ := exists_of_setSetStatus changed
  exact { h with
    sets := forall_mem_of_updateFirst? updated (fun _ _ => status.ends_finishAt now) h.sets }

theorem setTaskStatus (h : x.Timed) {space : String} {index : Nat} {task : String}
    {status : UnitStatus} {error : Option String}
    (changed : x.setTaskStatus now space index task status error = .ok y) : y.Timed := by
  obtain ⟨tasks, updated, rfl⟩ := exists_of_setTaskStatus changed
  exact { h with
    tasks := forall_mem_of_updateFirst? updated (fun _ _ => status.ends_finishAt now) h.tasks }

theorem resetSpace (h : x.Timed) (space : String) : (x.resetSpace space).Timed where
  spaces r mem := h.spaces r (List.mem_filter.1 mem).1
  sets r mem := h.sets r (List.mem_filter.1 mem).1
  tasks r mem := h.tasks r (List.mem_filter.1 mem).1

end RunSnapshot.Timed

/-- What holds of a snapshot that is kept under a name. -/
structure RunSnapshot.Filed (runId : String) (x : RunSnapshot) : Prop where
  named : x.run.runId = runId
  keyed : x.Keyed
  timed : x.Timed

namespace RunSnapshot

variable {x y : RunSnapshot} {runId : String} {now : Timestamp}

theorem filed_ofRun (run : RunRecord) : (ofRun run).Filed run.runId where
  named := rfl
  keyed := ⟨List.nodup_nil, List.nodup_nil, List.nodup_nil, List.nodup_nil⟩
  timed := ⟨List.forall_mem_nil _, List.forall_mem_nil _, List.forall_mem_nil _⟩

theorem Filed.touch (h : x.Filed runId) : (x.touch now).Filed runId :=
  ⟨h.named, h.keyed.touch, h.timed.spaces, h.timed.sets, h.timed.tasks⟩

/-- The status of a record other than the run as such is set without a change of the run. -/
theorem run_of_setSpaceStatus {space : String} {status : UnitStatus}
    (changed : x.setSpaceStatus now space status = .ok y) : y.run = x.run := by
  obtain ⟨_, -, rfl⟩ := exists_of_setSpaceStatus changed
  rfl

theorem run_of_setSetStatus {space : String} {index : Nat} {status : UnitStatus}
    (changed : x.setSetStatus now space index status = .ok y) : y.run = x.run := by
  obtain ⟨_, -, rfl⟩ := exists_of_setSetStatus changed
  rfl

theorem run_of_setTaskStatus {space : String} {index : Nat} {task : String} {status : UnitStatus}
    {error : Option String} (changed : x.setTaskStatus now space index task status error = .ok y) :
    y.run = x.run := by
  obtain ⟨_, -, rfl⟩ := exists_of_setTaskStatus changed
  rfl

end RunSnapshot

namespace Operation

variable {op : Operation} {runId : String} {now : Timestamp} {x y : RunSnapshot}
  {change : Timestamp → RunSnapshot → Except RecordKey RunSnapshot}

/-- What an operation makes of a snapshot can be kept where the snapshot was. -/
theorem filed_of_effect (effect : op.effect = .changes runId change) (filed : x.Filed runId)
    (changed : change now x = .ok y) : y.Filed runId := by
  obtain ⟨named, keyed, timed⟩ := filed
  cases op with
  | updateRun run =>
    cases effect
    cases changed
    exact ⟨rfl, ⟨keyed.spaces, keyed.sets, keyed.tasks, keyed.mappings⟩,
      timed.spaces, timed.sets, timed.tasks⟩
  | setRunStatus _ status error =>
    cases effect
    cases changed
    exact ⟨named, keyed.setStatus status error, timed.spaces, timed.sets, timed.tasks⟩
  | setRunPosition _ space index task =>
    cases effect
    cases changed
    exact ⟨named, keyed.setPosition space index task, timed.spaces, timed.sets, timed.tasks⟩
  | startSpace _ space =>
    cases effect
    cases changed
    exact ⟨named, keyed.startSpace space, timed.startSpace space⟩
  | setSpaceStatus =>
    cases effect
    exact ⟨(congrArg _ (RunSnapshot.run_of_setSpaceStatus changed)).trans named,
      keyed.setSpaceStatus changed, timed.setSpaceStatus changed⟩
  | resetSpace _ space =>
    cases effect
    cases changed
    exact ⟨named, keyed.resetSpace space, timed.resetSpace space⟩
  | startSet _ space index parameters =>
    cases effect
    cases changed
    exact ⟨named, keyed.startSet space index parameters, timed.startSet space index parameters⟩
  | setSetStatus =>
    cases effect
    exact ⟨(congrArg _ (RunSnapshot.run_of_setSetStatus changed)).trans named,
      keyed.setSetStatus changed, timed.setSetStatus changed⟩
  | startTask _ space index task =>
    cases effect
    cases changed
    exact ⟨named, keyed.startTask space index task, timed.startTask space index task⟩
  | setTaskStatus =>
    cases effect
    exact ⟨(congrArg _ (RunSnapshot.run_of_setTaskStatus changed)).trans named,
      keyed.setTaskStatus changed, timed.setTaskStatus changed⟩
  | putMapping _ mapping =>
    cases effect
    cases changed
    exact ⟨named, keyed.putMapping mapping, timed.spaces, timed.sets, timed.tasks⟩
  | enter _ space =>
    cases effect
    cases changed
    exact ⟨named, keyed.enter space, timed.spaces, timed.sets, timed.tasks⟩
  | _ => cases effect

/-- An operation that is none of those that replace or remove the record of a run. -/
def Spares (runId : String) (op : Operation) : Prop :=
  (∀ run, op = .updateRun run → run.runId ≠ runId) ∧ op ≠ .deleteRun runId

/-- What an operation makes of a snapshot, if it does not replace the run, leaves the finish time
of the run in agreement with its status. -/
theorem ends_of_effect (effect : op.effect = .changes runId change) (spares : op.Spares runId)
    (ends : x.run.Ends) (changed : change now x = .ok y) : y.run.Ends := by
  cases op with
  | updateRun run =>
    cases effect
    exact absurd rfl (spares.1 run rfl)
  | setRunStatus _ status =>
    cases effect
    cases changed
    cases status <;> simp [RunRecord.Ends, RunSnapshot.setStatus]
  | setSpaceStatus =>
    cases effect
    rw [RunSnapshot.run_of_setSpaceStatus changed]
    exact ends
  | setSetStatus =>
    cases effect
    rw [RunSnapshot.run_of_setSetStatus changed]
    exact ends
  | setTaskStatus =>
    cases effect
    rw [RunSnapshot.run_of_setTaskStatus changed]
    exact ends
  | setRunPosition | startSpace | resetSpace | startSet | startTask | putMapping | enter =>
    cases effect
    cases changed
    exact ends
  | _ => cases effect

end Operation

namespace Backend

variable {runs : Table RunSnapshot} {runId : String} {now : Timestamp}

/-- A table in which every snapshot is kept under the name of its run and is well formed. -/
def Files (runs : Table RunSnapshot) : Prop := ∀ runId x, runs.get? runId = some x → x.Filed runId

theorem files_empty : Files ∅ := by
  intro runId x found
  cases found

theorem Files.insert (files : Files runs) {x : RunSnapshot} (filed : x.Filed runId) :
    Files (runs.insert runId x) :=
  Table.forall_get?_insert files filed

/-- One operation keeps a table well formed. -/
theorem Files.perform (files : Files runs) (op : Operation) :
    Files (memory.perform op now runs).2 := by
  rw [memory_perform]
  cases effect : op.effect with
  | looks => exact files
  | adds run =>
    rw [Operation.Effect.apply]
    split
    · exact files
    · exact files.insert (RunSnapshot.filed_ofRun run)
  | removes gone =>
    rw [Operation.Effect.apply]
    exact Table.forall_get?_erase files
  | changes runId change =>
    rw [Operation.Effect.apply]
    split
    · exact files
    · next x found =>
      split
      · exact files
      · next y changed =>
        have filed := op.filed_of_effect effect (files runId x found) changed
        rw [filed.named]
        exact files.insert filed.touch

/-- Every history keeps a table well formed. -/
theorem Files.after (files : Files runs) (history : List (Timestamp × Operation)) :
    Files (memory.after history runs) := by
  induction history generalizing runs with
  | nil => exact files
  | cons entry rest ih => exact ih (files.perform entry.2)

/-- A run is there, with a finish time exactly if it is not running. -/
def HoldsEnding (runId : String) (runs : Table RunSnapshot) : Prop :=
  ∃ x, runs.get? runId = some x ∧ x.run.Ends

/-- A run that is added new is there and running. -/
theorem holdsEnding_of_new {run : RunRecord} (absent : runs.get? run.runId = none)
    (running : run.status = .running) (unfinished : run.finishedAt = none) :
    HoldsEnding run.runId (memory.perform (.createRun run) now runs).2 := by
  refine ⟨.ofRun run, ?_, by simp [RunSnapshot.ofRun, RunRecord.Ends, running, unfinished]⟩
  rw [memory_perform, Operation.effect, Operation.Effect.apply, absent, Option.isSome_none,
    if_neg (by decide), Table.get?_insert_self]

/-- An operation on a run that is there neither takes it away nor lets its finish time disagree
with its status, unless it replaces or removes the run. -/
theorem HoldsEnding.perform (holds : HoldsEnding runId runs) (files : Files runs)
    {op : Operation} (spares : op.Spares runId) :
    HoldsEnding runId (memory.perform op now runs).2 := by
  obtain ⟨x, found, ends⟩ := holds
  rw [memory_perform]
  cases effect : op.effect with
  | looks => exact ⟨x, found, ends⟩
  | adds run =>
    rw [Operation.Effect.apply]
    split
    · exact ⟨x, found, ends⟩
    · next absent =>
      have other : run.runId ≠ runId := by
        rintro rfl
        exact absent (by rw [found]; rfl)
      exact ⟨x, by rw [Table.get?_insert_of_ne other, found], ends⟩
  | removes gone =>
    have other : gone ≠ runId := by
      rintro rfl
      cases op <;> cases effect
      exact spares.2 rfl
    exact ⟨x, by rw [Operation.Effect.apply, Table.get?_erase_of_ne other, found], ends⟩
  | changes changedId change =>
    rw [Operation.Effect.apply]
    split
    · exact ⟨x, found, ends⟩
    · next z there =>
      split
      · exact ⟨x, found, ends⟩
      · next y changed =>
        have filed := op.filed_of_effect effect (files changedId z there) changed
        rw [filed.named]
        by_cases same : changedId = runId
        · subst same
          cases there.symm.trans found
          have ended : y.run.Ends := op.ends_of_effect effect spares ends changed
          exact ⟨y.touch now, Table.get?_insert_self, ended⟩
        · exact ⟨x, by rw [Table.get?_insert_of_ne same, found], ends⟩

/-- A run stays there, and its finish time in agreement with its status, for as long as it is
neither replaced nor removed. -/
theorem HoldsEnding.after (holds : HoldsEnding runId runs) (files : Files runs)
    {life : List (Timestamp × Operation)} (spares : ∀ entry ∈ life, entry.2.Spares runId) :
    HoldsEnding runId (memory.after life runs) := by
  induction life generalizing runs with
  | nil => exact holds
  | cons entry rest ih =>
    have first := spares entry List.mem_cons_self
    exact ih (holds.perform files first) (files.perform entry.2)
      fun later mem => spares later (List.mem_cons_of_mem _ mem)

/-- After every history of operations on a repository in memory that was empty, every snapshot is
kept under the name of its run, holds at most one record for every key, and gives a unit a finish
time exactly if it is not running. A run that was added as a new one, and neither replaced nor
removed since, is there and has a finish time exactly if it is not running. -/
theorem memory_represents (history : List (Timestamp × Operation)) :
    (∀ runId x, (memory.after history ∅).get? runId = some x →
      x.run.runId = runId ∧ x.Keyed ∧ x.Timed) ∧
    ∀ before moment runId experiment version hash startedAt artifactPath life,
      history = before ++ (moment, .createRun
        { RunRecord.new runId experiment version hash startedAt with artifactPath }) :: life →
      (memory.after before ∅).get? runId = none →
      (∀ entry ∈ life, (∀ run, entry.2 = .updateRun run → run.runId ≠ runId) ∧
        entry.2 ≠ .deleteRun runId) →
      ∃ x, (memory.after history ∅).get? runId = some x ∧
        (x.run.finishedAt.isSome ↔ x.run.status ≠ .running) := by
  constructor
  · intro runId x found
    obtain ⟨named, keyed, timed⟩ := files_empty.after history runId x found
    exact ⟨named, keyed, timed⟩
  · intro before moment runId experiment version hash startedAt artifactPath life split absent
      spares
    have files := files_empty.after before
    rw [split, after_append, after_cons]
    exact (holdsEnding_of_new absent rfl rfl).after (files.perform _) spares

/-- A run that is added, started on a space and completed. -/
theorem memory_represents_completed :
    let run := RunRecord.new "run" "experiment" "1" "hash" ⟨5, 0⟩
    let life : List (Timestamp × Operation) :=
      [(⟨6, 0⟩, .startSpace "run" "space"), (⟨7, 0⟩, .setRunStatus "run" .completed none)]
    ∃ x, (memory.after ((⟨5, 0⟩, .createRun run) :: life) ∅).get? "run" = some x ∧
      (x.run.finishedAt.isSome ↔ x.run.status ≠ .running) := by
  intro run life
  apply (memory_represents ((⟨5, 0⟩, .createRun run) :: life)).2 []
  · rfl
  · rfl
  · intro entry mem
    simp only [life, List.mem_cons, List.not_mem_nil, or_false] at mem
    obtain rfl | rfl := mem <;> simp

end Backend

end Sweep
