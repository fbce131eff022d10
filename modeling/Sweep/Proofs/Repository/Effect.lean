import Sweep.Proofs.Run.Standing
import Sweep.Proofs.Table
import Sweep.Repository.Memory
import Sweep.Repository.Operation

/-!
# What operations do to a repository

An operation only looks, adds a run, removes a run, or changes the snapshot of one run. Which of
these it is can be told from the operation alone, so a repository need not be known to say what an
operation does to it. In memory each of the four is a function of the table of snapshots, and an
operation that fails leaves the table as it is.
-/

namespace Sweep

namespace Operation

/-- What an operation does to a repository. -/
inductive Effect where
  | looks
  | adds (run : RunRecord)
  | removes (runId : String)
  | changes (runId : String) (change : Timestamp → RunSnapshot → Except RecordKey RunSnapshot)

/-- What an operation does, whether it succeeds or not. -/
def effect : Operation → Effect
  | createRun run => .adds run
  | updateRun run => .changes run.runId fun _ x => .ok { x with run }
  | setRunStatus runId status error =>
    .changes runId fun now x => .ok (x.setStatus now status error)
  | setRunPosition runId space index task =>
    .changes runId fun _ x => .ok (x.setPosition space index task)
  | deleteRun runId => .removes runId
  | startSpace runId space => .changes runId fun now x => .ok (x.startSpace now space)
  | setSpaceStatus runId space status =>
    .changes runId fun now x => x.setSpaceStatus now space status
  | resetSpace runId space => .changes runId fun _ x => .ok (x.resetSpace space)
  | startSet runId space index parameters =>
    .changes runId fun now x => .ok (x.startSet now space index parameters)
  | setSetStatus runId space index status =>
    .changes runId fun now x => x.setSetStatus now space index status
  | startTask runId space index task =>
    .changes runId fun now x => .ok (x.startTask now space index task)
  | setTaskStatus runId space index task status error =>
    .changes runId fun now x => x.setTaskStatus now space index task status error
  | putMapping runId mapping => .changes runId fun _ x => .ok (x.putMapping mapping)
  | enter runId space => .changes runId fun now x => .ok (x.enter now space)
  | getRun _ | listRuns | runNames | getSnapshot _ | getSpace .. | getSet .. | getTask ..
  | getMapping .. | getMappings .. | latestMapping .. | getControl _ | taskCounts ..
  | spaceCounts _ | setCounts .. => .looks

def Effect.apply (now : Timestamp) (runs : Table RunSnapshot) : Effect → Table RunSnapshot
  | .looks => runs
  | .adds run =>
    if (runs.get? run.runId).isSome then runs else runs.insert run.runId (.ofRun run)
  | .removes runId => runs.erase runId
  | .changes runId change =>
    match runs.get? runId with
    | none => runs
    | some x =>
      match change now x with
      | .error _ => runs
      | .ok y => runs.insert y.run.runId (y.touch now)

end Operation

namespace Backend

open Conduct

variable {S α β : Type} {b : Backend S} {now : Timestamp} {s : S}

/-! ## Any backend -/

/-- An operation that leaves every store as it is. -/
def Looks (a : RepositoryM S α) : Prop := ∀ now s, (a now s).2 = s

theorem Looks.pure (x : α) : Looks (pure x : RepositoryM S α) := fun _ _ => rfl

theorem Looks.throw (e : RepositoryError) : Looks (throw e : RepositoryM S α) := fun _ _ => rfl

theorem Looks.bind {a : RepositoryM S α} {f : α → RepositoryM S β} (first : Looks a)
    (goesOn : ∀ x, Looks (f x)) : Looks (a >>= f) := by
  intro now s
  have same := first now s
  rw [operation_bind_eval]
  cases h : a now s with
  | mk result s' =>
    rw [h] at same
    cases result with
    | error e => exact same
    | ok x => exact (goesOn x now s').trans same

theorem looks_loadSnapshot (runId : String) : Looks (b.loadSnapshot runId) := fun _ _ => rfl

theorem looks_snapshot (runId : String) : Looks (b.snapshot runId) := by
  apply Looks.bind (looks_loadSnapshot runId)
  intro found
  cases found with
  | none => exact Looks.throw _
  | some x => exact Looks.pure x

theorem looks_mapM {f : α → RepositoryM S β} (each : ∀ x, Looks (f x)) (xs : List α) :
    Looks (xs.mapM f) := by
  induction xs with
  | nil =>
    rw [List.mapM_nil]
    exact Looks.pure []
  | cons x rest ih =>
    rw [List.mapM_cons]
    exact (each x).bind fun _ => ih.bind fun _ => Looks.pure _

theorem looks_listRuns : Looks b.listRuns := by
  apply Looks.bind (fun _ _ => rfl)
  intro names
  exact (looks_mapM looks_loadSnapshot names).bind fun _ => Looks.pure _

/-- What follows an operation only to give its answer another form changes no store. -/
theorem reply_eval (a : RepositoryM S α) (reply : α → Reply) :
    ((a >>= fun x => pure (reply x)) now s).2 = (a now s).2 := by
  rw [operation_bind_eval]
  rcases a now s with ⟨_ | _, s'⟩ <;> rfl

/-- The store after an operation is told by the effect of the operation. -/
theorem perform_store (op : Operation) : (b.perform op now s).2 =
    match op.effect with
    | .looks => s
    | .adds run => (b.createRun run now s).2
    | .removes runId => (b.deleteRun runId now s).2
    | .changes runId change => (b.modify runId change now s).2 := by
  have answer {α : Type} {a : RepositoryM S α} {reply : α → Reply} (looks : Looks a) :
      ((a >>= fun x => pure (reply x)) now s).2 = s :=
    (reply_eval a reply).trans (looks now s)
  have reading {α : Type} (runId : String) (f : RunSnapshot → α) :
      Looks (b.snapshot runId >>= fun x => pure (f x)) :=
    (looks_snapshot runId).bind fun _ => Looks.pure _
  cases op with
  | getRun => exact answer ((looks_loadSnapshot _).bind fun _ => Looks.pure _)
  | listRuns => exact answer looks_listRuns
  | runNames => exact answer fun _ _ => rfl
  | getSnapshot => exact answer (looks_snapshot _)
  | getSpace | getSet | getTask | getMapping | getMappings | latestMapping | getControl
  | taskCounts | spaceCounts | setCounts => exact answer (reading _ _)
  | createRun | updateRun | setRunStatus | setRunPosition | deleteRun | startSpace
  | setSpaceStatus | resetSpace | startSet | setSetStatus | startTask | setTaskStatus
  | putMapping | enter => exact reply_eval _ _

/-! ## The repository in memory -/

variable {runs : Table RunSnapshot}

theorem memory_modify (runId : String)
    (change : Timestamp → RunSnapshot → Except RecordKey RunSnapshot) :
    (memory.modify runId change now runs).2 =
      (Operation.Effect.changes runId change).apply now runs := by
  have load : memory.loadSnapshot runId now runs = (.ok (runs.get? runId), runs) := rfl
  rw [Operation.Effect.apply]
  cases found : runs.get? runId with
  | none =>
    rw [found] at load
    simp only [modify, snapshot, operation_bind_eval, load]
    rfl
  | some x =>
    have loads : memory.load runId runs = .ok (some x) := congrArg Except.ok found
    dsimp only
    cases changed : change now x with
    | error key =>
      have time : (read : RepositoryM (Table RunSnapshot) Timestamp) now runs = (.ok now, runs) :=
        rfl
      simp only [modify, operation_bind_eval, snapshot_eval loads, time, changed]
      rfl
    | ok y =>
      rw [modify_eval loads changed]
      rfl

theorem memory_createRun (run : RunRecord) :
    (memory.createRun run now runs).2 = (Operation.Effect.adds run).apply now runs := by
  have load : memory.loadSnapshot run.runId now runs = (.ok (runs.get? run.runId), runs) := rfl
  rw [Operation.Effect.apply, createRun, operation_bind_eval, load]
  cases runs.get? run.runId <;> rfl

/-- In memory an operation does to the table what its effect says. -/
theorem memory_perform (op : Operation) :
    (memory.perform op now runs).2 = op.effect.apply now runs := by
  rw [perform_store]
  cases op.effect with
  | looks => rfl
  | adds run => exact memory_createRun run
  | removes runId => rfl
  | changes runId change => exact memory_modify runId change

def after (b : Backend S) (history : List (Timestamp × Operation)) (s : S) : S :=
  history.foldl (fun s entry => (b.perform entry.2 entry.1 s).2) s

@[simp] theorem after_cons (entry : Timestamp × Operation)
    (rest : List (Timestamp × Operation)) (s : S) :
    b.after (entry :: rest) s = b.after rest (b.perform entry.2 entry.1 s).2 := rfl

/-- What the operations of a history answer, each at its time. -/
def replies (b : Backend S) : List (Timestamp × Operation) → S → List (Except RepositoryError Reply)
  | [], _ => []
  | entry :: rest, s =>
    (b.perform entry.2 entry.1 s).1 :: b.replies rest (b.perform entry.2 entry.1 s).2

theorem after_append (before rest : List (Timestamp × Operation)) (s : S) :
    b.after (before ++ rest) s = b.after rest (b.after before s) :=
  List.foldl_append

theorem replies_concat (history : List (Timestamp × Operation)) (entry : Timestamp × Operation)
    (s : S) : b.replies (history ++ [entry]) s =
      b.replies history s ++ [(b.perform entry.2 entry.1 (b.after history s)).1] := by
  induction history generalizing s with
  | nil => rfl
  | cons first rest ih => rw [List.cons_append, replies, replies, ih, after_cons, List.cons_append]

end Backend

end Sweep
