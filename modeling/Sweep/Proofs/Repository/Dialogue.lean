import Sweep.Proofs.Repository.Effect

/-!
# Operations as dialogues with a store

A backend loads, stores, removes and lists, each at one stroke; an operation of a repository is made
of such accesses. Here it is taken apart into them: a dialogue makes its next access and goes on
with what that answers, or it has ended. To perform an operation is to hold its dialogue to the end,
on every backend, so what can be said of each access can be said of each operation. And between two
accesses of one operation there may be accesses of others.
-/

namespace Sweep

/-- What is left of an operation: it has ended, or makes an access and goes on with the answer. -/
inductive Dialogue where
  | ends (result : Except RepositoryError Reply)
  | load (runId : String) (goesOn : Option RunSnapshot → Dialogue)
  | store (snapshot : RunSnapshot) (goesOn : Dialogue)
  | remove (runId : String) (goesOn : Bool → Dialogue)
  | list (goesOn : List String → Dialogue)

namespace Dialogue

variable {S : Type} (b : Backend S)

/-- Makes the next access, if there is one left. An access that fails ends the dialogue. -/
def step : Dialogue → S → Dialogue × S
  | ends result, s => (ends result, s)
  | load runId goesOn, s =>
    match b.load runId s with
    | .ok found => (goesOn found, s)
    | .error e => (ends (.error e), s)
  | store snapshot goesOn, s =>
    match b.store snapshot s with
    | (.ok _, s) => (goesOn, s)
    | (.error e, s) => (ends (.error e), s)
  | remove runId goesOn, s =>
    match b.remove runId s with
    | (.ok wasThere, s) => (goesOn wasThere, s)
    | (.error e, s) => (ends (.error e), s)
  | list goesOn, s =>
    match b.runIds s with
    | .ok names => (goesOn names, s)
    | .error e => (ends (.error e), s)

/-- Makes all accesses that are left, one right after the other. -/
def hold : Dialogue → S → Except RepositoryError Reply × S
  | ends result, s => (result, s)
  | load runId goesOn, s =>
    match b.load runId s with
    | .ok found => hold (goesOn found) s
    | .error e => (.error e, s)
  | store snapshot goesOn, s =>
    match b.store snapshot s with
    | (.ok _, s) => hold goesOn s
    | (.error e, s) => (.error e, s)
  | remove runId goesOn, s =>
    match b.remove runId s with
    | (.ok wasThere, s) => hold (goesOn wasThere) s
    | (.error e, s) => (.error e, s)
  | list goesOn, s =>
    match b.runIds s with
    | .ok names => hold (goesOn names) s
    | .error e => (.error e, s)

section Equations

variable {b} {s : S} {goesOn : Dialogue}

@[simp] theorem hold_ends (result : Except RepositoryError Reply) :
    (ends result).hold b s = (result, s) := rfl

theorem hold_load (runId : String) (goesOn : Option RunSnapshot → Dialogue) :
    (load runId goesOn).hold b s =
      match b.load runId s with
      | .ok found => (goesOn found).hold b s
      | .error e => (.error e, s) := by
  rw [hold]

theorem hold_store (x : RunSnapshot) :
    (store x goesOn).hold b s =
      match b.store x s with
      | (.ok _, s) => goesOn.hold b s
      | (.error e, s) => (.error e, s) := rfl

theorem hold_remove (runId : String) (goesOn : Bool → Dialogue) :
    (remove runId goesOn).hold b s =
      match b.remove runId s with
      | (.ok wasThere, s) => (goesOn wasThere).hold b s
      | (.error e, s) => (.error e, s) := by
  rw [hold]

theorem hold_list (goesOn : List String → Dialogue) :
    (list goesOn).hold b s =
      match b.runIds s with
      | .ok names => (goesOn names).hold b s
      | .error e => (.error e, s) := by
  rw [hold]

end Equations

/-- To make one access and then all others is to make all of them. -/
theorem hold_step (d : Dialogue) (s : S) : (d.step b s).1.hold b (d.step b s).2 = d.hold b s := by
  cases d with
  | ends => rfl
  | load runId =>
    rw [step, hold_load]
    cases b.load runId s <;> rfl
  | store x =>
    rw [step, hold_store]
    rcases b.store x s with ⟨_ | _, _⟩ <;> rfl
  | remove runId =>
    rw [step, hold_remove]
    rcases b.remove runId s with ⟨_ | _, _⟩ <;> rfl
  | list =>
    rw [step, hold_list]
    cases b.runIds s <;> rfl

/-! ## The dialogues of operations -/

/-- Looks at the snapshot of a run, which has to be there. -/
def look (runId : String) (answer : RunSnapshot → Reply) : Dialogue :=
  load runId fun
    | some x => ends (.ok (answer x))
    | none => ends (.error (.runNotFound runId))

def loadAll : List String → (List (Option RunSnapshot) → Dialogue) → Dialogue
  | [], goesOn => goesOn []
  | runId :: rest, goesOn =>
    load runId fun found => loadAll rest fun others => goesOn (found :: others)

/-- Adds a run that is not there yet. -/
def create (run : RunRecord) : Dialogue :=
  load run.runId fun found =>
    if found.isSome then ends (.error (.runExists run.runId))
    else store (.ofRun run) (ends (.ok .done))

/-- Changes the snapshot of a run: loads it, and stores what it was changed to. -/
def modify (runId : String) (change : Timestamp → RunSnapshot → Except RecordKey RunSnapshot)
    (now : Timestamp) : Dialogue :=
  load runId fun
    | none => ends (.error (.runNotFound runId))
    | some x =>
      match change now x with
      | .error key => ends (.error (.recordNotFound key))
      | .ok y => store (y.touch now) (ends (.ok .done))

end Dialogue

namespace Operation

open Dialogue

/-- The run that an operation is about; to list runs is about no run. -/
def runId? : Operation → Option String
  | listRuns | runNames => none
  | createRun run | updateRun run => some run.runId
  | getRun runId | setRunStatus runId .. | setRunPosition runId .. | deleteRun runId
  | getSnapshot runId | startSpace runId _ | getSpace runId _ | setSpaceStatus runId ..
  | resetSpace runId _ | startSet runId .. | getSet runId .. | setSetStatus runId ..
  | startTask runId .. | getTask runId .. | setTaskStatus runId .. | putMapping runId _
  | getMapping runId .. | getMappings runId .. | latestMapping runId _ | getControl runId
  | enter runId _ | taskCounts runId _ | spaceCounts runId | setCounts runId _ => some runId

def answer (x : RunSnapshot) : Operation → Reply
  | getRun _ => .run (some x.run)
  | getSnapshot _ => .snapshot x
  | getSpace _ space => .space (x.space? space)
  | getSet _ space index => .set (x.set? space index)
  | getTask _ space index task => .task (x.task? space index task)
  | getMapping _ space index name => .mapping (x.mapping? space index name)
  | getMappings _ space index => .mappings (x.mappingsOf space index)
  | latestMapping _ name => .mapping (x.latestMapping? name)
  | getControl _ => .control x.control
  | taskCounts _ space => .counts (x.taskCounts space)
  | spaceCounts _ => .counts x.spaceCounts
  | setCounts _ space => .counts (x.setCounts space)
  | _ => .done

/-- The dialogue of an operation that only looks. Only to look at the record of a run, or to list
runs, does not need the run to be there. -/
def inquiry : Operation → Dialogue
  | getRun runId => load runId fun found => ends (.ok (.run (found.map (·.run))))
  | listRuns => list fun names => loadAll names fun found =>
      ends (.ok (.runs ((found.filterMap fun x => x.map (·.run)).mergeSort Backend.startsNoLater)))
  | runNames => list fun names => ends (.ok (.names names))
  | op =>
    match op.runId? with
    | some runId => look runId (op.answer ·)
    | none => ends (.ok .done)

def dialogue (now : Timestamp) (op : Operation) : Dialogue :=
  match op.effect with
  | .looks => op.inquiry
  | .adds run => create run
  | .removes runId => remove runId fun wasThere => ends (.ok (.removed wasThere))
  | .changes runId change => modify runId change now

end Operation

namespace Backend

open Conduct

variable {S : Type} {b : Backend S} {now : Timestamp} {s : S}

theorem loadSnapshot_eval (runId : String) : b.loadSnapshot runId now s = (b.load runId s, s) := rfl

theorem runNames_eval : b.runNames now s = (b.runIds s, s) := rfl

theorem loadSnapshot_hold (runId : String) (answer : Option RunSnapshot → Reply) :
    (b.loadSnapshot runId >>= fun found => pure (answer found)) now s =
      (Dialogue.load runId fun found => .ends (.ok (answer found))).hold b s := by
  rw [operation_bind_eval, loadSnapshot_eval, Dialogue.hold_load]
  cases b.load runId s <;> rfl

theorem snapshot_hold (runId : String) (answer : RunSnapshot → Reply) :
    (b.snapshot runId >>= fun x => pure (answer x)) now s =
      (Dialogue.look runId answer).hold b s := by
  rw [operation_bind_eval, Backend.snapshot, operation_bind_eval, loadSnapshot_eval, Dialogue.look,
    Dialogue.hold_load]
  rcases b.load runId s with _ | _ | _ <;> rfl

theorem modify_hold (runId : String)
    (change : Timestamp → RunSnapshot → Except RecordKey RunSnapshot) :
    (b.modify runId change >>= fun _ => pure Reply.done) now s =
      (Dialogue.modify runId change now).hold b s := by
  rw [Dialogue.modify, Dialogue.hold_load, operation_bind_eval]
  rcases loads : b.load runId s with _ | _ | x
  · rw [Backend.modify, operation_bind_eval, Backend.snapshot, operation_bind_eval,
      loadSnapshot_eval, loads]
  · rw [Backend.modify, operation_bind_eval, Backend.snapshot, operation_bind_eval,
      loadSnapshot_eval, loads]
    rfl
  · cases changed : change now x with
    | error key =>
      have time : (read : RepositoryM S Timestamp) now s = (.ok now, s) := rfl
      rw [Backend.modify, operation_bind_eval, snapshot_eval loads]
      simp only [operation_bind_eval, time, changed]
      rfl
    | ok y =>
      rw [modify_eval loads changed]
      simp only [changed, Dialogue.hold_store]
      rcases b.store (y.touch now) s with ⟨_ | _, _⟩ <;> rfl

theorem createRun_hold (run : RunRecord) :
    (b.createRun run >>= fun _ => pure Reply.done) now s = (Dialogue.create run).hold b s := by
  have stored : b.storeSnapshot (.ofRun run) now s = b.store (.ofRun run) s := rfl
  rw [operation_bind_eval, createRun, operation_bind_eval, loadSnapshot_eval, Dialogue.create,
    Dialogue.hold_load]
  rcases b.load run.runId s with _ | _ | x
  · rfl
  · simp only [Option.isSome_none, Bool.false_eq_true, if_false, stored, Dialogue.hold_store]
    rcases b.store (.ofRun run) s with ⟨_ | _, _⟩ <;> rfl
  · rfl

theorem deleteRun_hold (runId : String) :
    (b.deleteRun runId >>= fun wasThere => pure (Reply.removed wasThere)) now s =
      (Dialogue.remove runId fun wasThere => .ends (.ok (.removed wasThere))).hold b s := by
  have removed : b.deleteRun runId now s = b.remove runId s := rfl
  rw [operation_bind_eval, removed, Dialogue.hold_remove]
  rcases b.remove runId s with ⟨_ | _, _⟩ <;> rfl

theorem runNames_hold :
    (b.runNames >>= fun names => pure (Reply.names names)) now s =
      (Dialogue.list fun names => .ends (.ok (.names names))).hold b s := by
  rw [operation_bind_eval, runNames_eval, Dialogue.hold_list]
  cases b.runIds s <;> rfl

theorem hold_loadAll (now : Timestamp) (runIds : List String)
    (goesOn : List (Option RunSnapshot) → Dialogue) :
    (Dialogue.loadAll runIds goesOn).hold b s =
      match runIds.mapM b.loadSnapshot now s with
      | (.ok found, s') => (goesOn found).hold b s'
      | (.error e, s') => (.error e, s') := by
  induction runIds generalizing goesOn with
  | nil => rfl
  | cons runId rest ih =>
    rw [Dialogue.loadAll, Dialogue.hold_load, List.mapM_cons, operation_bind_eval,
      loadSnapshot_eval]
    cases b.load runId s with
    | error => rfl
    | ok found =>
      simp only [ih, operation_bind_eval]
      rcases rest.mapM b.loadSnapshot now s with ⟨_ | _, _⟩ <;> rfl

theorem listRuns_hold :
    (b.listRuns >>= fun runs => pure (Reply.runs runs)) now s =
      (Operation.inquiry .listRuns).hold b s := by
  rw [operation_bind_eval, listRuns, operation_bind_eval, runNames_eval, Operation.inquiry,
    Dialogue.hold_list]
  cases b.runIds s with
  | error => rfl
  | ok found =>
    simp only [hold_loadAll now, operation_bind_eval]
    rcases found.mapM b.loadSnapshot now s with ⟨_ | _, _⟩ <;> rfl

/-- To perform an operation is to hold its dialogue to the end. -/
theorem perform_eq_hold (op : Operation) : b.perform op now s = (op.dialogue now).hold b s := by
  have reading {α : Type} (runId : String) (f : RunSnapshot → α) (reply : α → Reply) :
      ((b.snapshot runId >>= fun x => pure (f x)) >>= fun y => pure (reply y)) now s =
        (Dialogue.look runId fun x => reply (f x)).hold b s := by
    rw [bind_assoc]
    exact snapshot_hold _ _
  have changing {runId : String}
      {change : Timestamp → RunSnapshot → Except RecordKey RunSnapshot}
      (effect : op.effect = .changes runId change)
      (performs : b.perform op = (b.modify runId change >>= fun _ => pure Reply.done)) :
      b.perform op now s = (op.dialogue now).hold b s := by
    rw [performs, Operation.dialogue, effect]
    exact modify_hold runId change
  cases op with
  | getRun =>
    refine (congrFun (congrFun (bind_assoc _ _ _) now) s).trans ?_
    exact loadSnapshot_hold _ _
  | listRuns => exact listRuns_hold
  | runNames => exact runNames_hold
  | getSnapshot => exact snapshot_hold _ _
  | getSpace | getSet | getTask | getMapping | getMappings | latestMapping | getControl
  | taskCounts | spaceCounts | setCounts => exact reading _ _ _
  | deleteRun => exact deleteRun_hold _
  | createRun => exact createRun_hold _
  | updateRun | setRunStatus | setRunPosition | startSpace
  | setSpaceStatus | resetSpace | startSet | setSetStatus | startTask | setTaskStatus
  | putMapping | enter => exact changing rfl rfl

end Backend

/-! ## In memory -/

namespace Dialogue

open Backend

variable {runs : Table RunSnapshot} {now : Timestamp}

theorem hold_look_memory (runId : String) (answer : RunSnapshot → Reply) :
    (look runId answer).hold memory runs =
      match runs.get? runId with
      | some x => (.ok (answer x), runs)
      | none => (.error (.runNotFound runId), runs) := by
  rw [look, hold_load]
  dsimp only [memory]
  cases runs.get? runId <;> rfl

theorem hold_loadAll_memory (runIds : List String) (goesOn : List (Option RunSnapshot) → Dialogue) :
    (loadAll runIds goesOn).hold memory runs =
      (goesOn (runIds.map runs.get?)).hold memory runs := by
  induction runIds generalizing goesOn with
  | nil => rfl
  | cons runId rest ih =>
    rw [loadAll, hold_load]
    exact ih fun others => goesOn (runs.get? runId :: others)

theorem hold_create_memory (run : RunRecord) :
    (create run).hold memory runs =
      if (runs.get? run.runId).isSome then (.error (.runExists run.runId), runs)
      else (.ok .done, runs.insert run.runId (.ofRun run)) := by
  rw [create, hold_load]
  dsimp only [memory]
  cases runs.get? run.runId <;> rfl

theorem hold_modify_memory (runId : String)
    (change : Timestamp → RunSnapshot → Except RecordKey RunSnapshot) :
    (modify runId change now).hold memory runs =
      match runs.get? runId with
      | none => (.error (.runNotFound runId), runs)
      | some x =>
        match change now x with
        | .error key => (.error (.recordNotFound key), runs)
        | .ok y => (.ok .done, runs.insert y.run.runId (y.touch now)) := by
  rw [modify, hold_load]
  dsimp only [memory]
  cases runs.get? runId with
  | none => rfl
  | some x =>
    dsimp only
    cases change now x <;> rfl

end Dialogue

end Sweep
