import Sweep.Proofs.Repository.Dialogue

/-!
# Repositories with their clocks ignored

A repository notes the time of what it does: when a unit was started and when it ended, when the run
and the space it is in were last changed. When a run was started and when a value was recorded is
told by those who ask for it to be kept, and so is no time of a clock. What a repository in memory
answers, and what it keeps, depends on the clock in the noted times only: with these erased, two
histories of the same operations cannot be told apart.
-/

namespace Sweep

/-- The record of a run without the times that a repository notes. That there is a finish time is
not erased. -/
def RunRecord.untimed (r : RunRecord) : RunRecord :=
  { r with updatedAt := default, finishedAt := r.finishedAt.map fun _ => default }

def SpaceRecord.untimed (r : SpaceRecord) : SpaceRecord :=
  { r with startedAt := default, finishedAt := r.finishedAt.map fun _ => default }

def SetRecord.untimed (r : SetRecord) : SetRecord :=
  { r with startedAt := default, finishedAt := r.finishedAt.map fun _ => default }

def TaskRecord.untimed (r : TaskRecord) : TaskRecord :=
  { r with startedAt := default, finishedAt := r.finishedAt.map fun _ => default }

def ControlState.untimed (c : ControlState) : ControlState := { c with updatedAt := default }

/-- A snapshot without the times that a repository notes. -/
def RunSnapshot.untimed (x : RunSnapshot) : RunSnapshot where
  run := x.run.untimed
  spaces := x.spaces.map SpaceRecord.untimed
  sets := x.sets.map SetRecord.untimed
  tasks := x.tasks.map TaskRecord.untimed
  mappings := x.mappings
  control := x.control.map ControlState.untimed

/-- What is answered, without the times that a repository notes. -/
def Reply.untimed : Reply → Reply
  | .run r => .run (r.map RunRecord.untimed)
  | .runs rs => .runs (rs.map RunRecord.untimed)
  | .snapshot x => .snapshot x.untimed
  | .space r => .space (r.map SpaceRecord.untimed)
  | .set r => .set (r.map SetRecord.untimed)
  | .task r => .task (r.map TaskRecord.untimed)
  | .control c => .control (c.map ControlState.untimed)
  | reply => reply

/-! ## Records of a key -/

section Records

variable {α β : Type} {erase : α → β} {p : α → Bool} {q : β → Bool} {xs ys : List α}

/-- Records with a property that does not depend on what is erased. -/
theorem map_filter_congr (blind : ∀ x, q (erase x) = p x) (same : xs.map erase = ys.map erase) :
    (xs.filter p).map erase = (ys.filter p).map erase := by
  obtain rfl : q ∘ erase = p := funext blind
  rw [← List.filter_map, ← List.filter_map, same]

theorem map_find?_congr (blind : ∀ x, q (erase x) = p x) (same : xs.map erase = ys.map erase) :
    (xs.find? p).map erase = (ys.find? p).map erase := by
  obtain rfl : q ∘ erase = p := funext blind
  rw [← List.find?_map, ← List.find?_map, same]

theorem map_replace_congr (blind : ∀ x, q (erase x) = p x) (same : xs.map erase = ys.map erase)
    {x y : α} (alike : erase x = erase y) :
    (xs.filter p ++ [x]).map erase = (ys.filter p ++ [y]).map erase := by
  rw [List.map_append, List.map_append, map_filter_congr blind same, List.map_singleton,
    List.map_singleton, alike]

theorem map_updateFirst?_congr {f g : α → α} (blind : ∀ x, q (erase x) = p x)
    (alike : ∀ x y, erase x = erase y → erase (f x) = erase (g y))
    (same : xs.map erase = ys.map erase) :
    (updateFirst? p f xs).map (List.map erase) = (updateFirst? p g ys).map (List.map erase) := by
  induction xs generalizing ys with
  | nil =>
    obtain rfl : ys = [] := List.map_eq_nil_iff.1 same.symm
    rfl
  | cons x rest ih =>
    obtain ⟨y, others, rfl, first, later⟩ := List.map_eq_cons_iff.1 same.symm
    have hit : p y = p x := by rw [← blind, ← blind, first]
    rw [updateFirst?, updateFirst?, hit]
    split
    · rw [Option.map_some, Option.map_some, List.map_cons, List.map_cons, later,
        alike x y first.symm]
    · have consed (z : α) (changed : Option (List α)) :
          (changed.map (z :: ·)).map (List.map erase) =
            (changed.map (List.map erase)).map (erase z :: ·) := by
        cases changed <;> rfl
      rw [consed, consed, ih later.symm, first]

end Records

/-! ## Snapshots -/

theorem SpaceRecord.untimed_setStatus (r : SpaceRecord) (status : UnitStatus) (now : Timestamp) :
    ({ r with status, finishedAt := status.finishAt now } : SpaceRecord).untimed =
      { r.untimed with status, finishedAt := status.finishAt default } := by
  cases status <;> rfl

theorem SetRecord.untimed_setStatus (r : SetRecord) (status : UnitStatus) (now : Timestamp) :
    ({ r with status, finishedAt := status.finishAt now } : SetRecord).untimed =
      { r.untimed with status, finishedAt := status.finishAt default } := by
  cases status <;> rfl

theorem TaskRecord.untimed_setStatus (r : TaskRecord) (status : UnitStatus)
    (error : Option String) (now : Timestamp) :
    ({ r with status, error, finishedAt := status.finishAt now } : TaskRecord).untimed =
      { r.untimed with status, error, finishedAt := status.finishAt default } := by
  cases status <;> rfl

namespace RunSnapshot

variable {x y : RunSnapshot}

theorem untimed_setStatus (x : RunSnapshot) (now : Timestamp) (status : RunStatus)
    (error : Option String) :
    (x.setStatus now status error).run.untimed = { x.run.untimed with
      status, error, finishedAt := if status = .running then none else some default } := by
  cases status <;> rfl

theorem untimed_eq_iff : x.untimed = y.untimed ↔
    x.run.untimed = y.run.untimed ∧
      x.spaces.map SpaceRecord.untimed = y.spaces.map SpaceRecord.untimed ∧
      x.sets.map SetRecord.untimed = y.sets.map SetRecord.untimed ∧
      x.tasks.map TaskRecord.untimed = y.tasks.map TaskRecord.untimed ∧
      x.mappings = y.mappings ∧
      x.control.map ControlState.untimed = y.control.map ControlState.untimed := by
  rw [untimed, untimed, mk.injEq]

theorem setSpaceStatus_eq_elim (x : RunSnapshot) (now : Timestamp) (space : String)
    (status : UnitStatus) : x.setSpaceStatus now space status =
      (updateFirst? (·.isAbout space)
        (fun r => { r with status, finishedAt := status.finishAt now })
        x.spaces).elim (.error (.space space)) fun spaces => .ok { x with spaces } := by
  rw [setSpaceStatus]
  cases updateFirst? _ _ x.spaces <;> rfl

theorem setSetStatus_eq_elim (x : RunSnapshot) (now : Timestamp) (space : String) (index : Nat)
    (status : UnitStatus) : x.setSetStatus now space index status =
      (updateFirst? (·.isAbout space index)
        (fun r => { r with status, finishedAt := status.finishAt now })
        x.sets).elim (.error (.set space index)) fun sets => .ok { x with sets } := by
  rw [setSetStatus]
  cases updateFirst? _ _ x.sets <;> rfl

theorem setTaskStatus_eq_elim (x : RunSnapshot) (now : Timestamp) (space : String) (index : Nat)
    (task : String) (status : UnitStatus) (error : Option String) :
    x.setTaskStatus now space index task status error =
      (updateFirst? (·.isAbout space index task)
        (fun r => { r with status, error, finishedAt := status.finishAt now })
        x.tasks).elim (.error (.task space index task)) fun tasks => .ok { x with tasks } := by
  rw [setTaskStatus]
  cases updateFirst? _ _ x.tasks <;> rfl

/-- A change of the first record of a key, which has to be there. -/
theorem untimed_of_updated {α : Type} {erase : α → α} {found found' : Option (List α)}
    {f g : List α → RunSnapshot}
    (same : found.map (List.map erase) = found'.map (List.map erase))
    (alike : ∀ rs rs', rs.map erase = rs'.map erase → (f rs).untimed = (g rs').untimed)
    (key : RecordKey) :
    (found.elim (.error key) fun rs => .ok (f rs) : Except RecordKey RunSnapshot).map untimed =
      (found'.elim (.error key) fun rs => .ok (g rs) :
        Except RecordKey RunSnapshot).map untimed := by
  cases found <;> cases found'
  · rfl
  · cases same
  · cases same
  · exact congrArg Except.ok (alike _ _ (Option.some.inj same))

end RunSnapshot

namespace Operation

variable {op : Operation} {runId : String} {x y : RunSnapshot}
  {change : Timestamp → RunSnapshot → Except RecordKey RunSnapshot}

/-- What a change makes of two snapshots that differ in noted times only differs in noted times
only, at whatever times it is made. -/
theorem untimed_of_effect (effect : op.effect = .changes runId change)
    (same : x.untimed = y.untimed) (now later : Timestamp) :
    (change now x).map RunSnapshot.untimed = (change later y).map RunSnapshot.untimed := by
  obtain ⟨run, spaces, sets, tasks, mappings, control⟩ := RunSnapshot.untimed_eq_iff.1 same
  cases op with
  | updateRun =>
    cases effect
    exact congrArg Except.ok
      (RunSnapshot.untimed_eq_iff.2 ⟨rfl, spaces, sets, tasks, mappings, control⟩)
  | setRunStatus _ status error =>
    cases effect
    have run' : (x.setStatus now status error).run.untimed =
        (y.setStatus later status error).run.untimed := by
      rw [RunSnapshot.untimed_setStatus, RunSnapshot.untimed_setStatus, run]
    exact congrArg Except.ok
      (RunSnapshot.untimed_eq_iff.2 ⟨run', spaces, sets, tasks, mappings, control⟩)
  | setRunPosition _ space index task =>
    cases effect
    have run' := congrArg (fun r : RunRecord =>
      { r with currentSpace := space, currentSet := index, currentTask := task }) run
    exact congrArg Except.ok
      (RunSnapshot.untimed_eq_iff.2 ⟨run', spaces, sets, tasks, mappings, control⟩)
  | startSpace _ space =>
    cases effect
    have spaces' := map_replace_congr (p := fun r => !r.isAbout space)
      (q := fun r => !r.isAbout space) (fun _ => rfl) spaces
      (x := ⟨space, .running, now, none⟩) (y := ⟨space, .running, later, none⟩) rfl
    exact congrArg Except.ok
      (RunSnapshot.untimed_eq_iff.2 ⟨run, spaces', sets, tasks, mappings, control⟩)
  | startSet _ space index parameters =>
    cases effect
    have sets' := map_replace_congr (p := fun r => !r.isAbout space index)
      (q := fun r => !r.isAbout space index) (fun _ => rfl) sets
      (x := ⟨space, index, parameters, .running, now, none⟩)
      (y := ⟨space, index, parameters, .running, later, none⟩) rfl
    exact congrArg Except.ok
      (RunSnapshot.untimed_eq_iff.2 ⟨run, spaces, sets', tasks, mappings, control⟩)
  | startTask _ space index task =>
    cases effect
    have run' := congrArg (fun r : RunRecord =>
      { r with currentSpace := some space, currentSet := some index, currentTask := some task }) run
    have tasks' := map_replace_congr (p := fun r => !r.isAbout space index task)
      (q := fun r => !r.isAbout space index task) (fun _ => rfl) tasks
      (x := ⟨space, index, task, .running, now, none, none⟩)
      (y := ⟨space, index, task, .running, later, none, none⟩) rfl
    exact congrArg Except.ok
      (RunSnapshot.untimed_eq_iff.2 ⟨run', spaces, sets, tasks', mappings, control⟩)
  | resetSpace _ space =>
    cases effect
    have spaces' := map_filter_congr (p := fun r => r.spaceId != space)
      (q := fun r => r.spaceId != space) (fun _ => rfl) spaces
    have sets' := map_filter_congr (p := fun r => r.spaceId != space)
      (q := fun r => r.spaceId != space) (fun _ => rfl) sets
    have tasks' := map_filter_congr (p := fun r => r.spaceId != space)
      (q := fun r => r.spaceId != space) (fun _ => rfl) tasks
    exact congrArg Except.ok
      (RunSnapshot.untimed_eq_iff.2 ⟨run, spaces', sets', tasks', mappings, control⟩)
  | putMapping _ m =>
    cases effect
    have mappings' := congrArg (fun ms => ms.filter (fun n => !m.sameKey n) ++ [m]) mappings
    exact congrArg Except.ok
      (RunSnapshot.untimed_eq_iff.2 ⟨run, spaces, sets, tasks, mappings', control⟩)
  | enter =>
    cases effect
    exact congrArg Except.ok
      (RunSnapshot.untimed_eq_iff.2 ⟨run, spaces, sets, tasks, mappings, rfl⟩)
  | setSpaceStatus _ space status =>
    cases effect
    have updated := map_updateFirst?_congr (p := fun r => r.isAbout space)
      (q := fun r => r.isAbout space)
      (f := fun r => { r with status, finishedAt := status.finishAt now })
      (g := fun r => { r with status, finishedAt := status.finishAt later }) (fun _ => rfl)
      (fun r r' alike => by simp only [SpaceRecord.untimed_setStatus, alike]) spaces
    simp only [RunSnapshot.setSpaceStatus_eq_elim]
    exact RunSnapshot.untimed_of_updated (f := fun spaces => { x with spaces })
      (g := fun spaces => { y with spaces }) updated
      (fun _ _ spaces' =>
        RunSnapshot.untimed_eq_iff.2 ⟨run, spaces', sets, tasks, mappings, control⟩)
      (.space space)
  | setSetStatus _ space index status =>
    cases effect
    have updated := map_updateFirst?_congr (p := fun r => r.isAbout space index)
      (q := fun r => r.isAbout space index)
      (f := fun r => { r with status, finishedAt := status.finishAt now })
      (g := fun r => { r with status, finishedAt := status.finishAt later }) (fun _ => rfl)
      (fun r r' alike => by simp only [SetRecord.untimed_setStatus, alike]) sets
    simp only [RunSnapshot.setSetStatus_eq_elim]
    exact RunSnapshot.untimed_of_updated (f := fun sets => { x with sets })
      (g := fun sets => { y with sets }) updated
      (fun _ _ sets' =>
        RunSnapshot.untimed_eq_iff.2 ⟨run, spaces, sets', tasks, mappings, control⟩)
      (.set space index)
  | setTaskStatus _ space index task status error =>
    cases effect
    have updated := map_updateFirst?_congr (p := fun r => r.isAbout space index task)
      (q := fun r => r.isAbout space index task)
      (f := fun r => { r with status, error, finishedAt := status.finishAt now })
      (g := fun r => { r with status, error, finishedAt := status.finishAt later }) (fun _ => rfl)
      (fun r r' alike => by simp only [TaskRecord.untimed_setStatus, alike]) tasks
    simp only [RunSnapshot.setTaskStatus_eq_elim]
    exact RunSnapshot.untimed_of_updated (f := fun tasks => { x with tasks })
      (g := fun tasks => { y with tasks }) updated
      (fun _ _ tasks' =>
        RunSnapshot.untimed_eq_iff.2 ⟨run, spaces, sets, tasks', mappings, control⟩)
      (.task space index task)
  | _ => cases effect

/-- What is answered of two snapshots that differ in noted times only. -/
theorem untimed_answer (op : Operation) (same : x.untimed = y.untimed) :
    (op.answer x).untimed = (op.answer y).untimed := by
  obtain ⟨run, spaces, sets, tasks, mappings, control⟩ := RunSnapshot.untimed_eq_iff.1 same
  cases op with
  | getRun => exact congrArg (fun r => Reply.run (some r)) run
  | getSnapshot => exact congrArg Reply.snapshot same
  | getSpace _ space =>
    exact congrArg Reply.space (map_find?_congr (q := (·.isAbout space)) (fun _ => rfl) spaces)
  | getSet _ space index =>
    exact congrArg Reply.set (map_find?_congr (q := (·.isAbout space index)) (fun _ => rfl) sets)
  | getTask _ space index task =>
    exact congrArg Reply.task
      (map_find?_congr (q := (·.isAbout space index task)) (fun _ => rfl) tasks)
  | getMapping _ space index name =>
    exact congrArg (fun ms => Reply.mapping (ms.find? (·.isAbout space index name))) mappings
  | getMappings _ space index =>
    exact congrArg (fun ms => Reply.mappings
      (ms.filter fun m => m.spaceId == space && m.index == index)) mappings
  | latestMapping _ name =>
    exact congrArg (fun ms => Reply.mapping
      ((ms.filter fun m => m.name == name).foldl RunSnapshot.later none)) mappings
  | getControl => exact congrArg Reply.control control
  | taskCounts _ space =>
    have counted := map_filter_congr (q := fun r => space.all (r.spaceId == ·)) (fun _ => rfl) tasks
    have statuses := congrArg (List.map TaskRecord.status) counted
    rw [List.map_map, List.map_map] at statuses
    exact congrArg (fun statuses => Reply.counts (.ofList statuses)) statuses
  | spaceCounts =>
    have statuses := congrArg (List.map SpaceRecord.status) spaces
    rw [List.map_map, List.map_map] at statuses
    exact congrArg (fun statuses => Reply.counts (.ofList statuses)) statuses
  | setCounts _ space =>
    have counted := map_filter_congr (q := fun r => r.spaceId == space) (fun _ => rfl) sets
    have statuses := congrArg (List.map SetRecord.status) counted
    rw [List.map_map, List.map_map] at statuses
    exact congrArg (fun statuses => Reply.counts (.ofList statuses)) statuses
  | _ => rfl

end Operation

/-! ## The repository in memory -/

namespace Backend

variable {runs runs' : Table RunSnapshot} {now later : Timestamp}

/-- Two results of operations in memory that differ in noted times only. -/
structure Alike (a b : Except RepositoryError Reply × Table RunSnapshot) : Prop where
  reply : a.1.map Reply.untimed = b.1.map Reply.untimed
  runs : a.2.map RunSnapshot.untimed = b.2.map RunSnapshot.untimed

theorem untimed_get? (same : runs.map RunSnapshot.untimed = runs'.map RunSnapshot.untimed)
    (runId : String) :
    (runs.get? runId).map RunSnapshot.untimed = (runs'.get? runId).map RunSnapshot.untimed := by
  rw [← Table.get?_map, ← Table.get?_map, same]

theorem untimed_insert (same : runs.map RunSnapshot.untimed = runs'.map RunSnapshot.untimed)
    (runId : String) {x y : RunSnapshot} (alike : x.untimed = y.untimed) :
    (runs.insert runId x).map RunSnapshot.untimed =
      (runs'.insert runId y).map RunSnapshot.untimed := by
  rw [Table.map_insert, Table.map_insert, same, alike]

theorem untimed_keys (same : runs.map RunSnapshot.untimed = runs'.map RunSnapshot.untimed) :
    runs.keys = runs'.keys := by
  rw [← Table.keys_map RunSnapshot.untimed runs, same, Table.keys_map]

theorem alike_look (same : runs.map RunSnapshot.untimed = runs'.map RunSnapshot.untimed)
    (runId : String) (op : Operation) :
    Alike ((Dialogue.look runId (op.answer ·)).hold memory runs)
      ((Dialogue.look runId (op.answer ·)).hold memory runs') := by
  have found := untimed_get? same runId
  rw [Dialogue.hold_look_memory, Dialogue.hold_look_memory]
  cases here : runs.get? runId <;> cases there : runs'.get? runId <;> rw [here, there] at found
  · exact ⟨rfl, same⟩
  · cases found
  · cases found
  · exact ⟨congrArg Except.ok (op.untimed_answer (Option.some.inj found)), same⟩

theorem alike_listRuns (same : runs.map RunSnapshot.untimed = runs'.map RunSnapshot.untimed) :
    Alike ((Operation.inquiry .listRuns).hold memory runs)
      ((Operation.inquiry .listRuns).hold memory runs') := by
  have listed (runs : Table RunSnapshot) : (Operation.inquiry .listRuns).hold memory runs =
      (.ok (.runs (((runs.keys.map runs.get?).filterMap fun x => x.map (·.run)).mergeSort
        startsNoLater)), runs) := by
    rw [Operation.inquiry, Dialogue.hold_list]
    exact Dialogue.hold_loadAll_memory _ _
  -- To erase the noted times does not change how runs are sorted.
  have sorted (runs : Table RunSnapshot) :
      (((runs.keys.map runs.get?).filterMap fun x => x.map (·.run)).mergeSort startsNoLater).map
          RunRecord.untimed =
        (runs.keys.filterMap fun runId =>
          ((runs.get? runId).map RunSnapshot.untimed).map (·.run)).mergeSort startsNoLater := by
    have blind (a b : RunRecord) : startsNoLater a b = startsNoLater a.untimed b.untimed := rfl
    rw [List.map_mergeSort fun a _ b _ => blind a b, List.filterMap_map, List.map_filterMap]
    simp only [Function.comp_apply, Option.map_map]
    rfl
  refine ⟨?_, ?_⟩
  · rw [listed, listed]
    show Except.ok (Reply.runs (List.map _ _)) = Except.ok (Reply.runs (List.map _ _))
    rw [sorted, sorted, untimed_keys same]
    simp only [untimed_get? same]
  · rw [listed, listed, same]

/-- An operation on two repositories that differ in noted times only, performed at any two times,
leaves them so and answers alike. -/
theorem perform_untimed (same : runs.map RunSnapshot.untimed = runs'.map RunSnapshot.untimed)
    (op : Operation) (now later : Timestamp) :
    Alike (memory.perform op now runs) (memory.perform op later runs') := by
  rw [perform_eq_hold, perform_eq_hold, Operation.dialogue, Operation.dialogue]
  cases effect : op.effect with
  | looks =>
    cases op with
    | getRun runId =>
      have shown := congrArg (Option.map fun x : RunSnapshot => x.run) (untimed_get? same runId)
      rw [Option.map_map, Option.map_map] at shown
      refine ⟨congrArg (fun r => Except.ok (Reply.run r)) ?_, same⟩
      rw [Option.map_map, Option.map_map]
      exact shown
    | listRuns => exact alike_listRuns same
    | runNames =>
      exact ⟨congrArg (fun names => Except.ok (Reply.names names)) (untimed_keys same), same⟩
    | getSnapshot | getSpace | getSet | getTask | getMapping | getMappings | latestMapping
    | getControl | taskCounts | spaceCounts | setCounts => exact alike_look same _ _
    | _ => cases effect
  | adds run =>
    dsimp only
    rw [Dialogue.hold_create_memory, Dialogue.hold_create_memory]
    have there : (runs.get? run.runId).isSome = (runs'.get? run.runId).isSome := by
      simpa only [Option.isSome_map] using congrArg Option.isSome (untimed_get? same run.runId)
    rw [there]
    split
    · exact ⟨rfl, same⟩
    · exact ⟨rfl, untimed_insert same run.runId rfl⟩
  | removes runId =>
    have there : runs.contains runId = runs'.contains runId := by
      rw [← Table.contains_map RunSnapshot.untimed runs, same, Table.contains_map]
    refine ⟨congrArg (fun wasThere => Except.ok (Reply.removed wasThere)) there, ?_⟩
    exact (Table.map_erase _ _ _).trans ((congrArg (Table.erase · runId) same).trans
      (Table.map_erase _ _ _).symm)
  | changes runId change =>
    dsimp only
    rw [Dialogue.hold_modify_memory, Dialogue.hold_modify_memory]
    have found := untimed_get? same runId
    cases here : runs.get? runId <;> cases there : runs'.get? runId <;> rw [here, there] at found
    · exact ⟨rfl, same⟩
    · cases found
    · cases found
    · next x y =>
      have changed := op.untimed_of_effect effect (Option.some.inj found) now later
      dsimp only
      cases here : change now x <;> cases there : change later y <;> rw [here, there] at changed
      · cases changed
        exact ⟨rfl, same⟩
      · cases changed
      · cases changed
      · next z w =>
        have alike : z.untimed = w.untimed := Except.ok.inj changed
        have named := congrArg (fun x : RunSnapshot => x.run.runId) alike
        change z.run.runId = w.run.runId at named
        dsimp only
        rw [named]
        exact ⟨rfl, untimed_insert same w.run.runId alike⟩

/-- The operations of a history, performed at other times, answer alike and leave behind what
differs in noted times only. -/
theorem after_untimed {history again : List (Timestamp × Operation)}
    (operations : history.map Prod.snd = again.map Prod.snd)
    (same : runs.map RunSnapshot.untimed = runs'.map RunSnapshot.untimed) :
    (memory.replies history runs).map (Except.map Reply.untimed) =
        (memory.replies again runs').map (Except.map Reply.untimed) ∧
      (memory.after history runs).map RunSnapshot.untimed =
        (memory.after again runs').map RunSnapshot.untimed := by
  induction history generalizing again runs runs' with
  | nil =>
    obtain rfl : again = [] := List.map_eq_nil_iff.1 operations.symm
    exact ⟨rfl, same⟩
  | cons entry rest ih =>
    obtain ⟨entry', rest', rfl, op, others⟩ := List.map_eq_cons_iff.1 operations.symm
    have alike := perform_untimed same entry.2 entry.1 entry'.1
    rw [replies, replies, after_cons, after_cons, List.map_cons, List.map_cons, op, alike.reply]
    have later := ih others.symm alike.runs
    exact ⟨congrArg _ later.1, later.2⟩

end Backend

end Sweep
