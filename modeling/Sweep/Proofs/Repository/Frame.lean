import Sweep.Proofs.Repository.Dialogue

/-!
# What an operation leaves as it is

An operation that fails leaves a repository as it was. One that succeeds changes the snapshot of its
own run and no other, and in that snapshot only the records of the key it is about: the others stay
in their order. The record it wrote is what the operation that looks at such records answers next.
-/

namespace Sweep

/-! ## Records that a change is not about -/

section Records

variable {α : Type} {p : α → Bool} {f : α → α} {x : α} {xs ys : List α}

/-- What is put in place of the records with a property leaves those without it. -/
theorem filter_replace (new : p x = true) :
    ((xs.filter fun y => !p y) ++ [x]).filter (fun y => !p y) = xs.filter fun y => !p y := by
  have last : [x].filter (fun y => !p y) = [] := by simp [new]
  rw [List.filter_append, List.filter_filter, last, List.append_nil]
  simp only [Bool.and_self]

/-- A change of the first record with a property leaves those without it. -/
theorem filter_of_updateFirst? (updated : updateFirst? p f xs = some ys)
    (kept : ∀ x, p x = true → p (f x) = true) :
    ys.filter (fun y => !p y) = xs.filter fun y => !p y := by
  induction xs generalizing ys with
  | nil => cases updated
  | cons x rest ih =>
    rw [updateFirst?] at updated
    split at updated
    · next hit =>
      cases updated
      rw [List.filter_cons_of_neg (by simp [kept x hit]), List.filter_cons_of_neg (by simp [hit])]
    · obtain ⟨zs, later, rfl⟩ := Option.map_eq_some_iff.1 updated
      rw [List.filter_cons, List.filter_cons, ih later]

/-- The first record with a property is there if it was changed, and found as it was changed. -/
theorem find?_of_updateFirst? (updated : updateFirst? p f xs = some ys)
    (kept : ∀ x, p x = true → p (f x) = true) :
    ∃ x, xs.find? p = some x ∧ ys.find? p = some (f x) := by
  induction xs generalizing ys with
  | nil => cases updated
  | cons x rest ih =>
    rw [updateFirst?] at updated
    split at updated
    · next hit =>
      cases updated
      exact ⟨x, List.find?_cons_of_pos hit, List.find?_cons_of_pos (kept x hit)⟩
    · next missed =>
      obtain ⟨zs, later, rfl⟩ := Option.map_eq_some_iff.1 updated
      obtain ⟨y, before, after⟩ := ih later
      refine ⟨y, ?_, ?_⟩
      · rw [List.find?_cons_of_neg missed, before]
      · rw [List.find?_cons_of_neg missed, after]

end Records

/-! ## What an operation is about -/

namespace Operation

def writesSpace (r : SpaceRecord) : Operation → Bool
  | startSpace _ space | setSpaceStatus _ space _ | resetSpace _ space => r.isAbout space
  | _ => false

def writesSet (r : SetRecord) : Operation → Bool
  | startSet _ space index _ | setSetStatus _ space index _ => r.isAbout space index
  | resetSpace _ space => r.spaceId == space
  | _ => false

def writesTask (r : TaskRecord) : Operation → Bool
  | startTask _ space index task | setTaskStatus _ space index task .. => r.isAbout space index task
  | resetSpace _ space => r.spaceId == space
  | _ => false

/-- Whether an operation writes to a value that is recorded. -/
def writesMapping (n : DataMapping) : Operation → Bool
  | putMapping _ m => m.sameKey n
  | _ => false

/-- What an operation makes of the record of the run as such, the time of the change apart. -/
def runAfter (now : Timestamp) (run : RunRecord) : Operation → RunRecord
  | updateRun new => new
  | setRunStatus _ status error =>
    { run with status, error, finishedAt := if status = .running then none else some now }
  | setRunPosition _ space index task =>
    { run with currentSpace := space, currentSet := index, currentTask := task }
  | startTask _ space index task =>
    { run with currentSpace := some space, currentSet := some index, currentTask := some task }
  | _ => run

def controlAfter (now : Timestamp) (control : Option ControlState) :
    Operation → Option ControlState
  | enter _ space => some ⟨space, now⟩
  | _ => control

/-- The operation that looks at what an operation writes. -/
def lookUp : Operation → Operation
  | createRun run | updateRun run => getRun run.runId
  | setRunStatus runId .. | setRunPosition runId .. | deleteRun runId => getRun runId
  | startSpace runId space | setSpaceStatus runId space _ | resetSpace runId space =>
    getSpace runId space
  | startSet runId space index _ | setSetStatus runId space index _ => getSet runId space index
  | startTask runId space index task | setTaskStatus runId space index task .. =>
    getTask runId space index task
  | putMapping runId m => getMapping runId m.spaceId m.index m.name
  | enter runId _ => getControl runId
  | op => op

/-- The record that an operation writes to a snapshot, as it is answered to those who look at it.
A status is set only if the record is there, the rest of which it keeps. -/
def written? (now : Timestamp) (x : RunSnapshot) : Operation → Option Reply
  | startSpace _ space =>
    some (.space (some { spaceId := space, status := .running, startedAt := now }))
  | setSpaceStatus _ space status => (x.space? space).map fun r =>
    .space (some { r with status, finishedAt := status.finishAt now })
  | resetSpace _ _ => some (.space none)
  | startSet _ space index parameters =>
    some (.set (some
      { spaceId := space, index, parameters, status := .running, startedAt := now }))
  | setSetStatus _ space index status => (x.set? space index).map fun r =>
    .set (some { r with status, finishedAt := status.finishAt now })
  | startTask _ space index task =>
    some (.task (some
      { spaceId := space, index, taskId := task, status := .running, startedAt := now }))
  | setTaskStatus _ space index task status error => (x.task? space index task).map fun r =>
    .task (some { r with status, error, finishedAt := status.finishAt now })
  | putMapping _ m => some (.mapping (some m))
  | enter _ space => some (.control (some ⟨space, now⟩))
  | op => some (.run (some { op.runAfter now x.run with updatedAt := now }))

/-- What an operation, performed at a time, leaves of a snapshot that it changes into another. -/
structure Frames (op : Operation) (now : Timestamp) (x y : RunSnapshot) : Prop where
  run : y.run = { op.runAfter now x.run with updatedAt := now }
  control : y.control = op.controlAfter now x.control
  spaces : (y.spaces.filter fun r => !op.writesSpace r) = x.spaces.filter fun r => !op.writesSpace r
  sets : (y.sets.filter fun r => !op.writesSet r) = x.sets.filter fun r => !op.writesSet r
  tasks : (y.tasks.filter fun r => !op.writesTask r) = x.tasks.filter fun r => !op.writesTask r
  mappings : (y.mappings.filter fun m => !op.writesMapping m) =
    x.mappings.filter fun m => !op.writesMapping m

variable {op : Operation} {runId : String} {now : Timestamp} {x y : RunSnapshot}
  {change : Timestamp → RunSnapshot → Except RecordKey RunSnapshot}

theorem runId?_of_changes (effect : op.effect = .changes runId change) :
    op.runId? = some runId := by
  cases op <;> cases effect <;> rfl

theorem lookUp_of_changes (effect : op.effect = .changes runId change) :
    op.lookUp.effect = .looks ∧ op.lookUp.runId? = some runId := by
  cases op <;> cases effect <;> exact ⟨rfl, rfl⟩

/-- A change leaves what its operation is not about. -/
theorem frames_of_effect (effect : op.effect = .changes runId change)
    (changed : change now x = .ok y) : op.Frames now x (y.touch now) := by
  cases op with
  | updateRun | setRunStatus | setRunPosition | enter =>
    cases effect
    cases changed
    exact ⟨rfl, rfl, rfl, rfl, rfl, rfl⟩
  | startSpace _ space =>
    cases effect
    cases changed
    exact ⟨rfl, rfl, filter_replace ((SpaceRecord.isAbout_iff _ _).2 rfl), rfl, rfl, rfl⟩
  | setSpaceStatus =>
    cases effect
    obtain ⟨spaces, updated, rfl⟩ := RunSnapshot.exists_of_setSpaceStatus changed
    exact ⟨rfl, rfl, filter_of_updateFirst? updated fun _ about => about, rfl, rfl, rfl⟩
  | resetSpace _ space =>
    cases effect
    cases changed
    have twice {α : Type} (p : α → Bool) (rs : List α) : (rs.filter p).filter p = rs.filter p := by
      rw [List.filter_filter]
      simp only [Bool.and_self]
    exact ⟨rfl, rfl, twice _ x.spaces, twice _ x.sets, twice _ x.tasks, rfl⟩
  | startSet _ space index =>
    cases effect
    cases changed
    exact ⟨rfl, rfl, rfl, filter_replace ((SetRecord.isAbout_iff (space, index) _).2 rfl), rfl, rfl⟩
  | setSetStatus =>
    cases effect
    obtain ⟨sets, updated, rfl⟩ := RunSnapshot.exists_of_setSetStatus changed
    exact ⟨rfl, rfl, rfl, filter_of_updateFirst? updated fun _ about => about, rfl, rfl⟩
  | startTask _ space index task =>
    cases effect
    cases changed
    exact ⟨rfl, rfl, rfl, rfl,
      filter_replace ((TaskRecord.isAbout_iff (space, index, task) _).2 rfl), rfl⟩
  | setTaskStatus =>
    cases effect
    obtain ⟨tasks, updated, rfl⟩ := RunSnapshot.exists_of_setTaskStatus changed
    exact ⟨rfl, rfl, rfl, rfl, filter_of_updateFirst? updated fun _ about => about, rfl⟩
  | putMapping _ m =>
    cases effect
    cases changed
    have about : m.sameKey m = true :=
      (DataMapping.isAbout_iff (m.spaceId, m.index, m.name) m).2 rfl
    exact ⟨rfl, rfl, rfl, rfl, rfl, filter_replace about⟩
  | _ => cases effect

/-- What a change writes is what is seen by those who look at it. -/
theorem written?_of_effect (effect : op.effect = .changes runId change)
    (changed : change now x = .ok y) :
    op.written? now x = some (op.lookUp.answer (y.touch now)) := by
  cases op with
  | updateRun | setRunStatus | setRunPosition | enter =>
    cases effect
    cases changed
    rfl
  | startSpace _ space =>
    cases effect
    cases changed
    have found :=
      find?_replace SpaceRecord.isAbout_iff id x.spaces ⟨space, .running, now, none⟩ space
    rw [Function.update_self, Option.map_id_apply] at found
    exact congrArg (some ∘ Reply.space) found.symm
  | setSpaceStatus _ space status =>
    cases effect
    obtain ⟨spaces, updated, rfl⟩ := RunSnapshot.exists_of_setSpaceStatus changed
    obtain ⟨r, before, after⟩ := find?_of_updateFirst? updated fun _ about => about
    rw [written?, RunSnapshot.space?, before]
    exact congrArg (some ∘ Reply.space) after.symm
  | resetSpace _ space =>
    cases effect
    cases changed
    exact congrArg (some ∘ Reply.space) (find?_drop x.spaces fun r about => about).symm
  | startSet _ space index parameters =>
    cases effect
    cases changed
    have found := find?_replace SetRecord.isAbout_iff id x.sets
      ⟨space, index, parameters, .running, now, none⟩ (space, index)
    rw [Function.update_self, Option.map_id_apply] at found
    exact congrArg (some ∘ Reply.set) found.symm
  | setSetStatus _ space index status =>
    cases effect
    obtain ⟨sets, updated, rfl⟩ := RunSnapshot.exists_of_setSetStatus changed
    obtain ⟨r, before, after⟩ := find?_of_updateFirst? updated fun _ about => about
    rw [written?, RunSnapshot.set?, before]
    exact congrArg (some ∘ Reply.set) after.symm
  | startTask _ space index task =>
    cases effect
    cases changed
    have found := find?_replace TaskRecord.isAbout_iff id x.tasks
      ⟨space, index, task, .running, now, none, none⟩ (space, index, task)
    rw [Function.update_self, Option.map_id_apply] at found
    exact congrArg (some ∘ Reply.task) found.symm
  | setTaskStatus _ space index task status error =>
    cases effect
    obtain ⟨tasks, updated, rfl⟩ := RunSnapshot.exists_of_setTaskStatus changed
    obtain ⟨r, before, after⟩ := find?_of_updateFirst? updated fun _ about => about
    rw [written?, RunSnapshot.task?, before]
    exact congrArg (some ∘ Reply.task) after.symm
  | putMapping _ m =>
    cases effect
    cases changed
    have found := find?_replace DataMapping.isAbout_iff id x.mappings m (m.spaceId, m.index, m.name)
    rw [Function.update_self, Option.map_id_apply] at found
    exact congrArg (some ∘ Reply.mapping) found.symm
  | _ => cases effect

/-- A change does not give a run another name. -/
theorem runId_of_effect (effect : op.effect = .changes runId change)
    (changed : change now x = .ok y) (named : x.run.runId = runId) : y.run.runId = runId := by
  have kept : (op.runAfter now x.run).runId = runId := by
    cases op <;> cases effect <;> first | rfl | exact named
  exact (congrArg RunRecord.runId (frames_of_effect effect changed).run).trans kept

end Operation

/-! ## The runs that an operation accesses -/

/-- A dialogue that accesses runs of certain names only and stores fit snapshots only, whatever fit
snapshots it loads. It may be one that asks for the names of all runs. -/
inductive Dialogue.Within (own : String → Prop) (fit : RunSnapshot → Prop) (lists : Prop) :
    Dialogue → Prop
  | ends (result : Except RepositoryError Reply) : Within own fit lists (.ends result)
  | load {runId : String} {goesOn : Option RunSnapshot → Dialogue} (named : own runId)
      (rest : ∀ found, (∀ x, found = some x → x.run.runId = runId ∧ fit x) →
        Within own fit lists (goesOn found)) : Within own fit lists (.load runId goesOn)
  | store {x : RunSnapshot} {goesOn : Dialogue} (named : own x.run.runId) (stored : fit x)
      (rest : Within own fit lists goesOn) : Within own fit lists (.store x goesOn)
  | remove {runId : String} {goesOn : Bool → Dialogue} (named : own runId)
      (rest : ∀ wasThere, Within own fit lists (goesOn wasThere)) :
      Within own fit lists (.remove runId goesOn)
  | list {goesOn : List String → Dialogue} (may : lists)
      (rest : ∀ names, (∀ name ∈ names, own name) → Within own fit lists (goesOn names)) :
      Within own fit lists (.list goesOn)

namespace Dialogue

variable {own : String → Prop} {fit : RunSnapshot → Prop} {lists : Prop} {runId : String}

theorem within_look (named : own runId) (answer : RunSnapshot → Reply) :
    (look runId answer).Within own fit lists := by
  refine .load named ?_
  rintro (_ | x) _
  · exact .ends _
  · exact .ends _

theorem within_loadAll {names : List String} {goesOn : List (Option RunSnapshot) → Dialogue}
    (named : ∀ name ∈ names, own name) (rest : ∀ found, (goesOn found).Within own fit lists) :
    (loadAll names goesOn).Within own fit lists := by
  induction names generalizing goesOn with
  | nil => exact rest []
  | cons name others ih =>
    refine .load (named name List.mem_cons_self) fun found _ => ?_
    exact ih (fun other mem => named other (List.mem_cons_of_mem _ mem)) fun _ => rest _

end Dialogue

namespace Operation

variable {op : Operation} {now : Timestamp} {own : String → Prop} {fit : RunSnapshot → Prop}
  {lists : Prop}

theorem within_inquiry (effect : op.effect = .looks)
    (about : ∀ runId, op.runId? = some runId → own runId) (listing : op.runId? = none → lists) :
    op.inquiry.Within own fit lists := by
  cases op with
  | getRun => exact .load (about _ rfl) fun _ _ => .ends _
  | listRuns =>
    exact .list (listing rfl) fun names named => Dialogue.within_loadAll named fun _ => .ends _
  | runNames => exact .list (listing rfl) fun _ _ => .ends _
  | getSnapshot | getSpace | getSet | getTask | getMapping | getMappings | latestMapping
  | getControl | taskCounts | spaceCounts | setCounts => exact Dialogue.within_look (about _ rfl) _
  | _ => cases effect

/-- An operation accesses no run but the one it is about, and stores fit snapshots if what it makes
of fit snapshots is fit. -/
theorem within_dialogue (about : ∀ runId, op.runId? = some runId → own runId)
    (listing : op.runId? = none → lists)
    (added : ∀ run, op.effect = .adds run → fit (.ofRun run))
    (changed : ∀ runId change x y, op.effect = .changes runId change → fit x →
      change now x = .ok y → fit (y.touch now)) :
    (op.dialogue now).Within own fit lists := by
  rw [dialogue]
  cases effect : op.effect with
  | looks => exact within_inquiry effect about listing
  | adds run =>
    have named : own run.runId := by
      cases op <;> cases effect
      exact about _ rfl
    refine .load named fun found _ => ?_
    split
    · exact .ends _
    · exact .store named (added run effect) (.ends _)
  | removes runId =>
    have named : own runId := by
      cases op <;> cases effect
      exact about _ rfl
    exact .remove named fun _ => .ends _
  | changes runId change =>
    have named := about runId (runId?_of_changes effect)
    refine .load named ?_
    rintro (_ | x) loaded
    · exact .ends _
    · obtain ⟨same, fits⟩ := loaded x rfl
      dsimp only
      split
      · exact .ends _
      · next y result =>
        refine .store ?_ (changed runId change x y effect fits result) (.ends _)
        have kept := runId_of_effect effect result same
        exact kept ▸ named

/-! ## What an operation leaves behind in memory -/

/-- What a repository in memory has become by an operation that succeeded at a time. -/
structure Succeeds (op : Operation) (now : Timestamp) (before after : Table RunSnapshot) :
    Prop where
  others : ∀ runId, op.runId? ≠ some runId → after.get? runId = before.get? runId
  looks : op.effect = .looks → after = before
  adds : ∀ run, op = createRun run →
    before.get? run.runId = none ∧ after.get? run.runId = some (.ofRun run) ∧
      ∀ later, Backend.memory.perform op.lookUp later after = (.ok (.run (some run)), after)
  removes : ∀ runId, op = deleteRun runId →
    after.get? runId = none ∧
      ∀ later, Backend.memory.perform op.lookUp later after = (.ok (.run none), after)
  changes : ∀ runId change, op.effect = .changes runId change →
    ∃ x y reply, before.get? runId = some x ∧ after.get? runId = some y ∧ op.Frames now x y ∧
      op.written? now x = some reply ∧
      ∀ later, Backend.memory.perform op.lookUp later after = (.ok reply, after)
  resets : ∀ runId space, op = resetSpace runId space → ∀ y, after.get? runId = some y →
    (∀ r ∈ y.spaces, r.spaceId ≠ space) ∧ (∀ r ∈ y.sets, r.spaceId ≠ space) ∧
      ∀ r ∈ y.tasks, r.spaceId ≠ space

/-- What an operation, performed at a time on a repository in memory, may answer and leave behind:
if it fails it leaves all as it was. -/
structure Framed (op : Operation) (now : Timestamp) (before : Table RunSnapshot)
    (result : Except RepositoryError Reply × Table RunSnapshot) : Prop where
  fails : ∀ e, result.1 = .error e → result.2 = before
  succeeds : ∀ reply, result.1 = .ok reply → op.Succeeds now before result.2

theorem framed_error {runs : Table RunSnapshot} (e : RepositoryError) :
    op.Framed now runs (.error e, runs) where
  fails _ _ := rfl
  succeeds reply same := by cases same

theorem Succeeds.framed {before after : Table RunSnapshot} {reply : Reply}
    (succeeds : op.Succeeds now before after) : op.Framed now before (.ok reply, after) where
  fails e same := by cases same
  succeeds _ _ := succeeds

end Operation

namespace Backend

variable {runs : Table RunSnapshot} {op : Operation} {runId : String} {now : Timestamp}
  {x y : RunSnapshot} {change : Timestamp → RunSnapshot → Except RecordKey RunSnapshot}

/-- A repository that keeps every snapshot under the name of its run. -/
def Named (runs : Table RunSnapshot) : Prop :=
  ∀ runId x, runs.get? runId = some x → x.run.runId = runId

theorem named_empty : Named ∅ := by
  intro runId x found
  cases found

theorem Named.insert (named : Named runs) (own : x.run.runId = runId) :
    Named (runs.insert runId x) :=
  Table.forall_get?_insert named own

theorem Named.erase (named : Named runs) (runId : String) : Named (runs.erase runId) :=
  Table.forall_get?_erase named

theorem perform_getRun (runId : String) :
    memory.perform (.getRun runId) now runs =
      (.ok (.run ((runs.get? runId).map (·.run))), runs) := rfl

/-- What those who look at a run that is there are answered. -/
theorem perform_inquiry (effect : op.effect = .looks) (about : op.runId? = some runId)
    (found : runs.get? runId = some x) :
    memory.perform op now runs = (.ok (op.answer x), runs) := by
  have looked :
      (Dialogue.look runId (op.answer ·)).hold memory runs = (.ok (op.answer x), runs) := by
    rw [Dialogue.hold_look_memory, found]
  rw [perform_eq_hold, Operation.dialogue, effect]
  cases op with
  | getRun =>
    cases about
    exact congrArg (fun found => (Except.ok (Reply.run (found.map RunSnapshot.run)), runs)) found
  | listRuns | runNames => cases about
  | getSnapshot | getSpace | getSet | getTask | getMapping | getMappings | latestMapping
  | getControl | taskCounts | spaceCounts | setCounts =>
    cases about
    exact looked
  | _ => cases effect

/-- A change that succeeds stores what it made of the snapshot. -/
theorem succeeds_of_change (effect : op.effect = .changes runId change)
    (found : runs.get? runId = some x) (changed : change now x = .ok y) :
    op.Succeeds now runs (runs.insert runId (y.touch now)) := by
  have after : (runs.insert runId (y.touch now)).get? runId = some (y.touch now) :=
    Table.get?_insert_self
  refine ⟨?_, ?_, ?_, ?_, ?_, ?_⟩
  · intro other apart
    rw [Operation.runId?_of_changes effect] at apart
    exact Table.get?_insert_of_ne fun same => apart (congrArg some same)
  · intro looks
    cases effect.symm.trans looks
  · rintro run rfl
    cases effect
  · rintro runId rfl
    cases effect
  · intro runId' change' effect'
    cases effect.symm.trans effect'
    obtain ⟨looks, about⟩ := Operation.lookUp_of_changes effect
    exact ⟨x, y.touch now, _, found, after, op.frames_of_effect effect changed,
      op.written?_of_effect effect changed, fun later => perform_inquiry looks about after⟩
  · rintro runId space rfl z seen
    cases effect
    cases changed
    cases after.symm.trans seen
    have dropped {α : Type} (spaceId : α → String) (rs : List α) :
        ∀ r ∈ rs.filter (spaceId · != space), spaceId r ≠ space := by
      intro r mem
      simpa using (List.mem_filter.1 mem).2
    exact ⟨dropped _ x.spaces, dropped _ x.sets, dropped _ x.tasks⟩

/-- An operation that only looks changes nothing. -/
theorem succeeds_of_look (effect : op.effect = .looks) : op.Succeeds now runs runs where
  others _ _ := rfl
  looks _ := rfl
  adds := by
    rintro run rfl
    cases effect
  removes := by
    rintro runId rfl
    cases effect
  changes := by
    intro runId change changes
    cases effect.symm.trans changes
  resets := by
    rintro runId space rfl
    cases effect

theorem succeeds_of_add {run : RunRecord} (absent : runs.get? run.runId = none) :
    (Operation.createRun run).Succeeds now runs (runs.insert run.runId (.ofRun run)) := by
  have after : (runs.insert run.runId (.ofRun run)).get? run.runId = some (.ofRun run) :=
    Table.get?_insert_self
  constructor
  case others =>
    intro other apart
    exact Table.get?_insert_of_ne fun same => apart (congrArg some same)
  case adds =>
    intro run' same
    obtain rfl : run = run' := Operation.createRun.inj same
    refine ⟨absent, after, fun later => ?_⟩
    rw [Operation.lookUp, perform_getRun, after]
    rfl
  all_goals
    intros
    contradiction

theorem succeeds_of_remove (runId : String) :
    (Operation.deleteRun runId).Succeeds now runs (runs.erase runId) := by
  have after : (runs.erase runId).get? runId = none := Table.get?_erase_self
  constructor
  case others =>
    intro other apart
    exact Table.get?_erase_of_ne fun same => apart (congrArg some same)
  case removes =>
    intro runId' same
    obtain rfl : runId = runId' := Operation.deleteRun.inj same
    refine ⟨after, fun later => ?_⟩
    rw [Operation.lookUp, perform_getRun, after]
    rfl
  all_goals
    intros
    contradiction

theorem framed_create (run : RunRecord) :
    (Operation.createRun run).Framed now runs ((Dialogue.create run).hold memory runs) := by
  rw [Dialogue.hold_create_memory]
  split
  · exact Operation.framed_error _
  · next absent => exact (succeeds_of_add (by simpa using absent)).framed

theorem framed_modify (named : Named runs) (effect : op.effect = .changes runId change) :
    op.Framed now runs ((Dialogue.modify runId change now).hold memory runs) := by
  rw [Dialogue.hold_modify_memory]
  split
  · exact Operation.framed_error _
  · next x found =>
    split
    · exact Operation.framed_error _
    · next y changed =>
      rw [op.runId_of_effect effect changed (named runId x found)]
      exact (succeeds_of_change effect found changed).framed

/-- A dialogue can store a snapshot under the name of its run only. -/
theorem Named.hold (named : Named runs) (d : Dialogue) : Named (d.hold memory runs).2 := by
  induction d generalizing runs with
  | ends => exact named
  | load runId goesOn ih =>
    rw [Dialogue.hold_load]
    exact ih _ named
  | store x goesOn ih =>
    rw [Dialogue.hold_store]
    exact ih (named.insert rfl)
  | remove runId goesOn ih =>
    rw [Dialogue.hold_remove]
    exact ih _ (named.erase runId)
  | list goesOn ih =>
    rw [Dialogue.hold_list]
    exact ih _ named

theorem Named.perform (named : Named runs) (op : Operation) (now : Timestamp) :
    Named (memory.perform op now runs).2 := by
  rw [perform_eq_hold]
  exact named.hold _

theorem Named.after (named : Named runs) (history : List (Timestamp × Operation)) :
    Named (memory.after history runs) := by
  induction history generalizing runs with
  | nil => exact named
  | cons entry rest ih => exact ih (named.perform entry.2 entry.1)

/-- An operation on a repository in memory that fails leaves every snapshot as it was. If it
succeeds, the snapshots of other runs are as they were, and in the one of its run all records but
those of the key that it writes to are as they were and in the same order; what it has written is
what is answered to those who look at it next. -/
theorem memory_frames (named : Named runs) (op : Operation) (now : Timestamp) :
    op.Framed now runs (memory.perform op now runs) := by
  cases effect : op.effect with
  | looks =>
    have same : (memory.perform op now runs).2 = runs := by
      rw [memory_perform, effect]
      rfl
    rcases performed : memory.perform op now runs with ⟨e | reply, after⟩
    all_goals obtain rfl : runs = after := same.symm.trans (congrArg Prod.snd performed)
    · exact Operation.framed_error e
    · exact (succeeds_of_look effect).framed
  | adds run =>
    rw [perform_eq_hold, Operation.dialogue, effect]
    obtain rfl : op = .createRun run := by
      cases op <;> cases effect
      rfl
    exact framed_create run
  | removes runId =>
    obtain rfl : op = .deleteRun runId := by
      cases op <;> cases effect
      rfl
    exact (succeeds_of_remove runId).framed
  | changes runId change =>
    rw [perform_eq_hold, Operation.dialogue, effect]
    exact framed_modify named effect

/-- One of two tasks of a run is completed, beside another run. -/
theorem memory_frames_twoTasks :
    let run (runId : String) := RunRecord.new runId "experiment" "1" "hash" ⟨5, 0⟩
    let history : List (Timestamp × Operation) :=
      [(⟨5, 0⟩, .createRun (run "run")), (⟨5, 0⟩, .createRun (run "other")),
        (⟨6, 0⟩, .startTask "run" "space" 0 "first"), (⟨7, 0⟩, .startTask "run" "space" 0 "second")]
    let op : Operation := .setTaskStatus "run" "space" 0 "first" .completed none
    let performed := memory.perform op ⟨8, 0⟩ (memory.after history ∅)
    performed.1.toOption = some .done ∧ op.Framed ⟨8, 0⟩ (memory.after history ∅) performed := by
  intro run history op performed
  refine ⟨by decide +kernel, ?_⟩
  exact memory_frames (named_empty.after history) op ⟨8, 0⟩

end Backend

end Sweep
