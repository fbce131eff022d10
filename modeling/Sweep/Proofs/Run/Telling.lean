import Sweep.Proofs.Run.Upholding

/-!
# What listeners are told of spaces

While a run is on its way to the end, listeners are told when a space is started and when it is
completed, and the run is not recorded as completed. Both are read off the moments that an activity
adds, so a rule for each way in which activities are composed adds up what its parts tell. Almost
everything that the engine does is quiet: it tells nothing of a space as a whole. Only a visit does,
at its beginning and at its end.
-/

namespace Sweep

variable {S α β : Type}

/-- What listeners are told of a space as a whole. -/
inductive SpaceNotice where
  | opened (space : String)
  | closed (space : String)
deriving DecidableEq, Repr

/-- What is told of spaces that are visited one after the other, each to its end. -/
def SpaceNotice.ofVisits (spaces : List String) : List SpaceNotice :=
  spaces.flatMap fun space => [.opened space, .closed space]

@[simp] theorem SpaceNotice.length_ofVisits (spaces : List String) :
    (ofVisits spaces).length = 2 * spaces.length := by
  induction spaces with
  | nil => rfl
  | cons space rest ih =>
    rw [ofVisits, List.flatMap_cons, List.length_append, ← ofVisits, ih, List.length_cons]
    simp only [List.length_cons, List.length_nil]
    omega

def ProgressEvent.notice? : ProgressEvent → Option SpaceNotice
  | .spaceStarted _ space => some (.opened space)
  | .spaceCompleted _ space => some (.closed space)
  | _ => none

def Moment.notice? : Moment S → Option SpaceNotice
  | .told e _ => e.notice?
  | _ => none

namespace Conduct

/-- Among some moments the run is never recorded as completed. -/
def Incomplete (c : Conduct S) (ms : List (Moment S)) : Prop :=
  ∀ store, .wrote store ∈ ms →
    ∃ x, c.subject.recordIn store = some x ∧ x.run.status ≠ .completed

/-- From every session of a run that is not completed, an activity leads to one of the kind, and the
run is not completed in between. At the end the result goes with what was told of spaces. -/
def Tells (c : Conduct S) (kept : S → Prop) (a : Activity S α)
    (R : α → List SpaceNotice → Prop) : Prop :=
  ∀ s x, c.Sees kept s ⟨x, []⟩ → x.run.status ≠ .completed →
    ∃ (ms : List (Moment S)) (y : RunSnapshot), (a s).2.history = ms.reverse ++ s.history ∧
      c.Sees kept (a s).2 ⟨y, []⟩ ∧ y.run.status ≠ .completed ∧ c.Incomplete ms ∧
      ∀ v, (a s).1 = .ok v → R v (ms.filterMap Moment.notice?)

/-- An activity that tells nothing of a space as a whole. -/
def Quiet (c : Conduct S) (kept : S → Prop) (a : Activity S α) : Prop :=
  c.Tells kept a fun _ told => told = []

variable {c : Conduct S} {kept : S → Prop}

namespace Incomplete

theorem append {ms ms' : List (Moment S)} (first : c.Incomplete ms) (second : c.Incomplete ms') :
    c.Incomplete (ms ++ ms') := fun store mem =>
  (List.mem_append.1 mem).elim (first store) (second store)

theorem of_silent {ms : List (Moment S)} (silent : ∀ m ∈ ms, ∀ store, m ≠ .wrote store) :
    c.Incomplete ms := fun store mem => absurd rfl (silent _ mem store)

end Incomplete

/-! ## Rules of composition -/

namespace Tells

theorem mono {a : Activity S α} {R Q : α → List SpaceNotice → Prop} (h : c.Tells kept a R)
    (weaker : ∀ v told, R v told → Q v told) : c.Tells kept a Q := by
  intro s x sees going
  obtain ⟨ms, y, grown, sees', going', open_, ends⟩ := h s x sees going
  exact ⟨ms, y, grown, sees', going', open_, fun v same => weaker v _ (ends v same)⟩

/-- What is told adds up. -/
theorem bind {a : Activity S α} {f : α → Activity S β} {R : α → List SpaceNotice → Prop}
    {Q : β → List SpaceNotice → Prop} (first : c.Tells kept a R)
    (goesOn : ∀ v told, R v told → c.Tells kept (f v) fun w later => Q w (told ++ later)) :
    c.Tells kept (a >>= f) Q := by
  intro s x sees going
  obtain ⟨ms, y, grown, sees', going', open_, ends⟩ := first s x sees going
  rw [bind_eval]
  rcases h : a s with ⟨e | v, s'⟩ <;> rw [h] at grown sees' ends
  · exact ⟨ms, y, grown, sees', going', open_, nofun⟩
  · obtain ⟨ms', z, grown', sees'', going'', open', ends'⟩ :=
      goesOn v _ (ends v rfl) s' y sees' going'
    refine ⟨ms ++ ms', z, ?_, sees'', going'', open_.append open', fun w same => ?_⟩
    · rw [grown', grown, List.reverse_append, List.append_assoc]
    · rw [List.filterMap_append]
      exact ends' w same

theorem pure {v : α} {R : α → List SpaceNotice → Prop} (h : R v []) :
    c.Tells kept (pure v) R := by
  intro s x sees going
  refine ⟨[], x, rfl, sees, going, .of_silent nofun, ?_⟩
  rintro _ ⟨⟩
  exact h

theorem throw {e : RunError} {R : α → List SpaceNotice → Prop} :
    c.Tells kept (throw e : Activity S α) R :=
  fun _ x sees going => ⟨[], x, rfl, sees, going, .of_silent nofun, nofun⟩

/-- An error that is looked at has told something all the same. -/
theorem attempt {a : Activity S α} {R : α → List SpaceNotice → Prop} (h : c.Tells kept a R) :
    c.Tells kept a.attempt fun r told => ∀ v, r = .ok v → R v told := by
  intro s x sees going
  obtain ⟨ms, y, grown, sees', going', open_, ends⟩ := h s x sees going
  refine ⟨ms, y, grown, sees', going', open_, ?_⟩
  rintro _ ⟨⟩
  exact ends

/-- What looks at the record tells nothing. -/
theorem of_reads {a : Activity S α} {R : α → List SpaceNotice → Prop}
    (reads : ∀ x, ∃ r, c.Reads x a r ∧ ∀ v, r = .ok v → R v []) : c.Tells kept a R := by
  intro s x sees going
  obtain ⟨r, looks, ends⟩ := reads x
  obtain ⟨n, eval⟩ := looks s sees.loads
  rw [eval]
  exact ⟨[], x, rfl, ⟨sees.kept, sees.loads, sees.named⟩, going, .of_silent nofun, ends⟩

/-- To note a moment tells what the moment tells. -/
theorem note {m : Moment S} (other : ∀ store, m ≠ .wrote store) :
    c.Tells kept (c.note m) fun _ told => told = m.notice?.toList := by
  intro s x sees going
  refine ⟨[m], x, rfl, ⟨sees.kept, sees.loads, sees.named⟩, going, .of_silent ?_, fun _ _ => ?_⟩
  · rintro _ mem
    obtain rfl := List.mem_singleton.1 mem
    exact other
  · cases h : m.notice? <;> simp [h]

theorem emit (e : ProgressEvent) :
    c.Tells kept (c.emit e) fun _ told => told = e.notice?.toList :=
  fun s => note (m := .told e s.store) nofun s

end Tells

namespace Quiet

theorem bind {a : Activity S α} {f : α → Activity S β} {R : β → List SpaceNotice → Prop}
    (first : c.Quiet kept a) (goesOn : ∀ v, c.Tells kept (f v) R) :
    c.Tells kept (a >>= f) R := by
  refine Tells.bind first ?_
  rintro v _ rfl
  exact goesOn v

theorem pure {v : α} : c.Quiet kept (pure v) := Tells.pure rfl

theorem throw {e : RunError} : c.Quiet kept (throw e : Activity S α) := Tells.throw

/-- To look at the record is quiet. -/
theorem of_reads {a : Activity S α} (reads : ∀ x, ∃ r, c.Reads x a r) : c.Quiet kept a :=
  Tells.of_reads fun x => (reads x).imp fun _ looks => ⟨looks, fun _ _ => rfl⟩

/-- An event about less or more than a space is told quietly. -/
theorem emit {e : ProgressEvent} (other : e.notice? = none) : c.Quiet kept (c.emit e) :=
  (Tells.emit e).mono fun _ _ same => by rw [same, other, Option.toList_none]

theorem mark (key : TaskKey) (mark : TaskMark) : c.Quiet kept (c.mark key mark) := by
  have time : c.Quiet kept c.readClock := fun _ x sees going =>
    ⟨[], x, rfl, ⟨sees.kept, sees.loads, sees.named⟩, going, .of_silent nofun, fun _ _ => rfl⟩
  exact time.bind fun now => Tells.note nofun

end Quiet

/-- To choose the next space is quiet. -/
theorem quiet_next {space target : String}
    (leads : ∀ answers, c.nextOn space answers = (.ok target, answers)) :
    c.Tells kept (c.next space) fun found told => found = target ∧ told = [] := by
  intro s x sees going
  obtain ⟨s', chosen, -, talks⟩ := next_eval (c := c) space s
  obtain ⟨ms, grown, silent⟩ := talks.said
  rw [chosen, leads]
  refine ⟨ms, x, grown, ⟨talks.store ▸ sees.kept, talks.store ▸ sees.loads, sees.named⟩, going,
    .of_silent ?_, ?_⟩
  · rintro _ mem store rfl
    exact silent _ mem
  · rintro _ ⟨⟩
    refine ⟨rfl, List.filterMap_eq_nil_iff.2 fun m mem => ?_⟩
    have talk := silent m mem
    cases m with
    | told e =>
      obtain ⟨-, prompt, rfl⟩ := talk
      rfl
    | wrote | launched | marked | printed | asked => rfl

section Changes

variable (reliable : c.host.Reliable c.runId kept)

include reliable

/-! ## Changes of the record -/

/-- A change of the record that does not complete the run is quiet, and so is one that is
refused. -/
theorem quiet_record {operation : RepositoryM S Unit}
    (change : Timestamp → RunSnapshot → Except RecordKey RunSnapshot)
    (modifies : ∀ now s, operation now s = c.host.backend.modify c.runId change now s)
    (changes : ∀ now x y, change now x = .ok y → y.run.runId = x.run.runId ∧
      (x.run.status ≠ .completed → y.run.status ≠ .completed)) :
    c.Quiet kept (c.record operation) := by
  intro s x sees going
  cases changed : change (c.host.clock s.readings) x with
  | ok y =>
    obtain ⟨named, stays⟩ := changes _ _ _ changed
    obtain ⟨s', recorded, -, grown, sees'⟩ :=
      record_eval reliable change modifies sees changed named
    rw [recorded]
    refine ⟨[.wrote s'.store], _, grown, sees', stays going, ?_, fun _ _ => rfl⟩
    rintro store mem
    cases List.mem_singleton.1 mem
    exact ⟨_, sees'.recordIn, stays going⟩
  | error key =>
    rw [record_refused change modifies sees changed]
    exact ⟨[], x, rfl, ⟨sees.kept, sees.loads, sees.named⟩, going, .of_silent nofun, nofun⟩

/-- A change that cannot be refused and leaves it as it is how the run stands. -/
theorem quiet_update (change : Timestamp → RunSnapshot → RunSnapshot)
    (named : ∀ now x, (change now x).run.runId = x.run.runId)
    (status : ∀ now x, (change now x).run.status = x.run.status) :
    c.Quiet kept (c.record (c.host.backend.update c.runId change)) := by
  refine quiet_record reliable (fun now x => .ok (change now x)) (fun _ _ => rfl) ?_
  rintro now x _ ⟨⟩
  exact ⟨named now x, fun going => status now x ▸ going⟩

theorem quiet_setRunStatus {status : RunStatus} (error : Option String)
    (going : status ≠ .completed) :
    c.Quiet kept (c.record (c.host.backend.setRunStatus c.runId status error)) := by
  refine quiet_record reliable (fun now x => .ok (x.setStatus now status error))
    (fun _ _ => rfl) ?_
  rintro now x _ ⟨⟩
  exact ⟨rfl, fun _ => going⟩

theorem quiet_setSpaceStatus (space : String) (status : UnitStatus) :
    c.Quiet kept (c.record (c.host.backend.setSpaceStatus c.runId space status)) := by
  refine quiet_record reliable _ (fun _ _ => rfl) fun now x y changed => ?_
  obtain ⟨_, -, rfl⟩ := RunSnapshot.exists_of_setSpaceStatus changed
  exact ⟨rfl, id⟩

theorem quiet_setSetStatus (space : String) (index : Nat) (status : UnitStatus) :
    c.Quiet kept (c.record (c.host.backend.setSetStatus c.runId space index status)) := by
  refine quiet_record reliable _ (fun _ _ => rfl) fun now x y changed => ?_
  obtain ⟨_, -, rfl⟩ := RunSnapshot.exists_of_setSetStatus changed
  exact ⟨rfl, id⟩

theorem quiet_setTaskStatus (space : String) (index : Nat) (task : String) (status : UnitStatus)
    (error : Option String) :
    c.Quiet kept
      (c.record (c.host.backend.setTaskStatus c.runId space index task status error)) := by
  refine quiet_record reliable _ (fun _ _ => rfl) fun now x y changed => ?_
  obtain ⟨_, -, rfl⟩ := RunSnapshot.exists_of_setTaskStatus changed
  exact ⟨rfl, id⟩

theorem quiet_enter (space : String) :
    c.Quiet kept (c.record (c.host.backend.enter c.runId space)) :=
  quiet_update reliable (fun now x => x.enter now space) (fun _ _ => rfl) fun _ _ => rfl

theorem quiet_checkTermination : c.Quiet kept c.checkTermination := by
  intro s
  have asked : c.checkTermination s = (if s.terminating then do
        c.record (c.host.backend.setRunStatus c.runId .terminated none)
        throw (.terminated c.runId)
      else pure () : Activity S Unit) s := rfl
  have either : c.Quiet kept (if s.terminating then do
        c.record (c.host.backend.setRunStatus c.runId .terminated none)
        throw (.terminated c.runId)
      else pure () : Activity S Unit) := by
    split
    · exact (quiet_setRunStatus reliable none (by simp)).bind fun _ => Tells.throw
    · exact Quiet.pure
  rw [asked]
  exact either s

/-! ## Tasks and sets -/

theorem quiet_carryOut (t : TaskDefinition) (command : Command) :
    c.Quiet kept (c.carryOut t command) := by
  rw [carryOut]
  split
  · refine Tells.bind (Tells.note (by rintro _ ⟨⟩)) ?_
    rintro _ _ rfl
    exact Quiet.pure
  · have launches : c.Quiet kept (c.launch command) := by
      intro s x sees going
      obtain ⟨kept', loads⟩ := reliable.launches command sees.kept
      exact ⟨[.launched command], x, rfl, ⟨kept', loads.trans sees.loads, sees.named⟩, going,
        .of_silent (by simp), fun _ _ => rfl⟩
    refine launches.bind fun r => ?_
    cases r <;> exact Quiet.pure

theorem quiet_outputValues (space : SpaceDefinition) (index : Nat) (set : ParameterSet)
    (t : TaskDefinition) : c.Quiet kept (c.outputValues space index set t) := by
  rw [outputValues]
  cases parametersOf space index set t with
  | error e => exact Quiet.throw
  | ok parameters =>
    refine Quiet.bind (Quiet.pure (v := parameters)) fun parameters => ?_
    refine Quiet.bind (Quiet.of_reads fun x =>
      ⟨_, Reads.mapM (reads_inputValue space index t) t.inputData⟩) fun inputs => ?_
    refine Quiet.bind ?_ fun produced => ?_
    · rw [execute]
      split
      · exact Quiet.pure
      · exact quiet_carryOut reliable t _
    · cases produced with
      | error cause => exact Quiet.throw
      | ok values => exact Quiet.pure

theorem quiet_recordValues (space : SpaceDefinition) (index : Nat) (t : TaskDefinition)
    (outputs : List (String × String)) : c.Quiet kept (c.recordValues space index t outputs) := by
  induction outputs with
  | nil => exact Quiet.pure
  | cons output rest ih =>
    obtain ⟨name, value⟩ := output
    rw [recordValues]
    refine Quiet.bind (quiet_record reliable (fun now x => .ok (x.putMapping
      { spaceId := space.spaceId, index, name, value, taskId := some t.taskId,
        recordedAt := now })) (fun _ _ => rfl) ?_) fun _ => ih
    rintro now x _ ⟨⟩
    exact ⟨rfl, id⟩

theorem quiet_runTask (space : SpaceDefinition) (index : Nat) (set : ParameterSet)
    (t : TaskDefinition) : c.Quiet kept (c.runTask space index set t) := by
  refine Quiet.bind (quiet_update reliable
    (fun now x => x.startTask now space.spaceId index t.taskId) (fun _ _ => rfl)
    fun _ _ => rfl) fun _ => ?_
  refine Quiet.bind (Quiet.mark _ _) fun _ => Quiet.bind (Quiet.emit rfl) fun _ => ?_
  refine Tells.bind (quiet_outputValues reliable space index set t).attempt ?_
  rintro (e | values) told quiet
  · refine Quiet.bind ?_ fun _ => Quiet.bind (Quiet.mark _ _) fun _ => Tells.throw
    refine Quiet.bind (quiet_setTaskStatus reliable _ _ _ _ _) fun _ => ?_
    exact Quiet.bind (quiet_setSetStatus reliable _ _ _) fun _ => quiet_setSpaceStatus reliable _ _
  · obtain rfl := quiet values rfl
    refine Quiet.bind (quiet_recordValues reliable space index t _) fun _ => ?_
    refine Quiet.bind (quiet_setTaskStatus reliable _ _ _ _ _) fun _ => ?_
    exact Quiet.bind (Quiet.mark _ _) fun _ => Quiet.emit rfl

theorem quiet_runTasks (space : SpaceDefinition) (index : Nat) (set : ParameterSet) (total : Nat)
    (done : Nat) (tasks : List TaskDefinition) :
    c.Quiet kept (c.runTasks space index set total done tasks) := by
  induction tasks generalizing done with
  | nil => exact Quiet.pure
  | cons t rest ih =>
    rw [runTasks]
    refine Quiet.bind (quiet_runTask reliable space index set t) fun _ => ?_
    refine Quiet.bind (Quiet.emit rfl) fun _ => ?_
    exact Quiet.bind (quiet_checkTermination reliable) fun _ => ih _

theorem quiet_runSets (space : SpaceDefinition) (tasks : List TaskDefinition) (completed : Nat)
    (sets : List (ParameterSet × Nat)) : c.Quiet kept (c.runSets space tasks completed sets) := by
  induction sets generalizing completed with
  | nil => exact Quiet.pure
  | cons first rest ih =>
    obtain ⟨set, index⟩ := first
    rw [runSets]
    refine Quiet.bind (Quiet.of_reads fun x => ⟨_, reads_isSetCompleted space index⟩)
      fun skipped => ?_
    cases skipped
    · refine Quiet.bind (quiet_update reliable
        (fun now x => x.startSet now space.spaceId index set) (fun _ _ => rfl)
        fun _ _ => rfl) fun _ => ?_
      refine Quiet.bind (Quiet.emit rfl) fun _ => ?_
      refine Quiet.bind (quiet_runTasks reliable space index set _ _ tasks) fun _ => ?_
      refine Quiet.bind (quiet_setSetStatus reliable _ _ _) fun _ => ?_
      refine Quiet.bind (Quiet.emit rfl) fun _ => Quiet.bind (Quiet.emit rfl) fun _ => ?_
      exact Quiet.bind (quiet_checkTermination reliable) fun _ => ih _
    · exact ih _

/-! ## Visits -/

/-- A visit is told of at its beginning and at its end. -/
theorem tells_visit (space : SpaceDefinition) :
    c.Tells kept (c.visit space) fun _ told =>
      told = [.opened space.spaceId, .closed space.spaceId] := by
  have goesOn : c.Tells kept (do
      c.emit (.spaceStarted c.runId space.spaceId)
      let tasks ← c.tasksOf space
      c.runSets space tasks 0 space.parameters.zipIdx
      c.record (c.host.backend.setSpaceStatus c.runId space.spaceId .completed)
      c.emit (.spaceCompleted c.runId space.spaceId) : Activity S Unit) fun _ told =>
        told = [.opened space.spaceId, .closed space.spaceId] := by
    refine Tells.bind (Tells.emit _) ?_
    rintro _ _ rfl
    cases c.tasksOf space with
    | error e => exact Tells.throw
    | ok tasks =>
      refine Quiet.bind (Quiet.pure (v := tasks)) fun tasks => ?_
      refine Quiet.bind (quiet_runSets reliable space tasks 0 _) fun _ => ?_
      refine Quiet.bind (quiet_setSpaceStatus reliable _ _) fun _ => ?_
      refine (Tells.emit _).mono ?_
      rintro _ _ rfl
      rfl
  rw [visit]
  refine Quiet.bind (Quiet.of_reads fun x => ⟨_, reads_query (·.space? space.spaceId)⟩)
    fun known => ?_
  dsimp only
  split
  · exact Quiet.bind (quiet_update reliable (fun now x => x.startSpace now space.spaceId)
      (fun _ _ => rfl) fun _ _ => rfl) fun _ => goesOn
  · exact goesOn

/-- A space that the run comes to from another one is visited. -/
theorem tells_visitOnce (space : SpaceDefinition) :
    c.Tells kept (c.visitOnce space false) fun _ told =>
      told = [.opened space.spaceId, .closed space.spaceId] := by
  have visits : c.Tells kept (do c.visit space; c.checkTermination : Activity S Unit)
      fun _ told => told = [.opened space.spaceId, .closed space.spaceId] := by
    refine Tells.bind (tells_visit reliable space) ?_
    rintro _ _ rfl
    refine (quiet_checkTermination reliable).mono ?_
    rintro _ _ rfl
    rfl
  rw [visitOnce]
  refine Quiet.bind (Quiet.of_reads fun x => ⟨_, reads_isSpaceCompleted space.spaceId⟩)
    fun completed => ?_
  cases completed
  · exact visits
  · exact Quiet.bind (quiet_update reliable (fun _ x => x.resetSpace space.spaceId)
      (fun _ _ => rfl) fun _ _ => rfl) fun _ => visits

end Changes

end Conduct

end Sweep
