import Sweep.Proofs.Run.Protocol

/-!
# Activities that keep to the protocol

An activity proceeds from a sight to others if, in every session that is seen so, all the moments
that it adds to the history are steps and no answers are used up. The rules here are those of a
program logic: one for every way in which activities are composed and one for every primitive of the
engine. Unlike the standings of a run, sights ask nothing of the clock or of what was recorded
before.
-/

namespace Sweep.Conduct

variable {S α β : Type} (c : Conduct S) (kept : S → Prop)

/-- What is seen of a session whose store keeps a record of the run. -/
structure Sees (s : Session S) (v : Sight) : Prop where
  kept : kept s.store
  loads : c.host.backend.load c.runId s.store = .ok (some v.record)
  named : v.record.run.runId = c.runId

structure Comes (s : Session S) (v : Sight) (s' : Session S) (ms : List (Moment S)) (w : Sight) :
    Prop where
  history : s'.history = ms.reverse ++ s.history
  sees : c.Sees kept s' w
  trail : Trail (Step c.subject) v ms w

/-- From every session that is seen so, an activity comes by steps to a result and a sight of a
kind, and uses no answers up. -/
def Proceeds (a : Activity S α) (v : Sight) (Q : Except RunError α → Sight → Prop) : Prop :=
  ∀ s, c.Sees kept s v → (a s).2.answers = s.answers ∧
    ∃ ms w, c.Comes kept s v (a s).2 ms w ∧ Q (a s).1 w

/-- An activity that comes to this result and sight. -/
def Gives (a : Activity S α) (v : Sight) (x : α) (w : Sight) : Prop :=
  c.Proceeds kept a v fun r w' => r = .ok x ∧ w' = w

/-- An activity that changes the record, and nothing else that is seen. -/
def Writes (a : Activity S Unit) (v : Sight) (R : RunSnapshot → Prop) : Prop :=
  c.Proceeds kept a v fun r w => r = .ok () ∧ ∃ x, w = v.withRecord x ∧ R x

variable {c kept}

theorem Sees.recordIn {s : Session S} {v : Sight} (h : c.Sees kept s v) :
    c.subject.recordIn s.store = some v.record := by
  show (c.host.backend.load c.runId s.store).toOption.join = _
  rw [h.loads]
  rfl

/-! ## Rules of composition -/

theorem Comes.refl {s : Session S} {v : Sight} (sees : c.Sees kept s v) :
    c.Comes kept s v s [] v := ⟨rfl, sees, .nil v⟩

theorem Comes.trans {s s' s'' : Session S} {v w w' : Sight} {ms ms' : List (Moment S)}
    (first : c.Comes kept s v s' ms w) (second : c.Comes kept s' w s'' ms' w') :
    c.Comes kept s v s'' (ms ++ ms') w' := by
  refine ⟨?_, second.sees, first.trail.append second.trail⟩
  rw [second.history, first.history, List.reverse_append, List.append_assoc]

namespace Proceeds

variable {v : Sight}

theorem mono {a : Activity S α} {Q R : Except RunError α → Sight → Prop}
    (h : c.Proceeds kept a v Q) (weaker : ∀ r w, Q r w → R r w) : c.Proceeds kept a v R := by
  intro s sees
  obtain ⟨answers, ms, w, comes, q⟩ := h s sees
  exact ⟨answers, ms, w, comes, weaker _ _ q⟩

theorem pure {Q : Except RunError α → Sight → Prop} {x : α} (h : Q (.ok x) v) :
    c.Proceeds kept (pure x) v Q :=
  fun _ sees => ⟨rfl, [], v, .refl sees, h⟩

theorem throw {Q : Except RunError α → Sight → Prop} {e : RunError} (h : Q (.error e) v) :
    c.Proceeds kept (throw e) v Q :=
  fun _ sees => ⟨rfl, [], v, .refl sees, h⟩

theorem bind {a : Activity S α} {f : α → Activity S β} {R : Except RunError α → Sight → Prop}
    {Q : Except RunError β → Sight → Prop} (first : c.Proceeds kept a v R)
    (fails : ∀ e w, R (.error e) w → Q (.error e) w)
    (goesOn : ∀ x w, R (.ok x) w → c.Proceeds kept (f x) w Q) : c.Proceeds kept (a >>= f) v Q := by
  intro s sees
  obtain ⟨answers, ms, w, comes, r⟩ := first s sees
  rw [bind_eval]
  rcases h : a s with ⟨e | x, s'⟩ <;> rw [h] at answers comes r
  · exact ⟨answers, ms, w, comes, fails e w r⟩
  · obtain ⟨answers', ms', w', comes', q⟩ := goesOn x w r s' comes.sees
    exact ⟨answers'.trans answers, ms ++ ms', w', comes.trans comes', q⟩

theorem attempt {a : Activity S α} {Q : Except RunError (Except RunError α) → Sight → Prop}
    (h : c.Proceeds kept a v fun r w => Q (.ok r) w) : c.Proceeds kept a.attempt v Q :=
  fun s sees => h s sees

end Proceeds

theorem Gives.bind {a : Activity S α} {f : α → Activity S β} {v w : Sight} {x : α}
    {Q : Except RunError β → Sight → Prop} (first : c.Gives kept a v x w)
    (goesOn : c.Proceeds kept (f x) w Q) : c.Proceeds kept (a >>= f) v Q := by
  refine Proceeds.bind first ?_ ?_
  · rintro e w' ⟨h, -⟩
    cases h
  · rintro y w' ⟨h, rfl⟩
    cases h
    exact goesOn

theorem Gives.pure {v : Sight} {x : α} : c.Gives kept (pure x) v x v := Proceeds.pure ⟨rfl, rfl⟩

theorem Writes.bind {a : Activity S Unit} {f : Unit → Activity S β} {v : Sight}
    {R : RunSnapshot → Prop} {Q : Except RunError β → Sight → Prop}
    (first : c.Writes kept a v R)
    (goesOn : ∀ x, R x → c.Proceeds kept (f ()) (v.withRecord x) Q) :
    c.Proceeds kept (a >>= f) v Q := by
  refine Proceeds.bind first ?_ ?_
  · rintro e w ⟨h, -⟩
    cases h
  · rintro ⟨⟩ w ⟨-, x, rfl, r⟩
    exact goesOn x r

/-! ## Moments -/

/-- To note a moment is a step, if the moment is one. -/
theorem gives_note {m : Moment S} {v w : Sight} (step : Step c.subject v m w)
    (record : w.record = v.record) : c.Gives kept (c.note m) v () w := by
  intro s sees
  refine ⟨rfl, [m], w, ⟨rfl, ⟨sees.kept, ?_, ?_⟩, .single step⟩, rfl, rfl⟩
  · rw [record]
    exact sees.loads
  · rw [record]
    exact sees.named

/-- An event that the record bears out may be told. -/
theorem gives_emit {e : ProgressEvent} {v : Sight} (own : e.runId = c.runId)
    (shown : v.record.BearsOut c.artifact e) : c.Gives kept (c.emit e) v () v :=
  fun s sees => gives_note (.told sees.recordIn own shown) rfl s sees

/-- A task is marked in a space that the run is in and that is not completed. -/
theorem gives_mark (key : TaskKey) (mark : TaskMark) {v : Sight}
    (inside : v.ledger.control = some key.space)
    (open_ : v.ledger.spaces key.space ≠ some .completed) :
    c.Gives kept (c.mark key mark) v () (v.after [(key, mark)]) := by
  have clock : c.Proceeds kept c.readClock v fun r w => (∃ now, r = .ok now) ∧ w = v :=
    fun s sees => ⟨rfl, [], v, ⟨rfl, ⟨sees.kept, sees.loads, sees.named⟩, .nil v⟩, ⟨_, rfl⟩, rfl⟩
  refine Proceeds.bind clock ?_ ?_
  · rintro e w ⟨⟨now, h⟩, -⟩
    cases h
  · rintro now w ⟨-, rfl⟩
    exact gives_note (.marked (e := ⟨key, mark, now⟩) inside open_) rfl

/-! ## The repository -/

/-- An activity that only looks at the record has the result that the record gives. -/
theorem proceeds_of_reads {a : Activity S α} {v : Sight} {r : Except RunError α}
    (reads : c.Reads v.record a r) : c.Proceeds kept a v fun r' w => r' = r ∧ w = v := by
  intro s sees
  obtain ⟨n, eval⟩ := reads s sees.loads
  rw [eval]
  exact ⟨rfl, [], v, ⟨rfl, ⟨sees.kept, sees.loads, sees.named⟩, .nil v⟩, rfl, rfl⟩

theorem gives_of_reads {a : Activity S α} {v : Sight} {y : α}
    (reads : c.Reads v.record a (.ok y)) : c.Gives kept a v y v := proceeds_of_reads reads

section Changes

variable (reliable : c.host.Reliable c.runId kept)

include reliable

/-- A change of the record is noted with the store that holds it. -/
theorem record_eval {operation : RepositoryM S Unit}
    (change : Timestamp → RunSnapshot → Except RecordKey RunSnapshot) {s : Session S} {v : Sight}
    {x : RunSnapshot}
    (modifies : ∀ now s, operation now s = c.host.backend.modify c.runId change now s)
    (sees : c.Sees kept s v) (changed : change (c.host.clock s.readings) v.record = .ok x)
    (named : x.run.runId = v.record.run.runId) :
    ∃ s', c.record operation s = (.ok (), s') ∧ s'.answers = s.answers ∧
      s'.history = .wrote s'.store :: s.history ∧
      c.Sees kept s' (v.withRecord (x.touch (c.host.clock s.readings))) := by
  obtain ⟨store, stored, kept', loads⟩ := reliable.stores (x.touch (c.host.clock s.readings))
    sees.kept (named.trans sees.named)
  have queried : c.query operation s =
      (.ok (), { s with store, readings := s.readings + 1 }) := by
    rw [query_eval, modifies, modify_eval sees.loads changed, stored]
    rfl
  refine ⟨(c.note (.wrote store) { s with store, readings := s.readings + 1 }).2, ?_, rfl, rfl,
    kept', loads, named.trans sees.named⟩
  rw [Conduct.record, bind_eval, queried]
  rfl

omit reliable in
/-- A change of what is not recorded is refused, and nothing is noted. -/
theorem record_refused {operation : RepositoryM S Unit}
    (change : Timestamp → RunSnapshot → Except RecordKey RunSnapshot) {s : Session S} {v : Sight}
    {key : RecordKey}
    (modifies : ∀ now s, operation now s = c.host.backend.modify c.runId change now s)
    (sees : c.Sees kept s v) (refused : change (c.host.clock s.readings) v.record = .error key) :
    c.record operation s =
      (.error (.repository (.recordNotFound key)), { s with readings := s.readings + 1 }) := by
  have time : (read : RepositoryM S Timestamp) (c.host.clock s.readings) s.store =
      (.ok (c.host.clock s.readings), s.store) := rfl
  have queried : c.query operation s = (.error (.repository (.recordNotFound key)),
      { s with readings := s.readings + 1 }) := by
    rw [query_eval, modifies, Backend.modify, operation_bind_eval, snapshot_eval sees.loads]
    simp only [operation_bind_eval, time, refused]
    rfl
  rw [Conduct.record, bind_eval, queried]

/-- A change of the record that is a move. -/
theorem writes_record {operation : RepositoryM S Unit}
    (change : Timestamp → RunSnapshot → Except RecordKey RunSnapshot) {v : Sight}
    {R : RunSnapshot → Prop}
    (modifies : ∀ now s, operation now s = c.host.backend.modify c.runId change now s)
    (changes : ∀ now, ∃ x, change now v.record = .ok x ∧ x.run.runId = v.record.run.runId ∧
      Move c.artifact v.marks v.ledger x.ledger ∧ R (x.touch now)) :
    c.Writes kept (c.record operation) v R := by
  intro s sees
  obtain ⟨x, changed, named, move, r⟩ := changes (c.host.clock s.readings)
  obtain ⟨s', recorded, answers, grown, sees'⟩ := record_eval reliable change modifies sees changed
    named
  rw [recorded]
  exact ⟨answers, [.wrote s'.store], _, ⟨grown, sees', .single (.wrote sees'.recordIn move)⟩, rfl,
    _, rfl, r⟩

/-- A change that cannot fail. -/
theorem writes_update (change : Timestamp → RunSnapshot → RunSnapshot) {v : Sight}
    {R : RunSnapshot → Prop}
    (named : ∀ now, (change now v.record).run.runId = v.record.run.runId)
    (move : ∀ now, Move c.artifact v.marks v.ledger (change now v.record).ledger)
    (becomes : ∀ now, R ((change now v.record).touch now)) :
    c.Writes kept (c.record (c.host.backend.update c.runId change)) v R :=
  writes_record reliable (fun now x => .ok (change now x)) (fun _ _ => rfl)
    fun now => ⟨_, rfl, named now, move now, becomes now⟩

theorem writes_setRunStatus (status : RunStatus) (error : Option String) {v : Sight}
    (atEnd : status = .completed → v.ledger.control = some endMark) :
    c.Writes kept (c.record (c.host.backend.setRunStatus c.runId status error)) v fun x =>
      x.ledger = v.ledger.setStatus status ∧ x.run.error = error :=
  writes_update reliable (fun now x => x.setStatus now status error) (fun _ => rfl)
    (fun _ => .stands status atEnd) fun _ => ⟨rfl, rfl⟩

theorem writes_setRunPosition (space : Option String) (index : Option Nat)
    (task : Option String) (v : Sight) :
    c.Writes kept (c.record (c.host.backend.setRunPosition c.runId space index task)) v fun x =>
      x.ledger = v.ledger :=
  writes_update reliable (fun _ x => x.setPosition space index task) (fun _ => rfl)
    (fun _ => .moves) fun _ => rfl

theorem writes_startSpace {space : String} {v : Sight} (inside : v.ledger.control = some space)
    (open_ : v.ledger.spaces space ≠ some .completed) :
    c.Writes kept (c.record (c.host.backend.startSpace c.runId space)) v fun x =>
      x.ledger = v.ledger.setSpace space .running :=
  writes_update reliable (fun now x => x.startSpace now space) (fun _ => rfl)
    (fun now => v.record.ledger_startSpace now space ▸ .opensSpace inside open_)
    fun now => v.record.ledger_startSpace now space

theorem writes_startSet {space : String} {index : Nat} (parameters : ParameterSet) {v : Sight}
    (visits : v.ledger.Visits space) (open_ : v.ledger.sets (space, index) ≠ some .completed) :
    c.Writes kept (c.record (c.host.backend.startSet c.runId space index parameters)) v fun x =>
      x.ledger = v.ledger.setSet space index .running :=
  writes_update reliable (fun now x => x.startSet now space index parameters) (fun _ => rfl)
    (fun now => v.record.ledger_startSet now space index parameters ▸ .opensSet visits open_)
    fun now => v.record.ledger_startSet now space index parameters

theorem writes_startTask {space : String} {index : Nat} (task : String) {v : Sight}
    (works : v.ledger.WorksOn space index) :
    c.Writes kept (c.record (c.host.backend.startTask c.runId space index task)) v fun x =>
      x.ledger = v.ledger.setTask space index task .running ∧
        x.run.currentSpace = some space ∧ x.run.currentSet = some index ∧
        x.run.currentTask = some task :=
  writes_update reliable (fun now x => x.startTask now space index task) (fun _ => rfl)
    (fun now => v.record.ledger_startTask now space index task ▸ .setsTask task .running works)
    fun now => ⟨v.record.ledger_startTask now space index task, rfl, rfl, rfl⟩

theorem writes_setSpaceStatus {space : String} (status : UnitStatus) {v : Sight}
    (visits : v.ledger.Visits space)
    (move : Move c.artifact v.marks v.ledger (v.ledger.setSpace space status)) :
    c.Writes kept (c.record (c.host.backend.setSpaceStatus c.runId space status)) v fun x =>
      x.ledger = v.ledger.setSpace space status := by
  refine writes_record reliable _ (fun _ _ => rfl) fun now => ?_
  have known : (v.ledger.spaces space).isSome := by simp [visits.2]
  obtain ⟨x, changed, run, -, ledger⟩ := v.record.ledger_setSpaceStatus now known
  exact ⟨x, changed, by rw [run], ledger ▸ move, ledger⟩

theorem writes_setSetStatus {space : String} {index : Nat} (status : UnitStatus) {v : Sight}
    (works : v.ledger.WorksOn space index)
    (move : Move c.artifact v.marks v.ledger (v.ledger.setSet space index status)) :
    c.Writes kept (c.record (c.host.backend.setSetStatus c.runId space index status)) v fun x =>
      x.ledger = v.ledger.setSet space index status := by
  refine writes_record reliable _ (fun _ _ => rfl) fun now => ?_
  have known : (v.ledger.sets (space, index)).isSome := by simp [works.2]
  obtain ⟨x, changed, run, -, ledger⟩ := v.record.ledger_setSetStatus now known
  exact ⟨x, changed, by rw [run], ledger ▸ move, ledger⟩

theorem writes_setTaskStatus {space : String} {index : Nat} (task : String) (status : UnitStatus)
    (error : Option String) {v : Sight} (works : v.ledger.WorksOn space index)
    (known : (v.ledger.tasks (space, index, task)).isSome) :
    c.Writes kept (c.record (c.host.backend.setTaskStatus c.runId space index task status error))
      v fun x => x.ledger = v.ledger.setTask space index task status := by
  refine writes_record reliable _ (fun _ _ => rfl) fun now => ?_
  obtain ⟨x, changed, run, -, ledger⟩ := v.record.ledger_setTaskStatus now known
  exact ⟨x, changed, by rw [run], ledger ▸ .setsTask task status works, ledger⟩

theorem writes_putMapping {space : String} {index : Nat} (name value : String)
    (task : Option String) {v : Sight} (works : v.ledger.WorksOn space index) :
    c.Writes kept (c.record fun now => c.host.backend.putMapping c.runId {
        spaceId := space, index, name, value, taskId := task, recordedAt := now } now) v fun x =>
      ∃ last, x.ledger = v.ledger.put space index name value last := by
  let mapping (now : Timestamp) : DataMapping :=
    { spaceId := space, index, name, value, taskId := task, recordedAt := now }
  refine writes_record reliable (fun now x => .ok (x.putMapping (mapping now))) (fun _ _ => rfl)
    fun now => ?_
  obtain ⟨last, ledger, -⟩ := v.record.ledger_putMapping (mapping now)
  exact ⟨_, rfl, rfl, ledger ▸ .puts name value last works, last, ledger⟩

/-! ## Programs and termination -/

theorem proceeds_launch (command : Command) (v : Sight) :
    c.Proceeds kept (c.launch command) v fun r w => (∃ x, r = .ok x) ∧ w = v := by
  intro s sees
  obtain ⟨kept', loads⟩ := reliable.launches command sees.kept
  exact ⟨rfl, [.launched command], v, ⟨rfl, ⟨kept', loads.trans sees.loads, sees.named⟩,
    .single (.launched command)⟩, ⟨_, rfl⟩, rfl⟩

/-- A request for termination is noted in the record and stops the run. -/
theorem proceeds_checkTermination (v : Sight) :
    c.Proceeds kept c.checkTermination v fun r w =>
      (r = .ok () ∧ w = v) ∨ (r = .error (.terminated c.runId) ∧
        ∃ x, w = v.withRecord x ∧ x.ledger = v.ledger.setStatus .terminated) := by
  -- Whether termination is requested is no part of the sight.
  have asked (requested : Bool) : c.Proceeds kept (if requested then do
        c.record (c.host.backend.setRunStatus c.runId .terminated none)
        throw (.terminated c.runId)
      else pure () : Activity S Unit) v fun r w =>
      (r = .ok () ∧ w = v) ∨ (r = .error (.terminated c.runId) ∧
        ∃ x, w = v.withRecord x ∧ x.ledger = v.ledger.setStatus .terminated) := by
    cases requested
    · exact Proceeds.pure (.inl ⟨rfl, rfl⟩)
    · refine (writes_setRunStatus reliable .terminated none nofun).bind fun x written => ?_
      exact Proceeds.throw (.inr ⟨rfl, x, rfl, written.1⟩)
  exact fun s sees => asked s.terminating s sees

end Changes

end Sweep.Conduct
