import Sweep.Proofs.Run.Recording

/-!
# What is told while a space is visited

While a space is visited, listeners are told when a parameter set is carried out, and how far the
space has come: after each task how many of its tasks are done, after each set how many of its sets.
A set that is recorded as completed counts as done without being told of. So what is told is a
function of the record at the beginning, and of the record only the sets matter.

The rules here are about activities that come to their end. One that fails has told something too,
of which no rule speaks.
-/

namespace Sweep

variable {S α β : Type}

/-- What listeners are told of how far a space has come. -/
inductive ProgressNotice where
  /-- A parameter set is carried out. -/
  | entered (index : Nat)
  /-- Of a number of units, so many are done. -/
  | reached (done total : Nat)
deriving DecidableEq, Repr

/-- What an event says of how far a space has come. -/
def ProgressEvent.progress? : ProgressEvent → Option ProgressNotice
  | .setStarted _ _ index => some (.entered index)
  | .progress _ done total _ => some (.reached done total)
  | _ => none

/-- What is told while a parameter set is carried out, in a space of so many tasks and sets. -/
def ProgressNotice.ofSet (tasks sets index : Nat) : List ProgressNotice :=
  .entered index :: ((List.range' (index * tasks + 1) tasks).map (.reached · (tasks * sets)) ++
    [.reached (index + 1) sets])

/-- How the parameter sets of a run are recorded. -/
abbrev SetBook := String × Nat → Option UnitStatus

def SetBook.openAmong (book : SetBook) (space : String) (indices : List Nat) : List Nat :=
  indices.filter fun index => book (space, index) ≠ some .completed

theorem Session.events_note {c : Conduct S} (m : Moment S) (s : Session S) :
    (c.note m s).2.events = s.events ++ (match m with
      | .told e _ => [e]
      | _ => []) := by
  cases m <;> simp [Conduct.note_eval, Session.events]

namespace Conduct

/-- From every session whose record keeps the sets as in a book, if an activity comes to its end,
its result goes with what was told of progress and with the book that it leaves. -/
def Counts (c : Conduct S) (kept : S → Prop) (a : Activity S α) (book : SetBook)
    (R : α → List ProgressNotice → SetBook → Prop) : Prop :=
  ∀ s x v s', c.Sees kept s ⟨x, []⟩ → x.ledger.sets = book → a s = (.ok v, s') →
    ∃ (told : List ProgressEvent) (y : RunSnapshot), s'.events = s.events ++ told ∧
      c.Sees kept s' ⟨y, []⟩ ∧ R v (told.filterMap ProgressEvent.progress?) y.ledger.sets

/-- An activity that tells nothing of progress and leaves the book as it is. -/
def Aside (c : Conduct S) (kept : S → Prop) (a : Activity S α) : Prop :=
  ∀ book, c.Counts kept a book fun _ told book' => told = [] ∧ book' = book

/-- An activity that never comes to its end. -/
def Fails (a : Activity S α) : Prop := ∀ s v s', a s ≠ (.ok v, s')

variable {c : Conduct S} {kept : S → Prop} {book : SetBook}

/-- An activity in two parts comes to its end if both of them do. -/
theorem exists_of_bind_eq_ok {a : Activity S α} {f : α → Activity S β} {s s' : Session S} {w : β}
    (ended : (a >>= f) s = (.ok w, s')) : ∃ v t, a s = (.ok v, t) ∧ f v t = (.ok w, s') := by
  rw [bind_eval] at ended
  rcases h : a s with ⟨e | v, t⟩ <;> rw [h] at ended
  · cases ended
  · exact ⟨v, t, rfl, ended⟩

namespace Fails

theorem throw {e : RunError} : Fails (throw e : Activity S α) := nofun

theorem bind {a : Activity S α} {f : α → Activity S β} (goesOn : ∀ v, Fails (f v)) :
    Fails (a >>= f) := by
  intro s w s' ended
  obtain ⟨v, t, -, ended⟩ := exists_of_bind_eq_ok ended
  exact goesOn v t w s' ended

end Fails

namespace Counts

theorem of_fails {a : Activity S α} {R : α → List ProgressNotice → SetBook → Prop}
    (fails : Fails a) : c.Counts kept a book R :=
  fun s _ v s' _ _ ended => absurd ended (fails s v s')

/-- What is told adds up. -/
theorem bind {a : Activity S α} {f : α → Activity S β}
    {R : α → List ProgressNotice → SetBook → Prop} {Q : β → List ProgressNotice → SetBook → Prop}
    (first : c.Counts kept a book R)
    (goesOn : ∀ v told book', R v told book' →
      c.Counts kept (f v) book' fun w later => Q w (told ++ later)) :
    c.Counts kept (a >>= f) book Q := by
  intro s x w s' sees same ended
  obtain ⟨v, t, begins, ends⟩ := exists_of_bind_eq_ok ended
  obtain ⟨told, y, grown, sees', r⟩ := first s x v t sees same begins
  obtain ⟨later, z, grown', sees'', q⟩ := goesOn v _ _ r t y w s' sees' rfl ends
  refine ⟨told ++ later, z, by rw [grown', grown, List.append_assoc], sees'', ?_⟩
  rw [List.filterMap_append]
  exact q

/-- An error that is looked at may only lead to a failure. -/
theorem attempt_bind {a : Activity S α} {f : Except RunError α → Activity S β}
    {R : α → List ProgressNotice → SetBook → Prop} {Q : β → List ProgressNotice → SetBook → Prop}
    (first : c.Counts kept a book R) (fails : ∀ e, Fails (f (.error e)))
    (goesOn : ∀ v told book', R v told book' →
      c.Counts kept (f (.ok v)) book' fun w later => Q w (told ++ later)) :
    c.Counts kept (a.attempt >>= f) book Q := by
  intro s x w s' sees same ended
  -- When the whole comes to its end, so does `a`, and then to look at its result changes nothing.
  have whole : c.Counts kept (a >>= fun v => f (.ok v)) book Q := first.bind goesOn
  refine whole s x w s' sees same ?_
  rw [bind_eval] at ended ⊢
  have looked : a.attempt s = (.ok (a s).1, (a s).2) := rfl
  rw [looked] at ended
  rcases h : a s with ⟨e | v, t⟩ <;> rw [h] at ended
  · exact absurd ended (fails e t w s')
  · exact ended

theorem mono {a : Activity S α} {R Q : α → List ProgressNotice → SetBook → Prop}
    (h : c.Counts kept a book R) (weaker : ∀ v told book', R v told book' → Q v told book') :
    c.Counts kept a book Q := by
  intro s x v s' sees same ended
  obtain ⟨told, y, grown, sees', r⟩ := h s x v s' sees same ended
  exact ⟨told, y, grown, sees', weaker _ _ _ r⟩

theorem pure {v : α} {R : α → List ProgressNotice → SetBook → Prop} (r : R v [] book) :
    c.Counts kept (pure v) book R := by
  rintro s x _ _ sees rfl ⟨⟩
  exact ⟨[], x, (List.append_nil _).symm, sees, r⟩

theorem of_reads {a : Activity S α} {R : α → List ProgressNotice → SetBook → Prop}
    (reads : ∀ x : RunSnapshot, x.ledger.sets = book →
      ∃ r, c.Reads x a r ∧ ∀ v, r = .ok v → R v [] book) : c.Counts kept a book R := by
  intro s x v s' sees same ended
  obtain ⟨r, looks, ends⟩ := reads x same
  obtain ⟨count, eval⟩ := looks s sees.loads
  rw [ended] at eval
  cases eval
  exact ⟨[], x, (List.append_nil _).symm, ⟨sees.kept, sees.loads, sees.named⟩,
    same ▸ ends v rfl⟩

theorem emit (e : ProgressEvent) : c.Counts kept (c.emit e) book fun _ told book' =>
    told = e.progress?.toList ∧ book' = book := by
  rintro s x _ _ sees same ⟨⟩
  refine ⟨[e], x, Session.events_note (.told e s.store) s,
    ⟨sees.kept, sees.loads, sees.named⟩, ?_, same⟩
  cases h : e.progress? <;> simp [h]

end Counts

namespace Aside

/-- What stands aside is skipped over. -/
theorem bind {a : Activity S α} {f : α → Activity S β}
    {Q : β → List ProgressNotice → SetBook → Prop} (first : c.Aside kept a)
    (goesOn : ∀ v, c.Counts kept (f v) book Q) : c.Counts kept (a >>= f) book Q := by
  refine Counts.bind (first book) ?_
  rintro v _ _ ⟨rfl, rfl⟩
  exact goesOn v

/-- One after the other, both stand aside. -/
theorem next {a : Activity S α} {f : α → Activity S β} (first : c.Aside kept a)
    (goesOn : ∀ v, c.Aside kept (f v)) : c.Aside kept (a >>= f) :=
  fun book => first.bind fun v => goesOn v book

theorem pure {v : α} : c.Aside kept (pure v) := fun _ => Counts.pure ⟨rfl, rfl⟩

theorem of_fails {a : Activity S α} (fails : Fails a) : c.Aside kept a :=
  fun _ => Counts.of_fails fails

theorem of_reads {a : Activity S α} (reads : ∀ x, ∃ r, c.Reads x a r) : c.Aside kept a :=
  fun _ => Counts.of_reads fun x _ => (reads x).imp fun _ looks => ⟨looks, fun _ _ => ⟨rfl, rfl⟩⟩

/-- What is noted apart from events tells nothing. -/
theorem note {m : Moment S} (silent : ∀ e store, m ≠ .told e store) : c.Aside kept (c.note m) := by
  rintro book s x _ _ sees same ⟨⟩
  refine ⟨[], x, (Session.events_note m s).trans (congrArg _ ?_),
    ⟨sees.kept, sees.loads, sees.named⟩, rfl, same⟩
  cases m with
  | told e store => exact absurd rfl (silent e store)
  | wrote | printed | asked | launched | marked => rfl

theorem emit {e : ProgressEvent} (other : e.progress? = none) : c.Aside kept (c.emit e) :=
  fun _ => (Counts.emit e).mono fun _ _ _ same => by
    rw [same.1, other]
    exact ⟨rfl, same.2⟩

theorem mark (key : TaskKey) (mark : TaskMark) : c.Aside kept (c.mark key mark) := by
  have time : c.Aside kept c.readClock := by
    rintro book s x _ _ sees same ⟨⟩
    exact ⟨[], x, (List.append_nil _).symm, ⟨sees.kept, sees.loads, sees.named⟩, rfl, same⟩
  exact time.next fun _ => note nofun

end Aside

section Changes

variable (reliable : c.host.Reliable c.runId kept)

include reliable

/-! ## Changes of the record -/

/-- A change of the record tells nothing, and changes the book as it changes the sets. -/
theorem counts_record {operation : RepositoryM S Unit}
    (change : Timestamp → RunSnapshot → Except RecordKey RunSnapshot) {R : SetBook → Prop}
    (modifies : ∀ now s, operation now s = c.host.backend.modify c.runId change now s)
    (changes : ∀ now x y, x.ledger.sets = book → change now x = .ok y →
      y.run.runId = x.run.runId ∧ R y.ledger.sets) :
    c.Counts kept (c.record operation) book fun _ told book' => told = [] ∧ R book' := by
  intro s x v s' sees same ended
  cases changed : change (c.host.clock s.readings) x with
  | ok y =>
    obtain ⟨named, r⟩ := changes _ _ _ same changed
    obtain ⟨t, recorded, -, grown, sees'⟩ :=
      record_eval reliable change modifies sees changed named
    rw [recorded] at ended
    cases ended
    exact ⟨[], _, by simp [Session.events, grown], sees', rfl, r⟩
  | error key =>
    rw [record_refused change modifies sees changed] at ended
    cases ended

/-- A change that leaves the sets alone stands aside. -/
theorem aside_record {operation : RepositoryM S Unit}
    (change : Timestamp → RunSnapshot → Except RecordKey RunSnapshot)
    (modifies : ∀ now s, operation now s = c.host.backend.modify c.runId change now s)
    (changes : ∀ now x y, change now x = .ok y →
      y.run.runId = x.run.runId ∧ y.ledger.sets = x.ledger.sets) :
    c.Aside kept (c.record operation) := fun _ =>
  counts_record reliable change modifies fun now x y same changed => same ▸ changes now x y changed

/-- A change that cannot be refused and leaves the sets alone. -/
theorem aside_update (change : Timestamp → RunSnapshot → RunSnapshot)
    (named : ∀ now x, (change now x).run.runId = x.run.runId)
    (sets : ∀ now x, (change now x).ledger.sets = x.ledger.sets) :
    c.Aside kept (c.record (c.host.backend.update c.runId change)) := by
  refine aside_record reliable (fun now x => .ok (change now x)) (fun _ _ => rfl) ?_
  rintro now x _ ⟨⟩
  exact ⟨named now x, sets now x⟩

theorem aside_setSpaceStatus (space : String) (status : UnitStatus) :
    c.Aside kept (c.record (c.host.backend.setSpaceStatus c.runId space status)) := by
  refine aside_record reliable _ (fun _ _ => rfl) fun now x y changed => ?_
  obtain ⟨_, -, rfl⟩ := RunSnapshot.exists_of_setSpaceStatus changed
  exact ⟨rfl, rfl⟩

theorem aside_setTaskStatus (space : String) (index : Nat) (task : String) (status : UnitStatus)
    (error : Option String) :
    c.Aside kept
      (c.record (c.host.backend.setTaskStatus c.runId space index task status error)) := by
  refine aside_record reliable _ (fun _ _ => rfl) fun now x y changed => ?_
  obtain ⟨_, -, rfl⟩ := RunSnapshot.exists_of_setTaskStatus changed
  exact ⟨rfl, rfl⟩

theorem counts_startSet (space : String) (index : Nat) (parameters : ParameterSet) :
    c.Counts kept (c.record (c.host.backend.startSet c.runId space index parameters)) book
      fun _ told book' =>
        told = [] ∧ book' = Function.update book (space, index) (some .running) := by
  refine counts_record reliable (fun now x => .ok (x.startSet now space index parameters))
    (fun _ _ => rfl) ?_
  rintro now x _ rfl ⟨⟩
  exact ⟨rfl, by rw [RunSnapshot.ledger_startSet]; rfl⟩

theorem counts_setSetStatus (space : String) (index : Nat) (status : UnitStatus) :
    c.Counts kept (c.record (c.host.backend.setSetStatus c.runId space index status)) book
      fun _ told book' =>
        told = [] ∧ book' = Function.update book (space, index) (some status) := by
  refine counts_record reliable _ (fun _ _ => rfl) ?_
  rintro now x y rfl changed
  obtain ⟨sets, -, run⟩ := RunSnapshot.setSetStatus_eq changed
  exact ⟨by rw [run], sets⟩

omit reliable in
/-- Only a run that goes on comes to the end of a look for a request. -/
theorem aside_checkTermination : c.Aside kept c.checkTermination := by
  have either (requested : Bool) : c.Aside kept (if requested then do
        c.record (c.host.backend.setRunStatus c.runId .terminated none)
        throw (.terminated c.runId)
      else pure () : Activity S Unit) := by
    cases requested
    · exact Aside.pure
    · exact Aside.of_fails (Fails.bind fun _ => Fails.throw)
  exact fun book s => either s.terminating book s

/-! ## Tasks -/

theorem aside_carryOut (t : TaskDefinition) (command : Command) :
    c.Aside kept (c.carryOut t command) := by
  rw [carryOut]
  split
  · exact (Aside.note (by rintro _ _ ⟨⟩)).next fun _ => Aside.pure
  · have launches : c.Aside kept (c.launch command) := by
      rintro book s x _ _ sees same ⟨⟩
      obtain ⟨kept', loads⟩ := reliable.launches command sees.kept
      exact ⟨[], x, Session.events_note (.launched command) _,
        ⟨kept', loads.trans sees.loads, sees.named⟩, rfl, same⟩
    refine launches.next fun r => ?_
    cases r <;> exact Aside.pure

theorem aside_outputValues (space : SpaceDefinition) (index : Nat) (set : ParameterSet)
    (t : TaskDefinition) : c.Aside kept (c.outputValues space index set t) := by
  rw [outputValues]
  cases parametersOf space index set t with
  | error e => exact Aside.of_fails (Fails.throw (e := e))
  | ok parameters =>
    refine Aside.next (Aside.pure (v := parameters)) fun parameters => ?_
    refine Aside.next (Aside.of_reads fun x =>
      ⟨_, Reads.mapM (reads_inputValue space index t) t.inputData⟩) fun inputs => ?_
    refine Aside.next ?_ fun produced => ?_
    · rw [execute]
      split
      · exact Aside.pure
      · exact aside_carryOut reliable t _
    · cases produced with
      | error cause => exact Aside.of_fails Fails.throw
      | ok values => exact Aside.pure

theorem aside_recordValues (space : SpaceDefinition) (index : Nat) (t : TaskDefinition)
    (outputs : List (String × String)) : c.Aside kept (c.recordValues space index t outputs) := by
  induction outputs with
  | nil => exact Aside.pure
  | cons output rest ih =>
    obtain ⟨name, value⟩ := output
    rw [recordValues]
    refine Aside.next (aside_record reliable (fun now x => .ok (x.putMapping
      { spaceId := space.spaceId, index, name, value, taskId := some t.taskId,
        recordedAt := now })) (fun _ _ => rfl) ?_) fun _ => ih
    rintro now x _ ⟨⟩
    exact ⟨rfl, rfl⟩

/-- A task that is completed tells nothing of the space. -/
theorem aside_runTask (space : SpaceDefinition) (index : Nat) (set : ParameterSet)
    (t : TaskDefinition) : c.Aside kept (c.runTask space index set t) := by
  intro book
  rw [runTask]
  refine (aside_update reliable (fun now x => x.startTask now space.spaceId index t.taskId)
    (fun _ _ => rfl) fun _ _ => rfl).bind fun _ => ?_
  refine (Aside.mark _ _).bind fun _ => (Aside.emit rfl).bind fun _ => ?_
  refine Counts.attempt_bind (aside_outputValues reliable space index set t book)
    (fun e => Fails.bind fun _ => Fails.bind fun _ => Fails.throw) ?_
  rintro values _ _ ⟨rfl, rfl⟩
  refine (aside_recordValues reliable space index t _).bind fun _ => ?_
  refine (aside_setTaskStatus reliable _ _ _ _ _).bind fun _ => ?_
  exact (Aside.mark _ _).bind fun _ => Aside.emit rfl _

/-- After each task it is told how many tasks of the space are done. -/
theorem counts_runTasks (space : SpaceDefinition) (index : Nat) (set : ParameterSet)
    (total done : Nat) (tasks : List TaskDefinition) :
    c.Counts kept (c.runTasks space index set total done tasks) book fun _ told book' =>
      told = (List.range' (done + 1) tasks.length).map (.reached · total) ∧ book' = book := by
  induction tasks generalizing done with
  | nil => exact Counts.pure ⟨rfl, rfl⟩
  | cons t rest ih =>
    rw [runTasks]
    refine (aside_runTask reliable space index set t).bind fun _ => ?_
    refine Counts.bind (Counts.emit _) ?_
    rintro _ _ _ ⟨rfl, rfl⟩
    refine aside_checkTermination.bind fun _ => (ih (done + 1)).mono ?_
    rintro _ _ _ ⟨rfl, rfl⟩
    exact ⟨rfl, rfl⟩

/-! ## Parameter sets -/

omit reliable in
/-- A set that comes before some others can be recorded otherwise without changing which of them
are open. -/
theorem openAmong_update {space : String} {index : Nat} {status : Option UnitStatus}
    {indices : List Nat} (later : ∀ i ∈ indices, index < i) :
    SetBook.openAmong (Function.update book (space, index) status) space indices =
      SetBook.openAmong book space indices :=
  List.filter_congr fun i mem => by
    have other : (space, i) ≠ (space, index) := fun same =>
      Nat.ne_of_gt (later i mem) (congrArg Prod.snd same)
    rw [Function.update_of_ne other]

/-- The sets from an index on that are not recorded as completed are told of, each as if all before
it had been told of. -/
theorem counts_runSets (space : SpaceDefinition) (tasks : List TaskDefinition)
    (sets : List ParameterSet) (start : Nat) :
    c.Counts kept (c.runSets space tasks start (sets.zipIdx start)) book fun _ told _ =>
      told = (book.openAmong space.spaceId (List.range' start sets.length)).flatMap
        (ProgressNotice.ofSet tasks.length space.parameters.length) := by
  -- As many sets are counted as have an index below the next one, whether told of or not.
  induction sets generalizing start book with
  | nil => exact Counts.pure rfl
  | cons set rest ih =>
    rw [List.zipIdx_cons, runSets, List.length_cons, List.range'_succ, SetBook.openAmong]
    refine Counts.bind (R := fun skipped told book' => told = [] ∧ book' = book ∧
      skipped = decide (book (space.spaceId, start) = some .completed))
      (Counts.of_reads fun x same => ⟨_, reads_isSetCompleted space start, ?_⟩) ?_
    · rintro _ ⟨⟩
      exact ⟨rfl, rfl, by rw [same]⟩
    rintro _ _ book' ⟨rfl, rfl, rfl⟩
    by_cases completed : book' (space.spaceId, start) = some .completed
    · rw [List.filter_cons_of_neg (by simpa using completed)]
      simp only [completed, decide_true, if_true]
      exact ih _
    rw [List.filter_cons_of_pos (by simpa using completed), List.flatMap_cons]
    simp only [completed, decide_false, Bool.false_eq_true, if_false]
    refine Counts.bind (counts_startSet reliable _ _ _) ?_
    rintro _ _ _ ⟨rfl, rfl⟩
    refine Counts.bind (Counts.emit _) ?_
    rintro _ _ _ ⟨rfl, rfl⟩
    refine Counts.bind (counts_runTasks reliable space start set _ _ tasks) ?_
    rintro _ _ _ ⟨rfl, rfl⟩
    refine Counts.bind (counts_setSetStatus reliable _ _ _) ?_
    rintro _ _ _ ⟨rfl, rfl⟩
    refine (Aside.emit rfl).bind fun _ => Counts.bind (Counts.emit _) ?_
    rintro _ _ _ ⟨rfl, rfl⟩
    refine aside_checkTermination.bind fun _ => (ih (start + 1)).mono ?_
    rintro _ _ - rfl
    -- This set is recorded anew twice, but those that are left come after it.
    have later : ∀ i ∈ List.range' (start + 1) rest.length, start < i := fun i mem =>
      (List.mem_range'_1.1 mem).1
    rw [openAmong_update later, openAmong_update later]
    simp [ProgressNotice.ofSet, ProgressEvent.progress?, SetBook.openAmong]

/-- A visit that comes to its end tells of the sets that are not recorded as completed. -/
theorem counts_visit (space : SpaceDefinition) :
    c.Counts kept (c.visit space) book fun _ told _ =>
      told = (book.openAmong space.spaceId (List.range space.parameters.length)).flatMap
        (ProgressNotice.ofSet space.tasksOrder.length space.parameters.length) := by
  have goesOn : c.Counts kept (do
      c.emit (.spaceStarted c.runId space.spaceId)
      let tasks ← c.tasksOf space
      c.runSets space tasks 0 space.parameters.zipIdx
      c.record (c.host.backend.setSpaceStatus c.runId space.spaceId .completed)
      c.emit (.spaceCompleted c.runId space.spaceId) : Activity S Unit) book fun _ told _ =>
        told = (book.openAmong space.spaceId (List.range space.parameters.length)).flatMap
          (ProgressNotice.ofSet space.tasksOrder.length space.parameters.length) := by
    refine (Aside.emit rfl).bind fun _ => ?_
    cases known : c.tasksOf space with
    | error e => exact Counts.of_fails (Fails.throw (e := e))
    | ok tasks =>
      have length : space.tasksOrder.length = tasks.length := by
        rw [← tasksOf_taskIds known, List.length_map]
      rw [length, List.range_eq_range']
      refine Counts.bind (R := fun found told book' => found = tasks ∧ told = [] ∧ book' = book)
        (Counts.pure ⟨rfl, rfl, rfl⟩) ?_
      rintro tasks _ _ ⟨rfl, rfl, rfl⟩
      refine Counts.bind (counts_runSets reliable space tasks space.parameters 0) ?_
      rintro _ _ _ rfl
      refine (aside_setSpaceStatus reliable _ _).bind fun _ => (Aside.emit rfl _).mono ?_
      rintro _ _ _ ⟨rfl, -⟩
      exact List.append_nil _
  rw [visit]
  refine (Aside.of_reads fun x => ⟨_, reads_query (·.space? space.spaceId)⟩).bind fun known => ?_
  dsimp only
  split
  · exact (aside_update reliable (fun now x => x.startSpace now space.spaceId)
      (fun _ _ => rfl) fun _ _ => rfl).bind fun _ => goesOn
  · exact goesOn

end Changes

end Conduct

end Sweep
