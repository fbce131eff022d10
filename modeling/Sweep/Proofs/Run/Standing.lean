import Sweep.Proofs.Run.Ledger
import Sweep.Run.Traversal

/-!
# What an activity leads to

A session stands at a ledger, at answers that are left and at deeds that are done. This is all that
the engine decides by and all that its runs are compared by: the store itself, the clock and the
rest of the history do not matter. An activity leads from one standing to others, whichever session
it is started in, and the rules here say where each primitive of the engine leads.

The store is only known through what a reliable host promises: a snapshot that is stored is the one
that is loaded, also after programs were started. A steady clock never goes back; on a calm host
nobody asks for termination. Both are looked at only where they matter.
-/

namespace Sweep

variable {S α β : Type}

/-- What runs are compared by: the marks of tasks and the programs started. -/
inductive Deed where
  | marked (key : TaskKey) (mark : TaskMark)
  | launched (command : Command)
deriving DecidableEq

def Moment.deed? : Moment S → Option Deed
  | .marked e => some (.marked e.key e.mark)
  | .launched command => some (.launched command)
  | _ => none

def Session.deeds (s : Session S) : List Deed := s.history.reverse.filterMap Moment.deed?

def Session.marks (s : Session S) : List (TaskKey × TaskMark) :=
  s.timeline.map fun e => (e.key, e.mark)

def Deed.mark? : Deed → Option (TaskKey × TaskMark)
  | .marked key mark => some (key, mark)
  | .launched _ => none

theorem Session.marks_eq (s : Session S) : s.marks = s.deeds.filterMap Deed.mark? := by
  rw [marks, timeline, deeds, List.map_filterMap, List.filterMap_filterMap]
  congr 1
  funext m
  cases m <;> rfl

namespace Host

variable (h : Host S)

/-- The host keeps the record of a run: in every store that it can come to, storing succeeds and is
undone by loading, and programs leave the record alone. -/
structure Reliable (runId : String) (kept : S → Prop) : Prop where
  stores : ∀ (snapshot : RunSnapshot) {s : S}, kept s → snapshot.run.runId = runId →
    ∃ s', h.backend.store snapshot s = (.ok (), s') ∧ kept s' ∧
      h.backend.load runId s' = .ok (some snapshot)
  launches : ∀ (command : Command) {s : S}, kept s →
    kept (h.launch command s).2 ∧
      h.backend.load runId (h.launch command s).2 = h.backend.load runId s

/-- The clock never goes back. -/
def Steady : Prop := ∀ i j, i ≤ j → (h.clock j).lt (h.clock i) = false

/-- Nobody asks for termination. -/
def Calm : Prop := ∀ history, h.terminates history = false

end Host

/-- How a session stands. -/
structure Standing where
  ledger : Ledger
  answers : Answers
  deeds : List Deed := []

namespace Standing

variable (v : Standing)

def after (deeds : List Deed) : Standing := { v with deeds := v.deeds ++ deeds }

@[simp] theorem after_ledger (deeds : List Deed) : (v.after deeds).ledger = v.ledger := rfl

@[simp] theorem after_answers (deeds : List Deed) : (v.after deeds).answers = v.answers := rfl

@[simp] theorem after_nil : v.after [] = v := by simp [after]

@[simp] theorem after_after (ds es : List Deed) : (v.after ds).after es = v.after (ds ++ es) := by
  simp [after]

def withLedger (ledger : Ledger) : Standing := { v with ledger }

@[simp] theorem withLedger_ledger (l : Ledger) : (v.withLedger l).ledger = l := rfl

@[simp] theorem withLedger_answers (l : Ledger) : (v.withLedger l).answers = v.answers := rfl

@[simp] theorem withLedger_deeds (l : Ledger) : (v.withLedger l).deeds = v.deeds := rfl

@[simp] theorem withLedger_withLedger (l m : Ledger) :
    (v.withLedger l).withLedger m = v.withLedger m := rfl

@[simp] theorem withLedger_self : v.withLedger v.ledger = v := rfl

@[simp] theorem after_withLedger (l : Ledger) (deeds : List Deed) :
    (v.withLedger l).after deeds = (v.after deeds).withLedger l := rfl

end Standing

namespace Conduct

variable (c : Conduct S) (kept : S → Prop)

structure Keeps (s : Session S) (snapshot : RunSnapshot) : Prop where
  kept : kept s.store
  loads : c.host.backend.load c.runId s.store = .ok (some snapshot)
  named : snapshot.run.runId = c.runId
  /-- What is recorded is not ahead of a steady clock. -/
  ahead : c.host.Steady → ∀ m ∈ snapshot.mappings, ∀ k, s.readings ≤ k →
    (c.host.clock k).lt m.recordedAt = false
  calm : c.host.Calm → s.terminating = false

/-- Whether a session stands so. -/
def StandsAt (s : Session S) (v : Standing) : Prop :=
  ∃ snapshot, c.Keeps kept s snapshot ∧ v = ⟨snapshot.ledger, s.answers, s.deeds⟩

/-- From every session that stands so, an activity leads to a result and a standing of a kind. -/
def Leads (a : Activity S α) (v : Standing) (Q : Except RunError α → Standing → Prop) : Prop :=
  ∀ s, c.StandsAt kept s v → ∃ v', c.StandsAt kept (a s).2 v' ∧ Q (a s).1 v'

/-- From every session that stands so, an activity leads to this result and standing. -/
def Yields (a : Activity S α) (v : Standing) (r : Except RunError α) (w : Standing) : Prop :=
  c.Leads kept a v fun r' w' => r' = r ∧ w' = w

variable {c kept}

/-! ## Rules of composition -/

theorem Leads.mono {a : Activity S α} {v : Standing} {Q R : Except RunError α → Standing → Prop}
    (h : c.Leads kept a v Q) (weaker : ∀ r w, Q r w → R r w) : c.Leads kept a v R := by
  intro s stands
  obtain ⟨w, stands', q⟩ := h s stands
  exact ⟨w, stands', weaker _ _ q⟩

theorem Leads.pure {v : Standing} {Q : Except RunError α → Standing → Prop} {x : α}
    (h : Q (.ok x) v) : c.Leads kept (pure x) v Q :=
  fun _ stands => ⟨v, stands, h⟩

theorem Leads.throw {v : Standing} {Q : Except RunError α → Standing → Prop} {e : RunError}
    (h : Q (.error e) v) : c.Leads kept (throw e) v Q :=
  fun _ stands => ⟨v, stands, h⟩

theorem bind_eval (a : Activity S α) (f : α → Activity S β) (s : Session S) :
    (a >>= f) s = match a s with
      | (.ok x, s') => f x s'
      | (.error e, s') => (.error e, s') := by
  show (ExceptT.bindCont f (a s).1) (a s).2 = _
  rcases a s with ⟨_ | _, s'⟩ <;> rfl

theorem Leads.bind {a : Activity S α} {f : α → Activity S β} {v : Standing}
    {R : Except RunError α → Standing → Prop} {Q : Except RunError β → Standing → Prop}
    (first : c.Leads kept a v R)
    (fails : ∀ e w, R (.error e) w → Q (.error e) w)
    (goesOn : ∀ x w, R (.ok x) w → c.Leads kept (f x) w Q) : c.Leads kept (a >>= f) v Q := by
  intro s stands
  obtain ⟨w, stands', r⟩ := first s stands
  rw [bind_eval]
  rcases h : a s with ⟨e | x, s'⟩ <;> rw [h] at stands' r
  · exact ⟨w, stands', fails e w r⟩
  · exact goesOn x w r s' stands'

theorem Leads.attempt {a : Activity S α} {v : Standing}
    {Q : Except RunError (Except RunError α) → Standing → Prop}
    (h : c.Leads kept a v fun r w => Q (.ok r) w) : c.Leads kept a.attempt v Q := by
  intro s stands
  exact h s stands

theorem Yields.bind {a : Activity S α} {f : α → Activity S β} {v w : Standing} {x : α}
    {Q : Except RunError β → Standing → Prop} (first : c.Yields kept a v (.ok x) w)
    (goesOn : c.Leads kept (f x) w Q) : c.Leads kept (a >>= f) v Q := by
  refine Leads.bind first ?_ ?_
  · rintro e w' ⟨h, -⟩
    cases h
  · rintro y w' ⟨h, rfl⟩
    cases h
    exact goesOn

theorem Yields.bind_error {a : Activity S α} {f : α → Activity S β} {v w : Standing}
    {e : RunError} {Q : Except RunError β → Standing → Prop}
    (first : c.Yields kept a v (.error e) w) (q : Q (.error e) w) :
    c.Leads kept (a >>= f) v Q := by
  refine Leads.bind first ?_ ?_
  · rintro _ w' ⟨h, rfl⟩
    cases h
    exact q
  · rintro y w' ⟨h, -⟩
    cases h

theorem Yields.pure {v : Standing} {x : α} : c.Yields kept (pure x) v (.ok x) v :=
  Leads.pure ⟨rfl, rfl⟩

theorem Yields.throw {v : Standing} {e : RunError} :
    c.Yields kept (throw e : Activity S α) v (.error e) v :=
  Leads.throw ⟨rfl, rfl⟩

/-! ## Primitives -/

theorem note_eval (m : Moment S) (s : Session S) :
    c.note m s = (.ok (), { s with
      history := m :: s.history
      terminating := s.terminating || c.host.terminates (m :: s.history) }) := rfl

theorem deeds_cons (s : Session S) (m : Moment S) (h : s.history = m :: t) :
    s.deeds = (t.reverse.filterMap Moment.deed?) ++ (Moment.deed? m).toList := by
  cases hm : m.deed? <;> simp [Session.deeds, h, hm]

/-- To note a moment adds the deed that it is. -/
theorem yields_note (m : Moment S) (v : Standing) :
    c.Yields kept (c.note m) v (.ok ()) (v.after m.deed?.toList) := by
  rintro s ⟨snapshot, keeps, rfl⟩
  rw [note_eval]
  refine ⟨_, ⟨snapshot, ⟨keeps.kept, keeps.loads, keeps.named, keeps.ahead, ?_⟩, rfl⟩, rfl, ?_⟩
  · intro calm
    simp [keeps.calm calm, calm (m :: s.history)]
  · simp only [Standing.after, Standing.mk.injEq, true_and]
    rw [deeds_cons _ m rfl]
    rfl

theorem yields_readClock (v : Standing) :
    c.Leads kept c.readClock v fun r w => (∃ now, r = .ok now) ∧ w = v := by
  rintro s ⟨snapshot, keeps, rfl⟩
  refine ⟨_, ⟨snapshot, ⟨keeps.kept, keeps.loads, keeps.named, ?_, keeps.calm⟩, rfl⟩, ⟨_, rfl⟩, rfl⟩
  intro steady m mem k later
  exact keeps.ahead steady m mem k (Nat.le_of_succ_le later)

theorem yields_emit (e : ProgressEvent) (v : Standing) :
    c.Yields kept (c.emit e) v (.ok ()) v := by
  rintro s stands
  obtain ⟨w, stands', h⟩ := yields_note (c := c) (.told e s.store) v s stands
  exact ⟨w, stands', h.1, h.2.trans v.after_nil⟩

theorem yields_mark (key : TaskKey) (mark : TaskMark) (v : Standing) :
    c.Yields kept (c.mark key mark) v (.ok ()) (v.after [.marked key mark]) := by
  refine Leads.bind (yields_readClock v) ?_ ?_
  · rintro e w ⟨⟨now, h⟩, -⟩
    cases h
  · rintro now w ⟨-, rfl⟩
    exact yields_note _ _

/-! ## Operations of the repository -/

theorem operation_bind_eval (a : RepositoryM S α) (f : α → RepositoryM S β) (now : Timestamp)
    (s : S) : (a >>= f) now s = match a now s with
      | (.ok x, s') => f x now s'
      | (.error e, s') => (.error e, s') := by
  show (ExceptT.bindCont (fun x => f x now) (a now s).1 : StateM S (Except RepositoryError β))
    (a now s).2 = _
  rcases a now s with ⟨_ | _, s'⟩ <;> rfl

theorem snapshot_eval {b : Backend S} {runId : String} {s : S} {snapshot : RunSnapshot}
    (loads : b.load runId s = .ok (some snapshot)) (now : Timestamp) :
    b.snapshot runId now s = (.ok snapshot, s) := by
  have load : b.loadSnapshot runId now s = (.ok (some snapshot), s) := by
    rw [← loads]
    rfl
  rw [Backend.snapshot, operation_bind_eval, load]
  rfl

theorem get_eval (s : Session S) : (get : Activity S (Session S)) s = (.ok s, s) := rfl

theorem query_eval (operation : RepositoryM S α) (s : Session S) :
    c.query operation s =
      ((operation (c.host.clock s.readings) s.store).1.mapError RunError.repository,
        { s with
          store := (operation (c.host.clock s.readings) s.store).2
          readings := s.readings + 1 }) := by
  have clock : c.readClock s =
      (.ok (c.host.clock s.readings), { s with readings := s.readings + 1 }) := rfl
  rw [Conduct.query, bind_eval, clock]
  simp only [bind_eval, get_eval]
  rcases operation (c.host.clock s.readings) s.store with ⟨_ | _, store⟩ <;> rfl

theorem modify_eval {b : Backend S} {runId : String} {s : S} {snapshot t : RunSnapshot}
    {change : Timestamp → RunSnapshot → Except RecordKey RunSnapshot} {now : Timestamp}
    (loads : b.load runId s = .ok (some snapshot)) (changed : change now snapshot = .ok t) :
    b.modify runId change now s = b.store (t.touch now) s := by
  have time : (read : RepositoryM S Timestamp) now s = (.ok now, s) := rfl
  rw [Backend.modify, operation_bind_eval, snapshot_eval loads]
  simp only [operation_bind_eval, time, changed]
  rfl

section Changes

variable (reliable : c.host.Reliable c.runId kept)

include reliable

/-- A change of the record that succeeds at the time of the clock changes the ledger. -/
theorem leads_record {operation : RepositoryM S Unit}
    (change : Timestamp → RunSnapshot → Except RecordKey RunSnapshot) {v : Standing}
    {Q : Except RunError Unit → Standing → Prop}
    (modifies : ∀ now s, operation now s = c.host.backend.modify c.runId change now s)
    (changes : ∀ now (snapshot : RunSnapshot), snapshot.ledger = v.ledger →
      (c.host.Steady → ∀ m ∈ snapshot.mappings, now.lt m.recordedAt = false) →
      ∃ t, change now snapshot = .ok t ∧ t.run.runId = snapshot.run.runId ∧
        (∀ m ∈ t.mappings, m ∈ snapshot.mappings ∨ m.recordedAt = now) ∧
        Q (.ok ()) (v.withLedger t.ledger)) :
    c.Leads kept (c.record operation) v Q := by
  rintro s ⟨snapshot, keeps, rfl⟩
  let now := c.host.clock s.readings
  obtain ⟨t, changed, named, times, q⟩ := changes now snapshot rfl
    fun steady m mem => keeps.ahead steady m mem _ (Nat.le_refl _)
  obtain ⟨store, stored, kept', loads⟩ := reliable.stores (t.touch now) keeps.kept
    (named.trans keeps.named)
  have written : operation now s.store = (.ok (), store) := by
    rw [modifies, modify_eval keeps.loads changed, stored]
  have queried : c.query operation s =
      (.ok (), { s with store, readings := s.readings + 1 }) := by
    rw [query_eval]
    show ((operation now s.store).1.mapError _, _) = _
    rw [written]
    rfl
  have keeps' : c.Keeps kept { s with store, readings := s.readings + 1 } (t.touch now) := by
    refine ⟨kept', loads, named.trans keeps.named, ?_, keeps.calm⟩
    intro steady m mem k later
    rcases times m mem with old | new
    · exact keeps.ahead steady m old k (Nat.le_of_succ_le later)
    · rw [new]
      exact steady _ _ (Nat.le_of_succ_le later)
  obtain ⟨w, stands, h⟩ := yields_note (.wrote store) _ _ ⟨_, keeps', rfl⟩
  rw [Conduct.record, bind_eval, queried]
  simp only [bind_eval, get_eval]
  refine ⟨w, stands, ?_⟩
  have silent : (Moment.wrote store).deed?.toList = [] := rfl
  rw [h.1, h.2, silent, Standing.after_nil]
  exact q

/-- A change that cannot fail and leaves the values alone. -/
theorem yields_update (change : Timestamp → RunSnapshot → RunSnapshot) {l : Ledger}
    {v : Standing} (named : ∀ now s, (change now s).run.runId = s.run.runId)
    (mappings : ∀ now s, (change now s).mappings = s.mappings)
    (ledger : ∀ now s, s.ledger = v.ledger → (change now s).ledger = l) :
    c.Yields kept (c.record (c.host.backend.update c.runId change)) v (.ok ()) (v.withLedger l) :=
  leads_record reliable (fun now s => .ok (change now s)) (fun _ _ => rfl)
    fun now snapshot same _ => ⟨_, rfl, named now snapshot,
      fun m mem => .inl (mappings now snapshot ▸ mem), rfl, by rw [ledger now snapshot same]⟩

theorem yields_setRunStatus (status : RunStatus) (error : Option String) (v : Standing) :
    c.Yields kept (c.record (c.host.backend.setRunStatus c.runId status error)) v (.ok ())
      (v.withLedger (v.ledger.setStatus status)) :=
  yields_update reliable (fun now s => s.setStatus now status error) (fun _ _ => rfl)
    (fun _ _ => rfl) fun _ s same => by rw [s.ledger_setStatus, same]

theorem yields_setRunPosition (space : Option String) (index : Option Nat)
    (task : Option String) (v : Standing) :
    c.Yields kept (c.record (c.host.backend.setRunPosition c.runId space index task)) v (.ok ())
      v :=
  yields_update reliable (fun _ s => s.setPosition space index task) (fun _ _ => rfl)
    (fun _ _ => rfl) fun _ s same => by rw [s.ledger_setPosition, same]

theorem yields_enter (space : String) (v : Standing) :
    c.Yields kept (c.record (c.host.backend.enter c.runId space)) v (.ok ())
      (v.withLedger (v.ledger.enter space)) :=
  yields_update reliable (fun now s => s.enter now space) (fun _ _ => rfl) (fun _ _ => rfl)
    fun _ s same => by rw [s.ledger_enter, same]

theorem yields_startSpace (space : String) (v : Standing) :
    c.Yields kept (c.record (c.host.backend.startSpace c.runId space)) v (.ok ())
      (v.withLedger (v.ledger.setSpace space .running)) :=
  yields_update reliable (fun now s => s.startSpace now space) (fun _ _ => rfl) (fun _ _ => rfl)
    fun _ s same => by rw [s.ledger_startSpace, same]

theorem yields_resetSpace (space : String) (v : Standing) :
    c.Yields kept (c.record (c.host.backend.resetSpace c.runId space)) v (.ok ())
      (v.withLedger (v.ledger.reset space)) :=
  yields_update reliable (fun _ s => s.resetSpace space) (fun _ _ => rfl) (fun _ _ => rfl)
    fun _ s same => by rw [s.ledger_resetSpace, same]

theorem yields_startSet (space : String) (index : Nat) (parameters : ParameterSet)
    (v : Standing) :
    c.Yields kept (c.record (c.host.backend.startSet c.runId space index parameters)) v (.ok ())
      (v.withLedger (v.ledger.setSet space index .running)) :=
  yields_update reliable (fun now s => s.startSet now space index parameters) (fun _ _ => rfl)
    (fun _ _ => rfl) fun _ s same => by rw [s.ledger_startSet, same]

theorem yields_startTask (space : String) (index : Nat) (task : String) (v : Standing) :
    c.Yields kept (c.record (c.host.backend.startTask c.runId space index task)) v (.ok ())
      (v.withLedger (v.ledger.setTask space index task .running)) :=
  yields_update reliable (fun now s => s.startTask now space index task) (fun _ _ => rfl)
    (fun _ _ => rfl) fun _ s same => by rw [s.ledger_startTask, same]

theorem yields_setSpaceStatus {space : String} {status : UnitStatus} {v : Standing}
    (known : (v.ledger.spaces space).isSome) :
    c.Yields kept (c.record (c.host.backend.setSpaceStatus c.runId space status)) v (.ok ())
      (v.withLedger (v.ledger.setSpace space status)) := by
  apply leads_record reliable _ (fun _ _ => rfl)
  intro now snapshot same _
  rw [← same] at known ⊢
  obtain ⟨t, changed, run, mappings, ledger⟩ := snapshot.ledger_setSpaceStatus now known
  exact ⟨t, changed, by rw [run], fun m mem => .inl (mappings ▸ mem), rfl, by rw [ledger]⟩

theorem yields_setSetStatus {space : String} {index : Nat} {status : UnitStatus} {v : Standing}
    (known : (v.ledger.sets (space, index)).isSome) :
    c.Yields kept (c.record (c.host.backend.setSetStatus c.runId space index status)) v (.ok ())
      (v.withLedger (v.ledger.setSet space index status)) := by
  apply leads_record reliable _ (fun _ _ => rfl)
  intro now snapshot same _
  rw [← same] at known ⊢
  obtain ⟨t, changed, run, mappings, ledger⟩ := snapshot.ledger_setSetStatus now known
  exact ⟨t, changed, by rw [run], fun m mem => .inl (mappings ▸ mem), rfl, by rw [ledger]⟩

theorem yields_setTaskStatus {space : String} {index : Nat} {task : String}
    {status : UnitStatus} {error : Option String} {v : Standing}
    (known : (v.ledger.tasks (space, index, task)).isSome) :
    c.Yields kept (c.record (c.host.backend.setTaskStatus c.runId space index task status error))
      v (.ok ()) (v.withLedger (v.ledger.setTask space index task status)) := by
  apply leads_record reliable _ (fun _ _ => rfl)
  intro now snapshot same _
  rw [← same] at known ⊢
  obtain ⟨t, changed, run, mappings, ledger⟩ := snapshot.ledger_setTaskStatus now known
  exact ⟨t, changed, by rw [run], fun m mem => .inl (mappings ▸ mem), rfl, by rw [ledger]⟩

/-- A value that is put is the latest of its name, at least if the clock is steady. -/
theorem leads_putMapping (space : String) (index : Nat) (name value : String)
    (task : Option String) (v : Standing) :
    c.Leads kept (c.record fun now => c.host.backend.putMapping c.runId {
        spaceId := space, index, name, value, taskId := task, recordedAt := now } now) v
      fun r w => r = .ok () ∧ ∃ last, (c.host.Steady → last = value) ∧
        w = v.withLedger (v.ledger.put space index name value last) := by
  let mapping (now : Timestamp) : DataMapping :=
    { spaceId := space, index, name, value, taskId := task, recordedAt := now }
  refine leads_record reliable (fun now s => .ok (s.putMapping (mapping now)))
    (fun _ _ => rfl) fun now snapshot same ahead => ?_
  obtain ⟨last, ledger, newest⟩ := snapshot.ledger_putMapping (mapping now)
  refine ⟨_, rfl, rfl, ?_, rfl, last, fun steady => newest (ahead steady), ?_⟩
  · intro m mem
    rcases List.mem_append.1 mem with old | new
    · exact .inl (List.mem_filter.1 old).1
    · exact .inr (congrArg _ (List.mem_singleton.1 new))
  · rw [← same, ledger]

/-! ## Programs and termination -/

/-- A program is started in some store that the host can come to. -/
theorem leads_launch (command : Command) (v : Standing) :
    c.Leads kept (c.launch command) v fun r w =>
      (∃ s, kept s ∧ r = .ok (c.host.launch command s).1) ∧ w = v.after [.launched command] := by
  rintro s ⟨snapshot, keeps, rfl⟩
  obtain ⟨kept', loads⟩ := reliable.launches command keeps.kept
  have keeps' : c.Keeps kept { s with store := (c.host.launch command s.store).2 } snapshot :=
    ⟨kept', loads.trans keeps.loads, keeps.named, keeps.ahead, keeps.calm⟩
  obtain ⟨w, stands, h⟩ := yields_note (.launched command) _ _ ⟨_, keeps', rfl⟩
  refine ⟨w, ?_, ⟨s.store, keeps.kept, ?_⟩, ?_⟩
  · exact stands
  · rfl
  · exact h.2

/-- Termination is only noticed where someone asks for it. -/
theorem leads_checkTermination (v : Standing) :
    c.Leads kept c.checkTermination v fun r w => (r = .ok () ∧ w = v) ∨
      (¬c.host.Calm ∧ r = .error (.terminated c.runId) ∧
        w = v.withLedger (v.ledger.setStatus .terminated)) := by
  intro s stands
  obtain ⟨snapshot, keeps, same⟩ := id stands
  have unfolded : c.checkTermination s =
      (if s.terminating then do
        c.record (c.host.backend.setRunStatus c.runId .terminated none)
        throw (.terminated c.runId)
      else pure () : Activity S Unit) s := rfl
  rw [unfolded]
  cases h : s.terminating
  · exact ⟨v, stands, .inl ⟨rfl, rfl⟩⟩
  · have restless : ¬c.host.Calm := fun calm => by simp [keeps.calm calm] at h
    have stops : c.Yields kept (do
        c.record (c.host.backend.setRunStatus c.runId .terminated none)
        throw (.terminated c.runId) : Activity S Unit) v (.error (.terminated c.runId))
        (v.withLedger (v.ledger.setStatus .terminated)) :=
      (yields_setRunStatus reliable .terminated none v).bind Yields.throw
    obtain ⟨w, stands', r, same⟩ := stops s stands
    exact ⟨w, stands', .inr ⟨restless, r, same⟩⟩

end Changes

end Conduct

end Sweep
