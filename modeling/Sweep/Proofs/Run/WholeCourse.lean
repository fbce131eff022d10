import Sweep.Proofs.Run.Choice
import Sweep.Proofs.Run.Course
import Sweep.Repository.Memory

/-!
# The course of a run

From visit to visit the course of a run is a chain: the space is entered, visited and left for the
one that the answers choose. A run that is carried out ends as its chain does, and its results are
read off the ledger that the chain leaves.
-/

namespace Sweep.Conduct

variable {S : Type} (c : Conduct S) (kept : S → Prop)

/-! ## From visit to visit -/

inductive TraverseCourse : Nat → String → Bool → Ledger → Answers →
    List Deed → Except RunError Bool → Ledger → Answers → Prop
  | finished (visits : Nat) (goesOn : Bool) (l : Ledger) (answers : Answers) :
      TraverseCourse visits endMark goesOn l answers [] (.ok true) (l.enter endMark) answers
  | exhausted {current : String} (goesOn : Bool) (l : Ledger) (answers : Answers) :
      current ≠ endMark →
      TraverseCourse 0 current goesOn l answers [] (.ok false) l answers
  | unknownSpace {current : String} (visits : Nat) (goesOn : Bool) (l : Ledger)
      (answers : Answers) : current ≠ endMark → c.artifact.space? current = none →
      TraverseCourse (visits + 1) current goesOn l answers [] (.error (.unknownSpace current)) l
        answers
  | broken {current : String} {space : SpaceDefinition} (visits : Nat) {goesOn : Bool}
      {l l' : Ledger} (answers : Answers) {deeds : List Deed} {e : RunError} :
      current ≠ endMark → c.artifact.space? current = some space →
      c.EntryCourse kept space goesOn (l.enter current) deeds (.error e) l' →
      TraverseCourse (visits + 1) current goesOn l answers deeds (.error e) l' answers
  | stuck {current : String} {space : SpaceDefinition} (visits : Nat) {goesOn : Bool}
      {l l' : Ledger} {answers left : Answers} {deeds : List Deed} {e : RunError} :
      current ≠ endMark → c.artifact.space? current = some space →
      c.EntryCourse kept space goesOn (l.enter current) deeds (.ok ()) l' →
      c.nextOn current answers = (.error e, left) →
      TraverseCourse (visits + 1) current goesOn l answers deeds (.error e) l' left
  | step {current next : String} {space : SpaceDefinition} {visits : Nat} {goesOn : Bool}
      {l l' l'' : Ledger} {answers left left' : Answers} {deeds deeds' : List Deed}
      {r : Except RunError Bool} :
      current ≠ endMark → c.artifact.space? current = some space →
      c.EntryCourse kept space goesOn (l.enter current) deeds (.ok ()) l' →
      c.nextOn current answers = (.ok next, left) →
      TraverseCourse visits next false l' left deeds' r l'' left' →
      TraverseCourse (visits + 1) current goesOn l answers (deeds ++ deeds') r l'' left'

/-- How a run concludes when its traversal has ended so: its result and its ledger. -/
inductive Concludes (resumed : Bool) (l : Ledger) :
    Except RunError Bool → Except RunError (Option RunSummary) → Ledger → Prop
  | completed {results : Results} (tasks : UnitCounts) :
      c.resultsOn (l.setStatus .completed) = .ok results →
      Concludes resumed l (.ok true)
        (.ok (some ⟨c.runId, .completed, results, tasks, resumed, true⟩))
        (l.setStatus .completed)
  | noResults {e : RunError} : c.resultsOn (l.setStatus .completed) = .error e →
      Concludes resumed l (.ok true) (.error e) (l.setStatus .completed)
  | exhausted : Concludes resumed l (.ok false) (.ok none) l
  | terminated {e : RunError} : e.isTermination = true →
      Concludes resumed l (.error e) (.error e) l
  | failed {e : RunError} : e.isTermination = false →
      Concludes resumed l (.error e) (.error e) (l.setStatus .failed)

def DriveCourse (visits : Nat) (resumed : Bool) (v : Standing)
    (r : Except RunError (Option RunSummary)) (w : Standing) : Prop :=
  ∃ deeds r' l, c.TraverseCourse kept visits (c.firstOn resumed v.ledger) resumed
      (v.ledger.setStatus .running) v.answers deeds r' l w.answers ∧
    w.deeds = v.deeds ++ deeds ∧ c.Concludes resumed l r' r w.ledger

variable {c kept}

/-- A run keeps the artifact that it belongs to. -/
theorem TraverseCourse.hash_eq {visits : Nat} {current : String} {goesOn : Bool} {l l' : Ledger}
    {answers left : Answers} {deeds : List Deed} {r : Except RunError Bool}
    (h : c.TraverseCourse kept visits current goesOn l answers deeds r l' left) :
    l'.hash = l.hash := by
  induction h with
  | finished => rfl
  | exhausted => rfl
  | unknownSpace => rfl
  | broken _ _ _ _ entry => exact entry.hash_eq
  | stuck _ _ _ entry => exact entry.hash_eq
  | step _ _ entry _ _ ih => exact ih.trans entry.hash_eq

theorem Concludes.hash_eq {resumed : Bool} {l l' : Ledger} {r : Except RunError Bool}
    {r' : Except RunError (Option RunSummary)} (h : c.Concludes resumed l r r' l') :
    l'.hash = l.hash := by
  cases h <;> rfl

theorem DriveCourse.hash_eq {visits : Nat} {resumed : Bool} {v w : Standing}
    {r : Except RunError (Option RunSummary)} (h : c.DriveCourse kept visits resumed v r w) :
    w.ledger.hash = v.ledger.hash := by
  obtain ⟨deeds, r', l, course, -, concludes⟩ := h
  exact concludes.hash_eq.trans course.hash_eq

/-- A summary tells the results of the ledger and how the run stands. -/
theorem leads_summary (resumed executed : Bool) (v : Standing) :
    c.Leads kept (c.summary resumed executed) v fun r w => w = v ∧
      ((∃ results tasks, c.resultsOn v.ledger = .ok results ∧
        r = .ok ⟨c.runId, v.ledger.status, results, tasks, resumed, executed⟩) ∨
      ∃ e, c.resultsOn v.ledger = .error e ∧ r = .error e) := by
  refine leads_of_reads fun x same => ⟨_, reads_summary resumed executed, rfl, ?_⟩
  rw [← same]
  cases c.resultsOn x.ledger with
  | error e => exact .inr ⟨e, rfl, rfl⟩
  | ok results => exact .inl ⟨results, _, rfl, rfl⟩

section Following

variable (reliable : c.host.Reliable c.runId kept)

include reliable

theorem traverse_follows (visits : Nat) (current : String) (goesOn : Bool) (v : Standing) :
    c.Leads kept (c.traverse visits current goesOn) v fun r w =>
      ∃ deeds l answers, c.TraverseCourse kept visits current goesOn v.ledger v.answers deeds r l
        answers ∧ w = ⟨l, answers, v.deeds ++ deeds⟩ := by
  induction visits generalizing current goesOn v with
  | zero =>
    rw [traverse]
    split
    · next h =>
      subst h
      exact (yields_enter reliable endMark v).bind
        (Leads.pure ⟨[], _, _, .finished 0 goesOn v.ledger v.answers, by
          simp [Standing.withLedger]⟩)
    · next h => exact Leads.pure ⟨[], _, _, .exhausted goesOn v.ledger v.answers h, by simp⟩
  | succ visits ih =>
    rw [traverse]
    split
    · next h =>
      subst h
      exact (yields_enter reliable endMark v).bind
        (Leads.pure ⟨[], _, _, .finished _ goesOn v.ledger v.answers, by
          simp [Standing.withLedger]⟩)
    next h =>
    cases hs : c.artifact.space? current with
    | none =>
      exact Leads.throw ⟨[], _, _, .unknownSpace visits goesOn v.ledger v.answers h hs, by simp⟩
    | some space =>
      refine (yields_enter reliable current v).bind ?_
      refine Leads.bind (visitOnce_follows reliable space goesOn _) ?_ ?_
      · rintro e w ⟨deeds, l, entry, rfl⟩
        exact ⟨deeds, l, _, .broken visits v.answers h hs entry, rfl⟩
      rintro ⟨⟩ w ⟨deeds, l, entry, rfl⟩
      have chosen : c.Yields kept (c.next current) ((v.withLedger l).after deeds)
          (c.nextOn current v.answers).1
          { (v.withLedger l).after deeds with answers := (c.nextOn current v.answers).2 } :=
        yields_next current _
      rcases hn : c.nextOn current v.answers with ⟨e | next, left⟩ <;> rw [hn] at chosen
      · exact Yields.bind_error chosen ⟨deeds, l, left, .stuck visits h hs entry hn, rfl⟩
      · refine Yields.bind chosen ((ih next false _).mono ?_)
        rintro r w ⟨deeds', l', left', others, rfl⟩
        exact ⟨deeds ++ deeds', l', left', .step h hs entry hn others, by
          simp [Standing.after, Standing.withLedger]⟩

theorem drive_follows (visits : Nat) (resumed : Bool) (v : Standing) :
    c.Leads kept (c.drive visits resumed) v (c.DriveCourse kept visits resumed v) := by
  refine (yields_setRunStatus reliable .running none v).bind ?_
  refine Leads.bind (Leads.attempt (Q := fun r w => ∃ r', r = .ok r' ∧ ∃ deeds l,
      c.TraverseCourse kept visits (c.firstOn resumed v.ledger) resumed
        (v.ledger.setStatus .running) v.answers deeds r' l w.answers ∧
      w.ledger = l ∧ w.deeds = v.deeds ++ deeds)
    ((yields_firstSpace resumed _).bind ((traverse_follows reliable visits _ resumed _).mono
      ?_))) ?_ ?_
  · rintro r w ⟨deeds, l, answers, course, rfl⟩
    exact ⟨r, rfl, deeds, l, course, rfl, rfl⟩
  · rintro e w ⟨r', h, -⟩
    cases h
  rintro r w ⟨r', h, deeds, l, course, rfl, grown⟩
  cases h
  cases r with
  | error e =>
    cases he : e.isTermination
    · simp only [he, Bool.not_false, if_true]
      refine (yields_setRunStatus reliable .failed (some e.message) w).bind ?_
      refine (yields_emit _ _).bind (Leads.throw ?_)
      exact ⟨deeds, _, _, course, grown, .failed he⟩
    · simp only [he, Bool.not_true, Bool.false_eq_true, if_false]
      exact Leads.throw ⟨deeds, _, _, course, grown, .terminated he⟩
  | ok reached =>
    cases reached
    · exact Leads.pure ⟨deeds, _, _, course, grown, .exhausted⟩
    · refine (yields_setRunStatus reliable .completed none w).bind ?_
      refine (yields_setRunPosition reliable none none none _).bind ?_
      refine Leads.bind (leads_summary resumed true _) ?_ ?_
      · rintro e w' ⟨rfl, ⟨_, _, _, h⟩ | ⟨e', none, h⟩⟩
        · cases h
        · cases h
          exact ⟨deeds, _, _, course, grown, .noResults none⟩
      · rintro s w' ⟨rfl, ⟨results, tasks, some, h⟩ | ⟨e', none, h⟩⟩
        · cases h
          exact Leads.pure ⟨deeds, _, _, course, grown, .completed tasks some⟩
        · cases h

end Following

/-! ## A run from its beginning -/

/-- There is no record of the run in a store, and one can be made. -/
structure Fresh (c : Conduct S) (kept : S → Prop) (s : Session S) : Prop where
  kept : kept s.store
  unknown : c.host.backend.load c.runId s.store = .ok none
  calm : c.host.Calm → s.terminating = false

/-- How a session stands after a run is registered in it. -/
def registered (c : Conduct S) (s : Session S) : Standing :=
  ⟨.blank c.artifact.contentHash, s.answers, s.deeds⟩

/-- Where there is no record of the run, none is found. -/
theorem unknown_eval {s : Session S} (unknown : c.host.backend.load c.runId s.store = .ok none) :
    c.query (c.host.backend.run? c.runId) s =
      (.ok none, { s with readings := s.readings + 1 }) := by
  have load (now : Timestamp) :
      c.host.backend.loadSnapshot c.runId now s.store = (.ok none, s.store) := by
    rw [← unknown]
    rfl
  have eval (now : Timestamp) :
      c.host.backend.run? c.runId now s.store = (.ok none, s.store) := by
    rw [Backend.run?, operation_bind_eval, load]
    rfl
  rw [query_eval, eval]
  rfl

/-- A record of the run is made, with nothing in it. -/
theorem register_eval (reliable : c.host.Reliable c.runId kept) {s : Session S}
    (here : kept s.store) (unknown : c.host.backend.load c.runId s.store = .ok none) :
    ∃ store x, c.register s = c.note (.wrote store) { s with store, readings := s.readings + 1 } ∧
      kept store ∧ c.host.backend.load c.runId store = .ok (some x) ∧ x.run.runId = c.runId ∧
      x.mappings = [] ∧ x.ledger = .blank c.artifact.contentHash := by
  let record := { RunRecord.new c.runId c.artifact.experiment c.artifact.version
    c.artifact.contentHash (c.host.clock s.readings) with artifactPath := c.options.artifactPath }
  obtain ⟨store, stored, kept', loads⟩ := reliable.stores (.ofRun record) here rfl
  have load : c.host.backend.loadSnapshot c.runId (c.host.clock s.readings) s.store =
      (.ok none, s.store) := by
    rw [← unknown]
    rfl
  have created : c.host.backend.createRun record (c.host.clock s.readings) s.store =
      (.ok (), store) := by
    have named : record.runId = c.runId := rfl
    rw [Backend.createRun, operation_bind_eval, named, load]
    simp only [Option.isSome_none, Bool.false_eq_true, if_false]
    exact stored
  have queried : c.query (fun now => c.host.backend.createRun { RunRecord.new c.runId
      c.artifact.experiment c.artifact.version c.artifact.contentHash now with
        artifactPath := c.options.artifactPath } now) s =
      (.ok (), { s with store, readings := s.readings + 1 }) := by
    rw [query_eval]
    show ((c.host.backend.createRun record (c.host.clock s.readings) s.store).1.mapError _,
      { s with
        store := (c.host.backend.createRun record (c.host.clock s.readings) s.store).2
        readings := s.readings + 1 }) = _
    rw [created]
    rfl
  refine ⟨store, .ofRun record, ?_, kept', loads, rfl, rfl, rfl⟩
  rw [register, Conduct.record, bind_eval, queried]
  rfl

/-- A run of which there is no record is registered and carried out. -/
theorem run_eq_drive_registered {s s' : Session S} (visits : Nat)
    (unknown : c.host.backend.load c.runId s.store = .ok none)
    (registers : c.register { s with readings := s.readings + 1 } = (.ok (), s')) :
    c.run visits s = c.drive visits false s' := by
  rw [Conduct.run, bind_eval, unknown_eval unknown]
  simp only [bind_eval, registers]

/-- A run of which there is no record follows the course of a run that begins. -/
theorem run_follows (reliable : c.host.Reliable c.runId kept) (visits : Nat) {s : Session S}
    (fresh : c.Fresh kept s) :
    ∃ w, c.StandsAt kept (c.run visits s).2 w ∧
      c.DriveCourse kept visits false (c.registered s) (c.run visits s).1 w := by
  let s₁ : Session S := { s with readings := s.readings + 1 }
  obtain ⟨store, x, registers, kept', loads, named, noMappings, ledger⟩ :=
    register_eval (s := s₁) reliable fresh.kept fresh.unknown
  rw [run_eq_drive_registered visits fresh.unknown registers]
  refine drive_follows reliable visits false _ _ ⟨x, ⟨kept', loads, named, ?_, fun calm => ?_⟩, ?_⟩
  · intro _ m mem
    simp [noMappings] at mem
  · simp [s₁, fresh.calm calm, calm (.wrote store :: s.history)]
  · have deeds : (c.note (.wrote store) { s₁ with store, readings := s₁.readings + 1 }).2.deeds =
        s.deeds := by
      rw [note_eval, deeds_cons _ _ rfl]
      exact List.append_nil _
    rw [registered, ledger]
    exact congrArg (Standing.mk _ s.answers) deeds.symm

/-! ## A run that is gone on with -/

/-- A run that is recorded for the artifact and not completed is carried out as one that was carried
out before. -/
theorem run_eq_drive (visits : Nat) {s : Session S} {snapshot : RunSnapshot}
    (loads : c.host.backend.load c.runId s.store = .ok (some snapshot))
    (own : snapshot.run.artifactHash = c.artifact.contentHash)
    (notDone : snapshot.run.status ≠ .completed) :
    c.run visits s = c.drive visits true { s with readings := s.readings + 1 } := by
  have eval (now : Timestamp) :
      c.host.backend.run? c.runId now s.store = (.ok (some snapshot.run), s.store) := by
    have load : c.host.backend.loadSnapshot c.runId now s.store =
        (.ok (some snapshot), s.store) := by
      rw [← loads]
      rfl
    rw [Backend.run?, operation_bind_eval, load]
    rfl
  have asked : c.query (c.host.backend.run? c.runId) s =
      (.ok (some snapshot.run), { s with readings := s.readings + 1 }) := by
    rw [query_eval, eval]
    rfl
  rw [Conduct.run, bind_eval, asked]
  simp only [continueRun, if_neg (not_not_intro own), if_neg notDone]

theorem run_continues (reliable : c.host.Reliable c.runId kept) (visits : Nat) {v : Standing}
    (own : v.ledger.hash = c.artifact.contentHash) (notDone : v.ledger.status ≠ .completed) :
    c.Leads kept (c.run visits) v (c.DriveCourse kept visits true v) := by
  rintro s ⟨snapshot, keeps, rfl⟩
  rw [run_eq_drive visits keeps.loads own notDone]
  refine drive_follows reliable visits true _ _ ⟨snapshot, ⟨keeps.kept, keeps.loads, keeps.named,
    ?_, keeps.calm⟩, rfl⟩
  intro steady m mem k later
  exact keeps.ahead steady m mem k (Nat.le_of_succ_le later)

end Sweep.Conduct

/-! ## Failures of tasks

An error that carrying a task out ends with names the task. The errors of the choice of the next
space and of looking results up name none.
-/

namespace Sweep

variable {S : Type}

def RunError.task? : RunError → Option TaskKey
  | .taskFailed space index task _ | .missingParameter space index task _
  | .missingInput space index task _ => some ⟨space, index, task⟩
  | _ => none

def failedTask {α : Type} : Except RunError α → Option TaskKey
  | .ok _ => none
  | .error e => e.task?

namespace Conduct

variable {c : Conduct S} {kept : S → Prop}

/-- Why an input of a task has no value. -/
theorem input_eq_error {l : Ledger} {space : SpaceDefinition} {index : Nat} {t : TaskDefinition}
    {name : String} {e : RunError} (h : l.input space index t name = .error e) :
    e = .missingInput space.spaceId index t.taskId name ∧ space.inputData.get? name = none ∧
      l.latest name = none := by
  rw [Ledger.input] at h
  split at h
  · cases h
  split at h
  · cases h
  next initial =>
  split at h
  · cases h
  next latest =>
  cases h
  exact ⟨rfl, initial, latest⟩

/-- Why a task has no command: a parameter that its set does not give, an input without a value, or
an implementation that cannot be called. -/
theorem commandOf_eq_error {l : Ledger} {space : SpaceDefinition} {index : Nat}
    {set : ParameterSet} {t : TaskDefinition} {e : RunError}
    (h : c.commandOf l space index set t = .error e) :
    (∃ name, e = .missingParameter space.spaceId index t.taskId name) ∨
      (∃ name ∈ t.inputData, l.input space index t name = .error e) ∨
      ∃ cause, e = .taskFailed space.spaceId index t.taskId cause := by
  rw [commandOf] at h
  cases hp : parametersOf space index set t with
  | error e' =>
    rw [hp] at h
    cases h
    obtain ⟨name, -, parameters, missing⟩ := exists_of_foldlM_error hp
    split at missing
    · cases missing
    · cases missing
      exact .inl ⟨name, rfl⟩
  | ok parameters =>
    rw [hp] at h
    change (t.inputData.mapM (l.input space index t) >>= _) = _ at h
    cases hi : t.inputData.mapM (l.input space index t) with
    | error e' =>
      rw [hi] at h
      cases h
      exact .inr (.inl (exists_of_mapM_error hi))
    | ok inputs =>
      rw [hi] at h
      change (Command.ofTask t parameters inputs c.options.directory).mapError _ = _ at h
      cases hc : Command.ofTask t parameters inputs c.options.directory with
      | error cause =>
        rw [hc] at h
        cases h
        exact .inr (.inr ⟨cause, rfl⟩)
      | ok command =>
        rw [hc] at h
        cases h

/-- A task without a command has failed. -/
theorem task?_of_commandOf {l : Ledger} {space : SpaceDefinition} {index : Nat}
    {set : ParameterSet} {t : TaskDefinition} {e : RunError}
    (h : c.commandOf l space index set t = .error e) :
    e.task? = some ⟨space.spaceId, index, t.taskId⟩ := by
  rcases commandOf_eq_error h with ⟨name, rfl⟩ | ⟨name, -, missing⟩ | ⟨cause, rfl⟩
  · rfl
  · rw [(input_eq_error missing).1]
    rfl
  · rfl

/-- A task that produces nothing has failed. -/
theorem Produces.task?_eq {space : SpaceDefinition} {index : Nat} {set : ParameterSet}
    {l : Ledger} {t : TaskDefinition} {deeds : List Deed} {e : RunError}
    (h : c.Produces kept space index set l t deeds (.error e)) :
    e.task? = some ⟨space.spaceId, index, t.taskId⟩ := by
  generalize hr : (.error e : Except RunError (List String)) = r at h
  cases h with
  | noCommand none =>
    cases hr
    exact task?_of_commandOf none
  | carriesOut command carried =>
    rename_i r
    cases r <;> cases hr
    rfl

/-- An error in the choice of the next space is neither a failure of a task nor a termination. -/
theorem error_of_nextOn {current : String} {answers left : Answers} {e : RunError}
    (h : c.nextOn current answers = (.error e, left)) :
    e.task? = none ∧ e.isTermination = false := by
  cases noChoice_of_nextOn h <;> exact ⟨rfl, rfl⟩

/-- An error that comes from looking the results up is no failure of a task. -/
theorem task?_of_resultsOn {l : Ledger} {e : RunError} (h : c.resultsOn l = .error e) :
    e.task? = none := by
  obtain ⟨space, -, results, failed⟩ := exists_of_foldlM_error h
  cases values : c.spaceOn l space with
  | ok values =>
    rw [values] at failed
    cases failed
  | error e' =>
    rw [values] at failed
    cases failed
    rw [spaceOn] at values
    split at values
    · cases values
    split at values
    · cases values
      rfl
    · cases values

end Conduct

/-! ## A host in memory

The plainest host keeps the runs in a table, and what its programs do is a function of their
command. It is reliable in every store, and its clock counts its own readings.
-/

namespace Host

variable (programs : Command → Except LaunchFault Completion)
  (terminates : List (Moment (Table RunSnapshot)) → Bool)

def inMemory : Host (Table RunSnapshot) where
  backend := .memory
  launch command runs := (programs command, runs)
  clock readings := .ofSeconds readings
  terminates

theorem inMemory_reliable (runId : String) :
    (inMemory programs terminates).Reliable runId fun _ => True where
  stores snapshot {runs} _ named := by
    refine ⟨runs.insert runId snapshot, by rw [← named]; rfl, trivial, ?_⟩
    show Except.ok ((runs.insert runId snapshot).get? runId) = _
    rw [Table.get?_insert, if_pos rfl]
  launches _ _ _ := ⟨trivial, rfl⟩

theorem inMemory_steady : (inMemory programs terminates).Steady := by
  intro i j later
  have notBefore : ¬(j : Int) < i := by omega
  simp [inMemory, Timestamp.lt, Timestamp.ofSeconds, notBefore]

theorem inMemory_calm : (inMemory programs fun _ => false).Calm := fun _ => rfl

end Host

namespace Conduct

/-- In an empty table there is no record of any run. -/
theorem inMemory_fresh {c : Conduct (Table RunSnapshot)}
    (backend : c.host.backend = .memory) (answers : Answers) :
    c.Fresh (fun _ => True) { store := ∅, answers } where
  kept := trivial
  unknown := by
    rw [backend]
    rfl
  calm _ := rfl

def onEmptyTable : Session (Table RunSnapshot) := { store := ∅, answers := .scripted [] }

def errorOf? : Except RunError (Option RunSummary) → Option RunError
  | .error e => some e
  | .ok _ => none

theorem errorOf?_eq_some {r : Except RunError (Option RunSummary)} {e : RunError} :
    errorOf? r = some e ↔ r = .error e := by
  cases r <;> simp [errorOf?]

end Conduct

end Sweep
