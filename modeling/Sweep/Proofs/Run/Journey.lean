import Sweep.Proofs.Run.Touring

/-!
# Calls, one after the other

A journey is all that is noted of one run over any number of calls, each of which may end in any way
or be cut off at any moment, as when the process dies; the next call finds the record that the
moment before left. The calls may differ in the host, in the options, in the answers and in whether
they start or resume the run, but not in the repository and the artifact.

What holds of journeys is proved in two parts: what each stride within a call preserves, and what is
left of it between calls.
-/

namespace Sweep

variable {S : Type}

/-- How a run may be called. -/
inductive Request where
  | run
  | resume
deriving DecidableEq

namespace Conduct

variable (c : Conduct S)

/-- Starts or resumes the run. -/
def call (request : Request) (visits : Nat) : Activity S (Option RunSummary) :=
  match request with
  | .run => c.run visits
  | .resume => c.resume visits

/-- What carrying the run out adds to the log. -/
def driveLog (visits : Nat) (resumed : Bool) (s : Session S) : List (LogItem S) :=
  let done := (c.drive visits resumed s).2
  match c.firstSpace resumed (c.record (c.host.backend.setRunStatus c.runId .running none) s).2 with
  | (.error _, _) => (s.since done).map .moment
  | (.ok current, s₁) =>
    (s.since s₁).map .moment ++ c.tour visits current resumed s₁ ++
      ((c.traverse visits current resumed s₁).2.since done).map .moment

def callLog (request : Request) (visits : Nat) (s : Session S) : List (LogItem S) :=
  match c.query (c.host.backend.run? c.runId) s with
  | (.error _, _) => []
  | (.ok (some run), s₁) =>
    if run.artifactHash = c.artifact.contentHash ∧ run.status ≠ .completed then
      c.driveLog visits true s₁
    else []
  | (.ok none, s₁) =>
    match request with
    | .run =>
      let registered := (c.register s₁).2
      (s₁.since registered).map .moment ++ c.driveLog visits false registered
    | .resume => []

variable (kept : S → Prop)

/-- What a call finds recorded of the run, if anything. -/
structure Finds (s : Session S) (x : Option RunSnapshot) : Prop where
  kept : kept s.store
  loads : c.host.backend.load c.runId s.store = .ok x
  named : ∀ y, x = some y → y.run.runId = c.runId

variable {c kept}

theorem Sees.finds {s : Session S} {v : Sight} (sees : c.Sees kept s v) :
    c.Finds kept s (some v.record) where
  kept := sees.kept
  loads := sees.loads
  named := by
    rintro _ ⟨⟩
    exact sees.named

end Conduct

def Subject.recordAfter (u : Subject S) (x : Option RunSnapshot) (log : List (LogItem S)) :
    Option RunSnapshot :=
  (momentsIn log).foldl (fun x m => match m with
    | .wrote store => u.recordIn store
    | _ => x) x

/-- The logs of a run, and the record that each leaves. -/
inductive Journey (u : Subject S) (kept : S → Prop) :
    List (LogItem S) → Option RunSnapshot → Prop
  | start : Journey u kept [] none
  /-- A call, cut off after a number of items, or not at all if there are no more of them. -/
  | call {log : List (LogItem S)} {x : Option RunSnapshot} (c : Conduct S) (request : Request)
      (visits : Nat) (s : Session S) (count : Nat) : Journey u kept log x → c.subject = u →
      c.host.Reliable c.runId kept → c.Finds kept s x →
      Journey u kept (log ++ .called x :: (c.callLog request visits s).take count)
        (u.recordAfter x ((c.callLog request visits s).take count))

namespace Conduct

variable {c : Conduct S} {kept : S → Prop}

/-! ## A run that is carried out -/

/-- In a valid artifact the results can be looked up. -/
theorem exists_resultsOn (valid : c.artifact.validate = .ok ()) (l : Ledger) :
    ∃ results, c.resultsOn l = .ok results := by
  cases h : c.resultsOn l with
  | ok results => exact ⟨results, rfl⟩
  | error e =>
    obtain ⟨space, mem, results, failed⟩ := exists_of_foldlM_error h
    have found : ∃ values, c.spaceOn l space = .ok values := by
      rw [spaceOn]
      cases last : space.lastTask? with
      | none => exact ⟨_, rfl⟩
      | some task =>
        have among : task ∈ space.tasksOrder := List.mem_of_getLast? last
        obtain ⟨t, known⟩ := Option.isSome_iff_exists.1
          ((Artifact.validate_eq_ok.1 valid).1 space mem task among)
        simp only [known]
        exact ⟨_, rfl⟩
    obtain ⟨values, found⟩ := found
    rw [found] at failed
    cases failed

end Conduct

theorem CarriedOut.congr {α β : Type} {plan : List TaskKey} {marks : List (TaskKey × TaskMark)}
    {r : Except RunError α} {r' : Except RunError β} (h : CarriedOut plan marks r)
    (same : ∀ e, r' = .error e ↔ r = .error e) : CarriedOut plan marks r' := by
  have failed : failedTask r' = failedTask r := by
    cases r with
    | error e => rw [(same e).2 rfl]; rfl
    | ok x =>
      cases r' with
      | error e => cases (same e).1 rfl
      | ok y => rfl
  refine ⟨fun runId stopped => h.stopped runId ((same _).1 stopped), fun others => ?_⟩
  rw [failed]
  exact h.otherwise fun runId stopped => others runId ((same _).2 stopped)

namespace Conduct

variable {c : Conduct S} {kept : S → Prop}

/-- What is done at the end of a call, by how the way to the end has ended. -/
def conclude (c : Conduct S) (resumed : Bool) (r : Except RunError Bool) :
    Activity S (Option RunSummary) := do
  match r with
  | .ok true =>
    c.record (c.host.backend.setRunStatus c.runId .completed none)
    c.record (c.host.backend.setRunPosition c.runId none none none)
    return some (← c.summary resumed true)
  | .ok false => return none
  | .error e =>
    if !e.isTermination then
      c.record (c.host.backend.setRunStatus c.runId .failed (some e.message))
      c.emit (.error c.runId e.message)
    throw e

theorem conclude_error (resumed : Bool) (e : RunError) (s : Session S) :
    ∃ e', (c.conclude resumed (.error e) s).1 = .error e' := by
  have throws (a : Activity S Unit) :
      ∃ e', ((a >>= fun _ => throw e : Activity S (Option RunSummary)) s).1 = .error e' := by
    rw [bind_eval]
    rcases a s with ⟨e' | _, s'⟩
    · exact ⟨e', rfl⟩
    · exact ⟨e, rfl⟩
  rw [conclude.eq_def]
  simp only [← bind_assoc]
  split
  · exact throws _
  · exact ⟨e, rfl⟩

theorem drive_eval (visits : Nat) {resumed : Bool} {s s₁ s₂ : Session S} {current : String}
    (started : c.record (c.host.backend.setRunStatus c.runId .running none) s = (.ok (), s₁))
    (first : c.firstSpace resumed s₁ = (.ok current, s₂)) :
    c.drive visits resumed s = c.conclude resumed (c.traverse visits current resumed s₂).1
      (c.traverse visits current resumed s₂).2 := by
  have attempted : Activity.attempt (do
      c.traverse visits (← c.firstSpace resumed) resumed : Activity S Bool) s₁ =
      (.ok (c.traverse visits current resumed s₂).1, (c.traverse visits current resumed s₂).2) := by
    rw [Activity.attempt, bind_eval, first]
    rfl
  rw [drive, bind_eval, started]
  simp only
  rw [bind_eval, attempted]
  rfl

section Driving

variable (reliable : c.host.Reliable c.runId kept) (valid : c.artifact.validate = .ok ())

include reliable valid

/-- A call ends: the run is completed, or its failure is recorded and told. -/
theorem proceeds_conclude (resumed : Bool) (r : Except RunError Bool) {v : Sight}
    (atEnd : r = .ok true → v.ledger.control = some endMark) :
    c.Proceeds kept (c.conclude resumed r) v fun r' w =>
      w.marks = v.marks ∧ ∀ e, r' = .error e ↔ r = .error e := by
  rcases r with e | _ | _ <;> rw [conclude.eq_def]
  · cases he : e.isTermination
    · simp only [he, Bool.not_false, if_true]
      refine (writes_setRunStatus reliable .failed (some e.message) nofun).bind ?_
      rintro x ⟨ledger, error⟩
      have failed : (v.withRecord x).record.BearsOut c.artifact (.error c.runId e.message) :=
        ⟨congrArg Ledger.status ledger, error⟩
      exact (gives_emit rfl failed).bind (Proceeds.throw ⟨rfl, fun _ => by simp⟩)
    · simp only [he, Bool.not_true, Bool.false_eq_true, if_false]
      exact Proceeds.throw ⟨rfl, fun _ => by simp⟩
  · exact Proceeds.pure ⟨rfl, fun _ => by simp⟩
  · refine (writes_setRunStatus reliable .completed none fun _ => atEnd rfl).bind fun x _ => ?_
    refine (writes_setRunPosition reliable none none none _).bind fun y _ => ?_
    obtain ⟨results, found⟩ := exists_resultsOn valid y.ledger
    have summary : c.Gives kept (c.summary resumed true) ((v.withRecord x).withRecord y) _ _ :=
      gives_of_reads (by
        have read := reads_summary (c := c) (x := y) resumed true
        rw [found] at read
        exact read)
    exact summary.bind (Proceeds.pure ⟨rfl, fun _ => by simp⟩)

omit valid in
/-- Before a call has come to a space, it is recorded that the run is running, and the space to come
to is looked up. -/
theorem opening_tours (resumed : Bool) {s : Session S} {x : RunSnapshot}
    (sees : c.Sees kept s ⟨x, []⟩) :
    ∃ s₁ s₂ y ms, c.record (c.host.backend.setRunStatus c.runId .running none) s = (.ok (), s₁) ∧
      c.firstSpace resumed s₁ = (.ok (c.firstOn resumed x.ledger), s₂) ∧
      s₂.answers = s.answers ∧ s.since s₂ = ms ∧ ms.filterMap Moment.mark? = [] ∧
      y.ledger = x.ledger.setStatus .running ∧
      c.Tours kept s ⟨.opening, ⟨x, []⟩⟩ s₂ (ms.map .moment) ⟨.opening, ⟨y, []⟩⟩ := by
  have begins : c.Proceeds kept (c.record (c.host.backend.setRunStatus c.runId .running none))
      ⟨x, []⟩ fun r w => r = .ok () ∧ ∃ y, w = ⟨y, []⟩ ∧ y.ledger = x.ledger.setStatus .running :=
    (writes_setRunStatus reliable .running none nofun).mono
      fun r w ⟨ok, y, same, ledger, _⟩ => ⟨ok, y, same, ledger⟩
  obtain ⟨answers, ms, w, comes, ok, y, rfl, ledger⟩ := begins s sees
  rcases started : c.record (c.host.backend.setRunStatus c.runId .running none) s with ⟨r, s₁⟩
  rw [started] at answers comes ok
  obtain rfl : r = .ok () := ok
  obtain ⟨n, first⟩ := reads_firstSpace (c := c) resumed s₁ comes.sees.loads
  have same : c.firstOn resumed y.ledger = c.firstOn resumed x.ledger := by
    rw [ledger]
    rfl
  have tours := comes.tours (p := .opening) nofun
  have silent : ms.filterMap Moment.mark? = [] := by
    simpa using marks_of_steps comes.trail
  exact ⟨s₁, { s₁ with readings := s₁.readings + n }, y, ms, rfl, same ▸ first, answers,
    Session.since_eq _ comes.history, silent, ledger, tours.history,
    ⟨tours.sees.kept, tours.sees.loads, tours.sees.named⟩, tours.trail⟩

omit reliable valid in
/-- A call comes to the space that it begins with. -/
theorem comesTo_firstOn {resumed : Bool} {v : Sight}
    (nowhere : resumed = false → v.ledger.control = none) :
    ComesTo ⟨.opening, v⟩ (c.firstOn resumed v.ledger) resumed := by
  cases resumed with
  | false => exact .begins rfl (nowhere rfl)
  | true =>
    refine .resumes rfl ?_
    show v.ledger.control = _ ∨ v.ledger.control = none
    rw [firstOn]
    cases v.ledger.control with
    | none => exact .inr rfl
    | some space => exact .inl rfl

/-- To carry the run out is to follow a trail from the opening of the call. -/
theorem drive_tours (visits : Nat) (resumed : Bool) {s : Session S} {x : RunSnapshot}
    (sees : c.Sees kept s ⟨x, []⟩) (nowhere : resumed = false → x.ledger.control = none) :
    (∃ b, c.Tours kept s ⟨.opening, ⟨x, []⟩⟩ (c.drive visits resumed s).2
      (c.driveLog visits resumed s) b) ∧
    (∀ e, (c.drive visits resumed s).1 = .error e → c.Stops e ∨
      e = .unknownSpace (c.firstOn resumed x.ledger) ∧ c.firstOn resumed x.ledger ≠ endMark ∧
        c.artifact.space? (c.firstOn resumed x.ledger) = none) ∧
    (Sound c.artifact x.ledger →
      CarriedOut (c.agendaOn visits (c.firstOn resumed x.ledger) resumed x.ledger s.answers)
        (marksIn (c.driveLog visits resumed s)) (c.drive visits resumed s).1) := by
  obtain ⟨s₁, s₂, y, ms, started, first, answers, moved, silent, ledger, opens⟩ :=
    opening_tours reliable resumed sees
  have same : c.firstOn resumed y.ledger = c.firstOn resumed x.ledger := by
    rw [ledger]
    rfl
  have comesTo : ComesTo ⟨.opening, ⟨y, []⟩⟩ (c.firstOn resumed x.ledger) resumed := by
    rw [← same]
    refine comesTo_firstOn fun fresh => ?_
    show y.ledger.control = none
    rw [ledger]
    exact nowhere fresh
  obtain ⟨b, tours, arrives, carried⟩ :=
    traverse_tours reliable valid visits opens.sees comesTo
  have concludes := proceeds_conclude reliable valid resumed
    (c.traverse visits (c.firstOn resumed x.ledger) resumed s₂).1 arrives.atEnd
  obtain ⟨-, ms', w', comes', unmarked, errors⟩ := concludes _ tours.sees
  have silent' : ms'.filterMap Moment.mark? = [] :=
    List.append_right_eq_self.1 ((marks_of_steps comes'.trail).symm.trans unmarked)
  have ends := drive_eval visits started first
  have log : c.driveLog visits resumed s = ms.map .moment ++
      c.tour visits (c.firstOn resumed x.ledger) resumed s₂ ++ ms'.map .moment := by
    rw [driveLog, started, ends]
    simp only [first]
    rw [moved, Session.since_eq _ comes'.history]
  rw [ends, log]
  refine ⟨⟨_, (opens.trans tours).trans (comes'.tours arrives.settled)⟩, fun e failed => ?_,
    fun sound => ?_⟩
  · exact arrives.stops e ((errors e).1 failed)
  · have sound' : Sound c.artifact y.ledger := by
      rw [ledger]
      exact sound.move (show Move _ [] _ _ from .stands .running nofun)
    have due : c.agendaOn visits (c.firstOn resumed x.ledger) resumed y.ledger s₂.answers =
        c.agendaOn visits (c.firstOn resumed x.ledger) resumed x.ledger s.answers := by
      rw [ledger, answers]
      rfl
    rw [marksIn_append, marksIn_append, marksIn_map, marksIn_map, silent, silent',
      List.nil_append, List.append_nil, ← due]
    exact (carried nofun sound').congr errors

end Driving

end Conduct

/-- A call carries nothing out: the run is not recorded, though it is to be resumed, or it is
recorded for another artifact or as completed. -/
def Request.Rests (request : Request) (a : Artifact) : Option RunSnapshot → Prop
  | none => request = .resume
  | some x => x.ledger.hash = a.contentHash → x.ledger.status = .completed

/-- How a call comes to the record that it carries the run out from: the run is recorded already, or
it is registered. -/
inductive Opening (u : Subject S) : Option RunSnapshot → List (LogItem S) → RunSnapshot → Prop
  | recorded {x : RunSnapshot} : x.ledger.hash = u.artifact.contentHash → Opening u (some x) [] x
  | registered {store : S} {x : RunSnapshot} : u.recordIn store = some x →
      x.ledger = .blank u.artifact.contentHash → Opening u none [.moment (.wrote store)] x

/-- A run that is registered by a call has not come to a space. -/
theorem Opening.nowhere {u : Subject S} {x : Option RunSnapshot} {first : List (LogItem S)}
    {y : RunSnapshot} (h : Opening u x first y) (fresh : x.isSome = false) :
    y.ledger.control = none := by
  cases h with
  | recorded => cases fresh
  | registered _ ledger =>
    rw [ledger]
    rfl

/-- A call is carried out from a record in order, if the one that it finds is. -/
theorem Opening.sound {u : Subject S} {x : Option RunSnapshot} {first : List (LogItem S)}
    {y : RunSnapshot} (h : Opening u x first y)
    (sound : ∀ y, x = some y → Sound u.artifact y.ledger) : Sound u.artifact y.ledger := by
  cases h with
  | recorded => exact sound y rfl
  | registered _ ledger =>
    rw [ledger]
    exact .blank

namespace Conduct

variable {c : Conduct S} {kept : S → Prop} {request : Request}

/-! ## A call -/

theorem Finds.run?_eval {s : Session S} {x : Option RunSnapshot} (finds : c.Finds kept s x) :
    c.query (c.host.backend.run? c.runId) s =
      (.ok (x.map (·.run)), { s with readings := s.readings + 1 }) := by
  cases x with
  | none => exact unknown_eval finds.loads
  | some y =>
    have load (now : Timestamp) :
        c.host.backend.loadSnapshot c.runId now s.store = (.ok (some y), s.store) := by
      rw [← finds.loads]
      rfl
    have eval (now : Timestamp) :
        c.host.backend.run? c.runId now s.store = (.ok (some y.run), s.store) := by
      rw [Backend.run?, operation_bind_eval, load]
      rfl
    rw [query_eval, eval]
    rfl

/-- A call on a record starts or resumes the run alike. -/
theorem call_recorded (request : Request) (visits : Nat) {s : Session S} {y : RunSnapshot}
    (finds : c.Finds kept s (some y)) :
    c.call request visits s =
      c.continueRun visits y.run { s with readings := s.readings + 1 } := by
  cases request <;> rw [call] <;> simp only [Conduct.run, resume] <;>
    rw [bind_eval, finds.run?_eval] <;> rfl

/-- A call that carries nothing out leaves no trace but a reading of the clock. -/
theorem call_idles (visits : Nat) {s : Session S} {x : Option RunSnapshot}
    (finds : c.Finds kept s x) (rests : request.Rests c.artifact x) :
    ∃ n, (c.call request visits s).2 = { s with readings := s.readings + n } := by
  cases x with
  | none =>
    obtain rfl : request = .resume := rests
    rw [call, resume, bind_eval, finds.run?_eval]
    exact ⟨1, rfl⟩
  | some y =>
    rw [call_recorded request visits finds, continueRun]
    by_cases own : y.run.artifactHash = c.artifact.contentHash
    · have completed : y.run.status = .completed := rests own
      simp only [own, ne_eq, not_true, if_false, completed, if_true]
      obtain ⟨n, told⟩ := reads_summary (c := c) (x := y) true false
        { s with readings := s.readings + 1 } finds.loads
      rw [bind_eval, told]
      cases c.resultsOn y.ledger with
      | error e => exact ⟨1 + n, by simp only [Except.map, Nat.add_assoc]⟩
      | ok results => exact ⟨1 + n, by simp only [Except.map, Nat.add_assoc]; rfl⟩
    · simp only [ne_eq, own, not_false_eq_true, if_true]
      exact ⟨1, rfl⟩

/-- A call that carries nothing out leaves no trace, and if it fails it is because of the record. -/
theorem call_rests (valid : c.artifact.validate = .ok ()) (visits : Nat) {s : Session S}
    {x : Option RunSnapshot} (finds : c.Finds kept s x) (rests : request.Rests c.artifact x) :
    c.callLog request visits s = [] ∧
    (∃ n, (c.call request visits s).2 = { s with readings := s.readings + n }) ∧
    ∀ e, (c.call request visits s).1 = .error e → e = .runNotFound c.runId ∨
      ∃ runId expected actual, e = .artifactMismatch runId expected actual := by
  refine ⟨?_, call_idles visits finds rests, ?_⟩
  · rw [callLog, finds.run?_eval]
    cases x with
    | none =>
      obtain rfl : request = .resume := rests
      rfl
    | some y => exact if_neg fun fresh => fresh.2 (rests fresh.1)
  · cases x with
    | none =>
      obtain rfl : request = .resume := rests
      rw [call, resume, bind_eval, finds.run?_eval]
      rintro e ⟨⟩
      exact .inl rfl
    | some y =>
      rw [call_recorded request visits finds, continueRun]
      by_cases own : y.run.artifactHash = c.artifact.contentHash
      · have completed : y.run.status = .completed := rests own
        simp only [own, ne_eq, not_true, if_false, completed, if_true]
        obtain ⟨results, found⟩ := exists_resultsOn valid y.ledger
        obtain ⟨n, told⟩ := reads_summary (c := c) (x := y) true false
          { s with readings := s.readings + 1 } finds.loads
        rw [bind_eval, told, found]
        rintro e ⟨⟩
      · simp only [ne_eq, own, not_false_eq_true, if_true]
        rintro e ⟨⟩
        exact .inr ⟨_, _, _, rfl⟩

/-- A call on a record that it may go on from is noted as what carrying the run out notes. -/
theorem callLog_recorded (request : Request) (visits : Nat) {s : Session S} {y : RunSnapshot}
    (finds : c.Finds kept s (some y)) (own : y.ledger.hash = c.artifact.contentHash)
    (open_ : y.ledger.status ≠ .completed) :
    c.callLog request visits s = c.driveLog visits true { s with readings := s.readings + 1 } := by
  rw [callLog, finds.run?_eval]
  exact if_pos ⟨own, open_⟩

/-- Any other call carries the run out, from a record that it has come to. -/
theorem call_drives (reliable : c.host.Reliable c.runId kept) (request : Request) (visits : Nat)
    {s : Session S} {x : Option RunSnapshot} (finds : c.Finds kept s x)
    (active : ¬request.Rests c.artifact x) :
    ∃ first y s', Opening c.subject x first y ∧
      s'.history = (momentsIn first).reverse ++ s.history ∧ s'.answers = s.answers ∧
      c.Sees kept s' ⟨y, []⟩ ∧ c.call request visits s = c.drive visits x.isSome s' ∧
      c.callLog request visits s = first ++ c.driveLog visits x.isSome s' := by
  cases x with
  | none =>
    obtain rfl : request = .run := by
      cases request with
      | run => rfl
      | resume => exact absurd rfl active
    let s₁ : Session S := { s with readings := s.readings + 1 }
    obtain ⟨store, y, registers, kept', loads, named, -, ledger⟩ :=
      register_eval (s := s₁) reliable finds.kept finds.loads
    let s₂ : Session S :=
      (c.note (.wrote store) { s₁ with store, readings := s₁.readings + 1 }).2
    have sees : c.Sees kept s₂ ⟨y, []⟩ := ⟨kept', loads, named⟩
    refine ⟨[.moment (.wrote store)], y, s₂, .registered sees.recordIn ledger, rfl, rfl, sees,
      run_eq_drive_registered visits finds.loads registers, ?_⟩
    rw [callLog, finds.run?_eval]
    simp only [Option.map_none]
    rw [registers, Session.since_eq [.wrote store] rfl]
    rfl
  | some y =>
    obtain ⟨own, open_⟩ : y.run.artifactHash = c.artifact.contentHash ∧
        y.run.status ≠ .completed := Classical.not_imp.1 active
    refine ⟨[], y, { s with readings := s.readings + 1 }, .recorded own, rfl, rfl,
      ⟨finds.kept, finds.loads, finds.named y rfl⟩, ?_, ?_⟩
    · rw [call_recorded request visits finds]
      simp only [continueRun, own, ne_eq, not_true, if_false, open_, Option.isSome_some]
    · exact callLog_recorded request visits finds own open_

/-- The log of a call without the notes is what the call adds to the history. -/
theorem call_history (reliable : c.host.Reliable c.runId kept)
    (valid : c.artifact.validate = .ok ()) (request : Request) (visits : Nat) {s : Session S}
    {x : Option RunSnapshot} (finds : c.Finds kept s x) :
    (c.call request visits s).2.history =
      (momentsIn (c.callLog request visits s)).reverse ++ s.history := by
  by_cases rests : request.Rests c.artifact x
  · obtain ⟨log, ⟨n, same⟩, -⟩ := call_rests valid visits finds rests
    rw [log, same]
    rfl
  · obtain ⟨first, y, s', opening, grown, -, sees, drives, log⟩ :=
      call_drives reliable request visits finds rests
    obtain ⟨⟨b, tours⟩, -⟩ := drive_tours reliable valid visits x.isSome sees opening.nowhere
    rw [drives, tours.history, grown, log]
    simp

/-- What a call notes is nothing, or a trail from the opening of the call. -/
theorem call_trail (reliable : c.host.Reliable c.runId kept) (valid : c.artifact.validate = .ok ())
    (request : Request) (visits : Nat) {s : Session S} {x : Option RunSnapshot}
    (finds : c.Finds kept s x) :
    c.callLog request visits s = [] ∨ ∃ first y rest b, c.callLog request visits s = first ++ rest ∧
      Opening c.subject x first y ∧ Trail (Stride c.subject) ⟨.opening, ⟨y, []⟩⟩ rest b := by
  by_cases rests : request.Rests c.artifact x
  · exact .inl (call_rests valid visits finds rests).1
  · obtain ⟨first, y, s', opening, -, -, sees, -, log⟩ :=
      call_drives reliable request visits finds rests
    obtain ⟨⟨b, tours⟩, -⟩ := drive_tours reliable valid visits x.isSome sees opening.nowhere
    exact .inr ⟨first, y, _, b, log, opening, tours.trail⟩

end Conduct

/-! ## Journeys -/

namespace Subject

variable {u : Subject S} {log log' : List (LogItem S)}

@[simp] theorem recordAfter_nil (x : Option RunSnapshot) : u.recordAfter x [] = x := rfl

theorem recordAfter_append (x : Option RunSnapshot) :
    u.recordAfter x (log ++ log') = u.recordAfter (u.recordAfter x log) log' := by
  rw [recordAfter, momentsIn_append, List.foldl_append]
  rfl

end Subject

section Records

variable {u : Subject S}

theorem Opening.recordAfter {x : Option RunSnapshot} {first : List (LogItem S)} {y : RunSnapshot}
    (h : Opening u x first y) : u.recordAfter x first = some y := by
  cases h with
  | recorded => rfl
  | registered recorded => exact recorded

/-- The record of a stage is the one that the stride to it leaves. -/
theorem Stride.recordAfter {a b : Stage} {i : LogItem S} (h : Stride u a i b) :
    u.recordAfter (some a.sight.record) [i] = some b.sight.record := by
  cases h with
  | step _ moves =>
    cases moves with
    | wrote recorded => exact recorded
    | _ => rfl
  | forgot recorded | entered _ _ recorded | returned _ _ recorded | arrived _ recorded =>
    exact recorded
  | left => rfl

theorem recordAfter_of_trail {a b : Stage} {log : List (LogItem S)}
    (h : Trail (Stride u) a log b) :
    u.recordAfter (some a.sight.record) log = some b.sight.record := by
  induction h with
  | nil => rfl
  | @cons _ _ _ i rest stride _ ih =>
    rw [← ih, ← stride.recordAfter, ← u.recordAfter_append]
    rfl

end Records

/-- What holds of journeys by what every stride preserves: between the calls one thing holds of the
log and the record, within a call another one of the log and the stage. -/
theorem Journey.preserves {u : Subject S} {kept : S → Prop} (valid : u.artifact.validate = .ok ())
    {P : List (LogItem S) → Option RunSnapshot → Prop} {Q : List (LogItem S) → Stage → Prop}
    (start : P [] none)
    (idles : ∀ log x, P log x → P (log ++ [.called x]) x)
    (opens : ∀ log x first y, P log x → Opening u x first y →
      Q (log ++ .called x :: first) ⟨.opening, ⟨y, []⟩⟩)
    (strides : ∀ log a i b, Q log a → Stride u a i b → Q (log ++ [i]) b)
    (ends : ∀ log a, Q log a → P log (some a.sight.record))
    {log : List (LogItem S)} {x : Option RunSnapshot} (h : Journey u kept log x) : P log x := by
  induction h with
  | start => exact start
  | @call log x c request visits s count _ same reliable finds ih =>
    subst same
    -- A call that is cut off before anything was noted leaves the record as it was.
    have nothing : P (log ++ .called x :: []) (c.subject.recordAfter x []) := idles log x ih
    rcases c.call_trail reliable valid request visits finds with
      none | ⟨first, y, rest, b, all, opening, trail⟩
    · rwa [none, List.take_nil]
    · have carries (count : Nat) : P (log ++ .called x :: (first ++ rest.take count))
          (c.subject.recordAfter x (first ++ rest.take count)) := by
        obtain ⟨m, trail⟩ := trail.take count
        have along := trail.preserves strides (opens log x first y ih opening)
        rw [Subject.recordAfter_append, opening.recordAfter, recordAfter_of_trail trail]
        simpa using ends _ _ along
      rw [all]
      cases opening with
      | recorded => exact carries count
      | registered =>
        cases count with
        | zero => exact nothing
        | succ count => exact carries count

theorem placed_opening (y : RunSnapshot) : Stage.Placed ⟨.opening, ⟨y, []⟩⟩ := by
  rintro space (h | h) <;> cases h

/-- Between calls the record of a run is in order. -/
theorem Journey.sound {u : Subject S} {kept : S → Prop} (valid : u.artifact.validate = .ok ())
    {log : List (LogItem S)} {x : Option RunSnapshot} (h : Journey u kept log x) :
    ∀ y, x = some y → Sound u.artifact y.ledger := by
  refine h.preserves valid (P := fun _ x => ∀ y, x = some y → Sound u.artifact y.ledger)
    (Q := fun _ a => a.Placed ∧ Sound u.artifact a.ledger) ?_ ?_ ?_ ?_ ?_
  · rintro y ⟨⟩
  · exact fun _ _ sound => sound
  · exact fun _ _ _ y sound opening => ⟨placed_opening y, opening.sound sound⟩
  · exact fun _ _ _ _ ⟨placed, sound⟩ stride => ⟨stride.placed placed, stride.sound placed sound⟩
  · rintro _ a ⟨-, sound⟩ y ⟨⟩
    exact sound

namespace Conduct

variable {c : Conduct S} {kept : S → Prop}

/-- A call leaves the record that its log leaves. -/
theorem call_finds (reliable : c.host.Reliable c.runId kept)
    (valid : c.artifact.validate = .ok ()) (request : Request) (visits : Nat) {s : Session S}
    {x : Option RunSnapshot} (finds : c.Finds kept s x) :
    c.Finds kept (c.call request visits s).2
      (c.subject.recordAfter x (c.callLog request visits s)) := by
  by_cases rests : request.Rests c.artifact x
  · obtain ⟨log, ⟨n, same⟩, -⟩ := call_rests valid visits finds rests
    rw [log, same]
    exact ⟨finds.kept, finds.loads, finds.named⟩
  · obtain ⟨first, y, s', opening, -, -, sees, drives, log⟩ :=
      call_drives reliable request visits finds rests
    obtain ⟨⟨b, tours⟩, -⟩ := drive_tours reliable valid visits x.isSome sees opening.nowhere
    rw [drives, log, Subject.recordAfter_append, opening.recordAfter,
      recordAfter_of_trail tours.trail]
    refine ⟨tours.sees.kept, tours.sees.loads, ?_⟩
    rintro _ ⟨⟩
    exact tours.sees.named

end Conduct

/-- A call that is not cut off goes on with a journey. -/
theorem Journey.whole {u : Subject S} {kept : S → Prop} {log : List (LogItem S)}
    {x : Option RunSnapshot} (journey : Journey u kept log x) (c : Conduct S) (request : Request)
    (visits : Nat) (s : Session S) (same : c.subject = u)
    (reliable : c.host.Reliable c.runId kept) (finds : c.Finds kept s x) :
    Journey u kept (log ++ .called x :: c.callLog request visits s)
      (u.recordAfter x (c.callLog request visits s)) := by
  have cut := journey.call c request visits s (c.callLog request visits s).length same reliable
    finds
  rwa [List.take_length] at cut

end Sweep
