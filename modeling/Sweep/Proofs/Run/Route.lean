import Sweep.Proofs.Run.Continuing
import Sweep.Proofs.Run.Telling

/-!
# Runs whose way is known

If no choice on the way from the start to the end depends on an answer, the way is a list of spaces,
and it is known before the run is carried out. A run that is left alone and of which no task fails
then visits just these spaces in this order, and only after the last of them it is recorded as
completed.
-/

namespace Sweep

variable {S : Type}

theorem InOrder.mem_of_failed {plan : List TaskKey} {marks : List (TaskKey × TaskMark)}
    {key : TaskKey} (h : InOrder plan marks (some key)) : (key, .failed) ∈ marks := by
  generalize hk : some key = failed at h
  induction h with
  | done => cases hk
  | fails =>
    cases hk
    exact List.mem_cons_of_mem _ List.mem_cons_self
  | completes _ _ ih => exact List.mem_cons_of_mem _ (List.mem_cons_of_mem _ (ih hk))

namespace Conduct

/-- The way from a space to the end, where it does not depend on answers. -/
inductive Route (c : Conduct S) : String → List SpaceDefinition → Prop
  | ends : Route c endMark []
  | goes {current next : String} {space : SpaceDefinition} {rest : List SpaceDefinition} :
      current ≠ endMark → c.artifact.space? current = some space →
      (∀ answers, c.nextOn current answers = (.ok next, answers)) → Route c next rest →
      Route c current (space :: rest)

/-- Some moments carry spaces out one after the other: each is visited to its end before the next
one is, all of their tasks are carried out in order, and in between the run is not recorded as
completed. -/
structure Executes (c : Conduct S) (spaces : List SpaceDefinition) (ms : List (Moment S)) :
    Prop where
  told : ms.filterMap Moment.notice? = SpaceNotice.ofVisits (spaces.map (·.spaceId))
  marked : InOrder (spaces.flatMap (·.starts)) (ms.filterMap Moment.mark?) none
  incomplete : c.Incomplete ms

variable {c : Conduct S} {kept : S → Prop} {current : String} {spaces : List SpaceDefinition}

/-! ## The way of a traversal -/

/-- A traversal that comes to the end has told of the spaces of its way. -/
theorem Route.tells (reliable : c.host.Reliable c.runId kept) (route : c.Route current spaces)
    (visits : Nat) :
    c.Tells kept (c.traverse visits current false) fun reached told =>
      reached = true → told = SpaceNotice.ofVisits (spaces.map (·.spaceId)) := by
  induction route generalizing visits with
  | ends =>
    have ends : c.Tells kept (do
        c.record (c.host.backend.enter c.runId endMark)
        return true : Activity S Bool) fun reached told =>
          reached = true → told = SpaceNotice.ofVisits [] :=
      Quiet.bind (quiet_enter reliable endMark) fun _ => Tells.pure fun _ => rfl
    cases visits <;> rw [traverse, if_pos rfl] <;> exact ends
  | @goes current next space rest proper found leads _ ih =>
    cases visits with
    | zero =>
      rw [traverse, if_neg proper]
      exact Tells.pure (by rintro ⟨⟩)
    | succ visits =>
      rw [traverse, if_neg proper, found]
      refine Quiet.bind (quiet_enter reliable current) fun _ => ?_
      refine Tells.bind (tells_visitOnce reliable space) ?_
      rintro _ _ rfl
      refine Tells.bind (quiet_next leads) ?_
      rintro _ _ ⟨rfl, rfl⟩
      refine (ih visits).mono fun reached told ends done => ?_
      rw [ends done]
      rfl

/-- With enough visits the way comes to its end, unless a task fails. -/
theorem Route.reaches (route : c.Route current spaces) (calm : c.host.Calm)
    (valid : c.artifact.validate = .ok ()) {visits : Nat} (enough : spaces.length ≤ visits)
    {goesOn : Bool} {l l' : Ledger} {answers left : Answers} {deeds : List Deed}
    {r : Except RunError Bool}
    (h : c.TraverseCourse kept visits current goesOn l answers deeds r l' left) :
    r = .ok true ∨ ∃ key, failedTask r = some key := by
  induction route generalizing visits goesOn l answers deeds with
  | ends =>
    cases h with
    | finished => exact .inl rfl
    | exhausted _ _ _ away | unknownSpace _ _ _ _ away => exact absurd rfl away
    | broken _ _ away | stuck _ away | step away => exact absurd rfl away
  | @goes current next space rest proper found leads _ ih =>
    cases h with
    | finished => exact absurd rfl proper
    | exhausted => simp at enough
    | unknownSpace _ _ _ _ _ unknown =>
      rw [found] at unknown
      cases unknown
    | broken _ _ _ found' entry =>
      cases found.symm.trans found'
      obtain ⟨tasks, known⟩ := tasksOf_of_validate valid found
      obtain ⟨key, failed⟩ := entry.task_failed calm known
      exact .inr ⟨key, failed⟩
    | stuck _ _ _ _ chosen =>
      rw [leads] at chosen
      cases chosen
    | step _ _ _ chosen others =>
      rw [leads] at chosen
      cases chosen
      exact ih (Nat.le_of_succ_le_succ enough) others

/-- The spaces visited are those of the way. -/
theorem Route.itineraryOn_eq (route : c.Route current spaces) {visits : Nat}
    (enough : spaces.length ≤ visits) (answers : Answers) :
    c.itineraryOn visits current answers = spaces := by
  induction route generalizing visits with
  | ends => cases visits <;> rfl
  | goes proper found leads _ ih =>
    cases visits with
    | zero => cases enough
    | succ visits =>
      rw [itineraryOn, if_neg proper, found]
      simp only [leads, ih (Nat.le_of_succ_le_succ enough)]

/-! ## The end of a run -/

/-- A run that has come to the end of its way is recorded as completed, and then its position is
recorded. -/
theorem conclude_history (reliable : c.host.Reliable c.runId kept) {s : Session S}
    {x : RunSnapshot} (sees : c.Sees kept s ⟨x, []⟩) (resumed : Bool) :
    ∃ first second y, (c.conclude resumed (.ok true) s).2.history =
      .wrote second :: .wrote first :: s.history ∧
      c.subject.recordIn first = some y ∧ y.run.status = .completed := by
  obtain ⟨s₁, recorded, -, grown, sees₁⟩ := record_eval reliable
    (fun now x => .ok (x.setStatus now .completed none)) (fun _ _ => rfl) sees rfl rfl
  obtain ⟨s₂, recorded', -, grown', sees₂⟩ := record_eval reliable
    (fun _ x => .ok (x.setPosition none none none)) (fun _ _ => rfl) sees₁ rfl rfl
  have completes : c.record (c.host.backend.setRunStatus c.runId .completed none) s =
      (.ok (), s₁) := recorded
  have moves : c.record (c.host.backend.setRunPosition c.runId none none none) s₁ =
      (.ok (), s₂) := recorded'
  refine ⟨s₁.store, s₂.store, _, ?_, sees₁.recordIn, rfl⟩
  obtain ⟨n, looks⟩ := reads_summary resumed true s₂ sees₂.loads
  rw [conclude.eq_def]
  simp only [bind_eval, completes, moves, looks]
  rw [← grown, ← grown']
  cases (c.resultsOn _).map _ <;> rfl

/-- The way of a run, from its registration to what its traversal comes to. -/
def way (c : Conduct S) (visits : Nat) : Activity S (Except RunError Bool) := do
  c.record (c.host.backend.setRunStatus c.runId .running none)
  Activity.attempt do c.traverse visits (← c.firstSpace false) false

theorem drive_eq_way (c : Conduct S) (visits : Nat) :
    c.drive visits false = c.way visits >>= c.conclude false := by
  rw [drive, way, bind_assoc]
  rfl

theorem tells_way (reliable : c.host.Reliable c.runId kept)
    (route : c.Route c.artifact.control.start spaces) (visits : Nat) :
    c.Tells kept (c.way visits) fun r told =>
      r = .ok true → told = SpaceNotice.ofVisits (spaces.map (·.spaceId)) := by
  refine Quiet.bind (quiet_setRunStatus reliable none (by simp)) fun _ => ?_
  have goes : c.Tells kept (do c.traverse visits (← c.firstSpace false) false : Activity S Bool)
      fun reached told =>
        reached = true → told = SpaceNotice.ofVisits (spaces.map (·.spaceId)) := by
    refine Tells.bind (R := fun first told => first = c.artifact.control.start ∧ told = [])
      (Tells.of_reads fun x => ⟨_, reads_firstSpace false, ?_⟩) ?_
    · rintro _ ⟨⟩
      rw [firstOn]
      cases x.ledger.control <;> exact ⟨rfl, rfl⟩
    · rintro _ _ ⟨rfl, rfl⟩
      exact route.tells reliable visits
  exact goes.attempt.mono fun r told ends reached => ends true reached rfl

theorem Fresh.finds {s : Session S} (fresh : c.Fresh kept s) : c.Finds kept s none where
  kept := fresh.kept
  loads := fresh.unknown
  named := by rintro _ ⟨⟩

section Whole

variable (reliable : c.host.Reliable c.runId kept) (calm : c.host.Calm)
  (valid : c.artifact.validate = .ok ()) (route : c.Route c.artifact.control.start spaces)

include reliable calm valid route

/-- A run of which no task fails comes to the end of its way. -/
theorem Route.completes {visits : Nat} (enough : spaces.length ≤ visits) {s : Session S}
    (fresh : c.Fresh kept s)
    (succeeds : ∀ key, (key, .failed) ∉ (s.since (c.run visits s).2).filterMap Moment.mark?) :
    InOrder (spaces.flatMap (·.starts))
        ((s.since (c.run visits s).2).filterMap Moment.mark?) none ∧
      ∃ summary, (c.run visits s).1 = .ok (some summary) ∧ summary.status = .completed := by
  obtain ⟨w, stands, deeds, r, l, course, grown, concludes⟩ := run_follows reliable visits fresh
  have settled : Settled ((c.registered s).ledger.setStatus .running) :=
    fun space => .inr ⟨rfl, fun index => rfl⟩
  have starts : c.firstOn false (c.registered s).ledger = c.artifact.control.start := rfl
  have ordered := course.inOrder calm valid settled
  rw [starts] at course ordered
  -- The marks of the course are those of the moments that the run adds.
  have moments : (c.run visits s).2.history =
      (momentsIn (c.callLog .run visits s)).reverse ++ s.history :=
    call_history reliable valid .run visits fresh.finds
  have marked := marks_of_stands stands grown
  rw [marks_of_history moments] at marked
  rw [route.itineraryOn_eq enough, ← List.append_cancel_left marked] at ordered
  rw [Session.since_eq _ moments] at succeeds ⊢
  obtain rfl | ⟨key, failed⟩ := route.reaches calm valid enough course
  · refine ⟨ordered, ?_⟩
    generalize (c.run visits s).1 = result at concludes ⊢
    generalize w.ledger = left at concludes
    cases concludes with
    | completed tasks found => exact ⟨_, rfl, rfl⟩
    | noResults none =>
      obtain ⟨results, found⟩ := exists_resultsOn valid (l.setStatus .completed)
      rw [none] at found
      cases found
  · rw [failed] at ordered
    exact absurd ordered.mem_of_failed (succeeds key)

omit calm valid in
/-- What a run adds to the history if it is completed: the moments of its way, and then the records
of its end. -/
theorem Route.history_of_completed (visits : Nat) {s : Session S} (fresh : c.Fresh kept s)
    {summary : RunSummary} (completed : (c.run visits s).1 = .ok (some summary)) :
    ∃ ms first second x,
      (c.run visits s).2.history = .wrote second :: .wrote first :: (ms.reverse ++ s.history) ∧
      ms.filterMap Moment.notice? = SpaceNotice.ofVisits (spaces.map (·.spaceId)) ∧
      c.Incomplete ms ∧ c.subject.recordIn first = some x ∧ x.run.status = .completed := by
  obtain ⟨store, x, registers, kept', loads, named, -, ledger⟩ :=
    register_eval (s := { s with readings := s.readings + 1 }) reliable fresh.kept fresh.unknown
  obtain ⟨s₁, registered, grown, rfl, sees⟩ : ∃ s₁,
      c.register { s with readings := s.readings + 1 } = (.ok (), s₁) ∧
        s₁.history = .wrote store :: s.history ∧ s₁.store = store ∧ c.Sees kept s₁ ⟨x, []⟩ :=
    ⟨_, registers, rfl, rfl, kept', loads, named⟩
  have going : x.run.status ≠ .completed := by
    have running : x.run.status = .running := congrArg Ledger.status ledger
    simp [running]
  obtain ⟨ms, y, grown', sees', -, incomplete, told⟩ :=
    tells_way reliable route visits s₁ x sees going
  rw [run_eq_drive_registered visits fresh.unknown registered, drive_eq_way,
    bind_eval] at completed ⊢
  rcases h : c.way visits s₁ with ⟨e | r, s₂⟩ <;> rw [h] at completed grown' sees' told
  · cases completed
  rcases r with e | _ | _ <;> simp only at completed
  · obtain ⟨e', failed⟩ := c.conclude_error false e s₂
    rw [completed] at failed
    cases failed
  · cases completed
  · obtain ⟨first, second, z, ends, recorded, status⟩ := conclude_history reliable sees' false
    refine ⟨.wrote s₁.store :: ms, first, second, z, ?_, told _ rfl rfl, ?_, recorded, status⟩
    · rw [ends, grown', grown]
      simp
    · have opens : c.Incomplete [.wrote s₁.store] := by
        rintro _ mem
        cases List.mem_singleton.1 mem
        exact ⟨x, sees.recordIn, going⟩
      exact opens.append incomplete

/-- A run whose way is known, which is left alone and of which no task fails visits the spaces of
its way in this order, each once, before it is recorded as completed. -/
theorem Route.run_executes {visits : Nat} (enough : spaces.length ≤ visits) {s : Session S}
    (fresh : c.Fresh kept s)
    (succeeds : ∀ key, (key, .failed) ∉ (s.since (c.run visits s).2).filterMap Moment.mark?) :
    ∃ ms first second x summary, (c.run visits s).1 = .ok (some summary) ∧
      summary.status = .completed ∧
      s.since (c.run visits s).2 = ms ++ [.wrote first, .wrote second] ∧ c.Executes spaces ms ∧
      c.subject.recordIn first = some x ∧ x.run.status = .completed := by
  obtain ⟨ordered, summary, completed, status⟩ :=
    route.completes reliable calm valid enough fresh succeeds
  obtain ⟨ms, first, second, x, grown, told, incomplete, recorded, done⟩ :=
    route.history_of_completed reliable visits fresh completed
  have moments : s.since (c.run visits s).2 = ms ++ [.wrote first, .wrote second] :=
    Session.since_eq _ (by simp [grown])
  have unmarked : [Moment.wrote first, .wrote second].filterMap Moment.mark? = [] := rfl
  rw [moments, List.filterMap_append, unmarked, List.append_nil] at ordered
  exact ⟨ms, first, second, x, summary, completed, status, moments, ⟨told, ordered, incomplete⟩,
    recorded, done⟩

end Whole

end Conduct

end Sweep
