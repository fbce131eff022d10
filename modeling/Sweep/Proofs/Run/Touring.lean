import Sweep.Proofs.Run.Passage

/-!
# What a call notes

A call is followed from space to space and noted as a log: its moments, and between them where the
run enters a space, goes on in one and leaves it. The log is built by the recursion of the engine
itself, and without the notes it is what the call adds to the history. From any record on, it is a
trail of strides.
-/

namespace Sweep

variable {S : Type}

/-- The moments that a session has gone through to become another one. -/
def Session.since (s s' : Session S) : List (Moment S) :=
  (s'.history.take (s'.history.length - s.history.length)).reverse

theorem Session.since_eq {s s' : Session S} (ms : List (Moment S))
    (grown : s'.history = ms.reverse ++ s.history) : s.since s' = ms := by
  simp [since, grown]

namespace Conduct

variable (c : Conduct S)

/-- How coming to a space is noted. -/
def arrival (goesOn : Bool) (space : String) (store : S) : LogItem S :=
  if goesOn then .returned space store else .entered space store

def tour : Nat → String → Bool → Session S → List (LogItem S)
  | visits, current, goesOn, s =>
    if current = endMark then
      (s.since (c.record (c.host.backend.enter c.runId endMark) s).2).map .moment
    else
      match visits with
      | 0 => []
      | visits + 1 =>
        match c.artifact.space? current with
        | none => []
        | some space =>
          let entered := (c.record (c.host.backend.enter c.runId current) s).2
          let visited := c.visitOnce space goesOn entered
          let chosen := c.next current visited.2
          arrival goesOn current entered.store :: (entered.since visited.2).map .moment ++
            match visited.1 with
            | .error _ => []
            | .ok () =>
              .left current :: (visited.2.since chosen.2).map .moment ++
                match chosen.1 with
                | .error _ => []
                | .ok next => tour visits next false chosen.2

end Conduct

/-- The tasks that are due in a space that the run comes to. A call that goes on after the visit of
the space has nothing to do there. -/
def SpaceDefinition.due (space : SpaceDefinition) (goesOn : Bool) (l : Ledger) : List TaskKey :=
  if l.spaces space.spaceId = some .completed then if goesOn then [] else space.starts
  else space.remaining l

/-- The tasks that are due on the way through some spaces: what is left to do in the first one, then
all tasks of each further one. -/
def dueThrough (goesOn : Bool) (l : Ledger) : List SpaceDefinition → List TaskKey
  | [] => []
  | space :: rest => space.due goesOn l ++ rest.flatMap (·.starts)

namespace Conduct

variable (c : Conduct S)

def agendaOn (visits : Nat) (current : String) (goesOn : Bool) (l : Ledger) (answers : Answers) :
    List TaskKey :=
  dueThrough goesOn l (c.itineraryOn visits current answers)

variable (kept : S → Prop)

/-- A session has come from one stage to another by the strides of a log. -/
structure Tours (s : Session S) (a : Stage) (s' : Session S) (log : List (LogItem S)) (b : Stage) :
    Prop where
  history : s'.history = (momentsIn log).reverse ++ s.history
  sees : c.Sees kept s' b.sight
  trail : Trail (Stride c.subject) a log b

/-- A session stays in a space, from a stage to the end of an activity with this result: it carries
a plan out as far as the result says, and completes the space if it comes to its end. -/
def Stays (space : String) (plan : List TaskKey) (s : Session S) (a : Stage)
    (result : Except RunError Unit × Session S) : Prop :=
  result.2.answers = s.answers ∧ ∃ (ms : List (Moment S)) (w : Sight),
    c.Tours kept s a result.2 (ms.map .moment) ⟨.inside space, w⟩ ∧
    Pursues plan (ms.filterMap Moment.mark?) result.1 ∧
    (result.1 = .ok () → w.ledger.control = some space ∧ w.ledger.spaces space = some .completed)

/-- A stage at which a run comes to a space, going on in it or not. -/
inductive ComesTo (a : Stage) (current : String) : Bool → Prop
  | begins : a.phase = .opening → a.ledger.control = none → ComesTo a current false
  | resumes : a.phase = .opening →
      (a.ledger.control = some current ∨ a.ledger.control = none) → ComesTo a current true
  | chosen (before : String) : a.phase = .between before → a.ledger.control = some before →
      a.ledger.spaces before = some .completed → ComesTo a current false

end Conduct

/-- How far a plan was carried out by an activity with this result, which need not be its last part:
as far as a request for termination let it, or to its end or up to a task that failed. -/
structure CarriedOut {α : Type} (plan : List TaskKey) (marks : List (TaskKey × TaskMark))
    (r : Except RunError α) : Prop where
  stopped : ∀ runId, r = .error (.terminated runId) →
    ∃ count, InOrder (plan.take count) marks none
  otherwise : (∀ runId, r ≠ .error (.terminated runId)) → InOrder plan marks (failedTask r)

namespace CarriedOut

variable {α : Type} {plan plan' : List TaskKey} {marks marks' : List (TaskKey × TaskMark)}

theorem of_inOrder {r : Except RunError α} (ordered : InOrder plan marks none)
    (none : failedTask r = none) : CarriedOut plan marks r :=
  ⟨fun _ _ => ⟨plan.length, by rwa [List.take_length]⟩, fun _ => none ▸ ordered⟩

theorem of_error {e : RunError} (h : Pursues plan marks (.error e : Except RunError α)) :
    CarriedOut plan marks (.error e : Except RunError α) := by
  cases h with
  | failed named ordered =>
    refine ⟨?_, fun _ => ?_⟩
    · rintro runId ⟨⟩
      cases named
    · rw [failedTask, named]
      exact ordered
  | stopped runId count ordered => exact ⟨fun _ _ => ⟨count, ordered⟩, fun h => absurd rfl (h _)⟩

theorem append {r : Except RunError α} (first : InOrder plan marks none)
    (second : CarriedOut plan' marks' r) : CarriedOut (plan ++ plan') (marks ++ marks') r := by
  refine ⟨fun runId stopped => ?_, fun h => first.append (second.otherwise h)⟩
  obtain ⟨count, ordered⟩ := second.stopped runId stopped
  refine ⟨plan.length + count, ?_⟩
  rw [List.take_length_add_append]
  exact first.append ordered

end CarriedOut

namespace Conduct

variable {c : Conduct S} {kept : S → Prop}

/-! ## Logs as trails -/

theorem marksIn_arrival_cons (goesOn : Bool) (space : String) (store : S)
    (log : List (LogItem S)) : marksIn (arrival goesOn space store :: log) = marksIn log := by
  cases goesOn <;> rfl

/-- Steps mark what their moments mark. -/
theorem marks_of_steps {u : Subject S} {v w : Sight} {ms : List (Moment S)}
    (h : Trail (Step u) v ms w) : w.marks = v.marks ++ ms.filterMap Moment.mark? := by
  induction h with
  | nil => simp
  | cons step _ ih =>
    rw [ih]
    cases step <;> simp [Moment.mark?, List.filterMap_cons]

theorem Tours.refl {s : Session S} {a : Stage} (sees : c.Sees kept s a.sight) :
    c.Tours kept s a s [] a := ⟨rfl, sees, .nil a⟩

theorem Tours.trans {s s' s'' : Session S} {a b d : Stage} {log log' : List (LogItem S)}
    (first : c.Tours kept s a s' log b) (second : c.Tours kept s' b s'' log' d) :
    c.Tours kept s a s'' (log ++ log') d := by
  refine ⟨?_, second.sees, first.trail.append second.trail⟩
  rw [second.history, first.history, momentsIn_append, List.reverse_append, List.append_assoc]

/-- Steps in a phase that allows them. -/
theorem Comes.tours {s s' : Session S} {v w : Sight} {ms : List (Moment S)} {p : Phase}
    (h : c.Comes kept s v s' ms w) (ready : ∀ space, p ≠ .stale space) :
    c.Tours kept s ⟨p, v⟩ s' (ms.map .moment) ⟨p, w⟩ := by
  refine ⟨?_, h.sees, h.trail.map (f := Stage.mk p) (g := LogItem.moment)
    fun _ _ _ => .step ready⟩
  rw [momentsIn_map]
  exact h.history

/-- Sessions of one history and with the same answers need not be told apart. -/
theorem Stays.of_history {space : String} {plan : List TaskKey} {s s₀ : Session S} {a : Stage}
    {result : Except RunError Unit × Session S} (h : c.Stays kept space plan s a result)
    (history : s.history = s₀.history) (answers : s.answers = s₀.answers) :
    c.Stays kept space plan s₀ a result := by
  obtain ⟨same, ms, w, tours, rest⟩ := h
  exact ⟨same.trans answers, ms, w, ⟨history ▸ tours.history, tours.sees, tours.trail⟩, rest⟩

section Strides

variable (reliable : c.host.Reliable c.runId kept)

include reliable

/-- A change of the record that leads to a given ledger. -/
theorem update_eval (change : Timestamp → RunSnapshot → RunSnapshot) {s : Session S} {v : Sight}
    {l : Ledger} (sees : c.Sees kept s v)
    (named : ∀ now, (change now v.record).run.runId = v.record.run.runId)
    (ledger : ∀ now, (change now v.record).ledger = l) :
    ∃ s' x, c.record (c.host.backend.update c.runId change) s = (.ok (), s') ∧
      s'.answers = s.answers ∧ s'.history = .wrote s'.store :: s.history ∧
      c.Sees kept s' (v.withRecord x) ∧ x.ledger = l := by
  obtain ⟨s', recorded, answers, grown, sees'⟩ := record_eval reliable
    (fun now x => .ok (change now x)) (fun _ _ => rfl) sees rfl (named _)
  exact ⟨s', _, recorded, answers, grown, sees', ledger _⟩

theorem enter_eval (space : String) {s : Session S} {v : Sight} (sees : c.Sees kept s v) :
    ∃ s' x, c.record (c.host.backend.enter c.runId space) s = (.ok (), s') ∧
      s'.answers = s.answers ∧ s'.history = .wrote s'.store :: s.history ∧
      c.Sees kept s' (v.withRecord x) ∧ x.ledger = v.ledger.enter space :=
  update_eval reliable (fun now x => x.enter now space) sees (fun _ => rfl) fun _ => rfl

/-- A space that is not completed is visited, and then termination may be requested. -/
theorem proceeds_visit_check {space : SpaceDefinition} {tasks : List TaskDefinition}
    (found : c.artifact.space? space.spaceId = some space) (known : c.tasksOf space = .ok tasks)
    {v : Sight} (inside : v.ledger.control = some space.spaceId)
    (open_ : v.ledger.spaces space.spaceId ≠ some .completed) :
    c.Proceeds kept (do c.visit space; c.checkTermination : Activity S Unit) v
      (Outcome v (space.remaining v.ledger) fun l =>
        l.control = some space.spaceId ∧ l.spaces space.spaceId = some .completed) := by
  refine (proceeds_visit reliable found known inside open_).bind ?_ ?_
  · rintro e w ⟨pursues, -⟩
    exact ⟨pursues, nofun⟩
  rintro ⟨⟩ w ⟨⟨marks, grown, pursues⟩, leaves⟩
  refine (proceeds_checkTermination reliable w).mono ?_
  rintro r w' (⟨rfl, rfl⟩ | ⟨rfl, x, rfl, -⟩)
  · exact ⟨⟨marks, grown, pursues⟩, leaves⟩
  · have whole : InOrder ((space.remaining v.ledger).take (space.remaining v.ledger).length) marks
        none := by simpa using pursues.inOrder
    exact ⟨⟨marks, grown, .stopped c.runId _ whole⟩, nofun⟩

/-- A visit of a space that is not completed. -/
theorem visit_stays {space : SpaceDefinition} {tasks : List TaskDefinition}
    (found : c.artifact.space? space.spaceId = some space) (known : c.tasksOf space = .ok tasks)
    {s : Session S} {v : Sight} (sees : c.Sees kept s v)
    (inside : v.ledger.control = some space.spaceId)
    (open_ : v.ledger.spaces space.spaceId ≠ some .completed) :
    c.Stays kept space.spaceId (space.remaining v.ledger) s ⟨.inside space.spaceId, v⟩
      ((do c.visit space; c.checkTermination : Activity S Unit) s) := by
  obtain ⟨answers, ms, w, comes, ⟨marks, grown, pursues⟩, leaves⟩ :=
    proceeds_visit_check reliable found known inside open_ s sees
  have same : ms.filterMap Moment.mark? = marks :=
    List.append_cancel_left ((marks_of_steps comes.trail).symm.trans grown)
  exact ⟨answers, ms, w, comes.tours nofun, same ▸ pursues, fun h => leaves () h⟩

/-- A completed space is forgotten and then visited as if it were new. -/
theorem visit_again_stays {space : SpaceDefinition} {tasks : List TaskDefinition}
    (found : c.artifact.space? space.spaceId = some space) (known : c.tasksOf space = .ok tasks)
    {s : Session S} {v : Sight} (sees : c.Sees kept s v)
    (inside : v.ledger.control = some space.spaceId) :
    c.Stays kept space.spaceId space.starts s ⟨.stale space.spaceId, v⟩
      ((do
        c.record (c.host.backend.resetSpace c.runId space.spaceId)
        c.visit space
        c.checkTermination : Activity S Unit) s) := by
  obtain ⟨s₁, x, recorded, answers, grown, sees₁, ledger⟩ :=
    update_eval reliable (fun _ x => x.resetSpace space.spaceId) sees (fun _ => rfl)
      (fun _ => v.record.ledger_resetSpace space.spaceId)
  have resets : c.record (c.host.backend.resetSpace c.runId space.spaceId) s = (.ok (), s₁) :=
    recorded
  have forgets : c.Tours kept s ⟨.stale space.spaceId, v⟩ s₁ [.moment (.wrote s₁.store)]
      ⟨.inside space.spaceId, v.withRecord x⟩ :=
    ⟨grown, sees₁, .single (.forgot sees₁.recordIn ledger)⟩
  have cleared : space.remaining (v.withRecord x).ledger = space.starts :=
    SpaceDefinition.remaining_eq_starts fun index => by simp [ledger, Ledger.reset]
  have stays := visit_stays reliable found known sees₁ (by
    rw [Sight.withRecord_ledger, ledger]
    exact inside) (by simp [ledger, Ledger.reset])
  rw [cleared] at stays
  obtain ⟨answers', ms, w, tours, pursues, leaves⟩ := stays
  rw [bind_eval, resets]
  exact ⟨answers'.trans answers, .wrote s₁.store :: ms, w, forgets.trans tours, pursues, leaves⟩

/-- What happens in a space that the run has come to: nothing, if a call goes on after its visit,
else a visit of what is due. A space that was visited before is forgotten first. -/
theorem visitOnce_stays {space : SpaceDefinition} {tasks : List TaskDefinition}
    (found : c.artifact.space? space.spaceId = some space) (known : c.tasksOf space = .ok tasks)
    (goesOn : Bool) {s : Session S} {v : Sight} (sees : c.Sees kept s v)
    (inside : v.ledger.control = some space.spaceId) :
    c.Stays kept space.spaceId (space.due goesOn v.ledger) s
      ⟨if goesOn = false ∧ v.ledger.spaces space.spaceId = some .completed then
        .stale space.spaceId else .inside space.spaceId, v⟩ (c.visitOnce space goesOn s) := by
  obtain ⟨n, asked⟩ := reads_isSpaceCompleted space.spaceId s sees.loads
  let s₁ : Session S := { s with readings := s.readings + n }
  have sees₁ : c.Sees kept s₁ v := ⟨sees.kept, sees.loads, sees.named⟩
  have evaluates : c.visitOnce space goesOn s =
      (if decide (v.ledger.spaces space.spaceId = some .completed) && goesOn then pure () else do
        if decide (v.ledger.spaces space.spaceId = some .completed) then
          c.record (c.host.backend.resetSpace c.runId space.spaceId)
        c.visit space
        c.checkTermination : Activity S Unit) s₁ := by
    rw [visitOnce, bind_eval, asked]
  rw [evaluates]
  refine Stays.of_history (s := s₁) ?_ rfl rfl
  by_cases completed : v.ledger.spaces space.spaceId = some .completed
  · cases goesOn with
    | true =>
      simp only [completed, decide_true, Bool.and_self, if_true, SpaceDefinition.due,
        Bool.true_eq_false, false_and, if_false]
      exact ⟨rfl, [], v, ⟨rfl, sees₁, .nil _⟩, .done () .done, fun _ => ⟨inside, completed⟩⟩
    | false =>
      simp only [completed, decide_true, Bool.and_false, Bool.false_eq_true, if_false, if_true,
        and_self, SpaceDefinition.due]
      exact visit_again_stays reliable found known sees₁ inside
  · simp only [completed, decide_false, Bool.false_and, Bool.false_eq_true, if_false, and_false,
      SpaceDefinition.due]
    exact visit_stays reliable found known sees₁ inside completed

end Strides

/-- The choice of the next space is told and asked for, and marks nothing. -/
theorem next_comes {space : String} {s : Session S} {v : Sight} (sees : c.Sees kept s v)
    (inside : v.ledger.control = some space) :
    ∃ s' ms, c.next space s = ((c.nextOn space s.answers).1, s') ∧
      s'.answers = (c.nextOn space s.answers).2 ∧ c.Comes kept s v s' ms v ∧
      ms.filterMap Moment.mark? = [] := by
  obtain ⟨s', chosen, answers, talks⟩ := next_eval (c := c) space s
  obtain ⟨ms, grown, talk⟩ := talks.said
  have sees' : c.Sees kept s' v := ⟨talks.store ▸ sees.kept, talks.store ▸ sees.loads, sees.named⟩
  refine ⟨s', ms, chosen, answers, ⟨grown, sees', ?_⟩, ?_⟩
  · refine Trail.loop fun m mem => ?_
    have said := talk m mem
    cases m with
    | told e store =>
      obtain ⟨rfl, prompt, rfl⟩ := said
      exact .told sees.recordIn rfl inside
    | printed text => exact .printed text
    | asked prompt => exact .asked prompt
    | wrote | launched | marked => cases said
  · refine List.filterMap_eq_nil_iff.2 fun m mem => ?_
    have said := talk m mem
    cases m <;> first | rfl | cases said

/-! ## From space to space -/

/-- What stops a call once it has come to a space: the failure of a task, a request for termination,
or a choice of the next space that cannot be made. -/
def Stops (c : Conduct S) (e : RunError) : Prop :=
  (∃ key, e.task? = some key) ∨ e.isTermination = true ∨
    ∃ space answers left, c.nextOn space answers = (.error e, left)

/-- How the way from a space ends: at the end of the graph, or somewhere before it. -/
structure Arrives (c : Conduct S) (current : String) (r : Except RunError Bool) (b : Stage) :
    Prop where
  settled : ∀ space, b.phase ≠ .stale space
  atEnd : r = .ok true → b.ledger.control = some endMark
  stops : ∀ e, r = .error e → c.Stops e ∨
    e = .unknownSpace current ∧ current ≠ endMark ∧ c.artifact.space? current = none

namespace Arrives

variable {current : String} {b : Stage}

theorem ended (settled : ∀ space, b.phase ≠ .stale space)
    (atEnd : b.ledger.control = some endMark) : c.Arrives current (.ok true) b :=
  ⟨settled, fun _ => atEnd, nofun⟩

theorem pending (settled : ∀ space, b.phase ≠ .stale space) : c.Arrives current (.ok false) b :=
  ⟨settled, nofun, nofun⟩

theorem failed {e : RunError} (settled : ∀ space, b.phase ≠ .stale space)
    (stops : c.Stops e ∨
      e = .unknownSpace current ∧ current ≠ endMark ∧ c.artifact.space? current = none) :
    c.Arrives current (.error e) b := by
  refine ⟨settled, nofun, ?_⟩
  rintro e' ⟨⟩
  exact stops

end Arrives

/-- The space that is chosen is declared, or it is the end. -/
theorem declared_of_nextOn (valid : c.artifact.validate = .ok ()) {space next : String}
    {answers left : Answers} (chosen : c.nextOn space answers = (.ok next, left)) :
    next = endMark ∨ (c.artifact.space? next).isSome := by
  rcases mem_of_nextOn chosen with rfl | ⟨t, mem, rfl⟩
  · exact .inl rfl
  · have declares := (Artifact.validate_eq_ok.1 valid).2.2 t mem
    simp only [Artifact.declares, Bool.and_eq_true, Bool.or_eq_true, beq_iff_eq] at declares
    exact declares.2.symm

/-- All of a space is due that a run in order comes to after another one. -/
theorem due_eq_starts {space : SpaceDefinition} {l : Ledger} (sound : Sound c.artifact l)
    (leaves : l.control = some space.spaceId → l.spaces space.spaceId = some .completed) :
    space.due false l = space.starts := by
  rw [SpaceDefinition.due]
  split
  · rfl
  · next open_ =>
    refine SpaceDefinition.remaining_eq_starts ?_
    exact (sound.tidy space.spaceId fun inside => open_ (leaves inside)).resolve_left open_

theorem agendaOn_eq {visits : Nat} {current before : String} {l : Ledger} {answers : Answers}
    (sound : Sound c.artifact l) (inside : l.control = some before)
    (completed : l.spaces before = some .completed) :
    c.agendaOn visits current false l answers =
      (c.itineraryOn visits current answers).flatMap (·.starts) := by
  rw [agendaOn]
  cases c.itineraryOn visits current answers with
  | nil => rfl
  | cons space rest =>
    have leaves (here : l.control = some space.spaceId) :
        l.spaces space.spaceId = some .completed := by
      cases inside.symm.trans here
      exact completed
    rw [dueThrough, due_eq_starts sound leaves, List.flatMap_cons]

/-- On the way from a space everything is due that is left to do there, and then what is due in the
spaces to which its choice leads. -/
theorem agendaOn_step (visits : Nat) (goesOn : Bool) (l : Ledger) (answers : Answers)
    {space : SpaceDefinition} (notEnd : space.spaceId ≠ endMark)
    (found : c.artifact.space? space.spaceId = some space) :
    ∃ rest, c.agendaOn (visits + 1) space.spaceId goesOn l answers = space.due goesOn l ++ rest ∧
      (∀ next left, c.nextOn space.spaceId answers = (.ok next, left) →
        rest = (c.itineraryOn visits next left).flatMap (·.starts)) ∧
      ∀ e left, c.nextOn space.spaceId answers = (.error e, left) → rest = [] := by
  rw [agendaOn, itineraryOn, if_neg notEnd, found]
  refine ⟨_, rfl, fun next left chosen => ?_, fun e left stuck => ?_⟩
  · rw [chosen]
  · rw [stuck]
    rfl

theorem traverse_step (visits : Nat) {current : String} (goesOn : Bool) {s s₁ : Session S}
    {space : SpaceDefinition} (notEnd : current ≠ endMark)
    (found : c.artifact.space? current = some space)
    (recorded : c.record (c.host.backend.enter c.runId current) s = (.ok (), s₁)) :
    c.traverse (visits + 1) current goesOn s =
      match c.visitOnce space goesOn s₁ with
      | (.error e, s₂) => (.error e, s₂)
      | (.ok (), s₂) =>
        match c.next current s₂ with
        | (.error e, s₃) => (.error e, s₃)
        | (.ok next, s₃) => c.traverse visits next false s₃ := by
  rw [traverse, if_neg notEnd, found]
  simp only [bind_eval, recorded]
  rcases c.visitOnce space goesOn s₁ with ⟨_ | ⟨⟨⟩⟩, s₂⟩
  · rfl
  · simp only
    rcases c.next current s₂ with ⟨_ | next, s₃⟩ <;> rfl

theorem tour_step (visits : Nat) {current : String} (goesOn : Bool) {s s₁ : Session S}
    {space : SpaceDefinition} (notEnd : current ≠ endMark)
    (found : c.artifact.space? current = some space)
    (recorded : c.record (c.host.backend.enter c.runId current) s = (.ok (), s₁)) :
    c.tour (visits + 1) current goesOn s = arrival goesOn current s₁.store ::
      (s₁.since (c.visitOnce space goesOn s₁).2).map .moment ++
        match c.visitOnce space goesOn s₁ with
        | (.error _, _) => []
        | (.ok (), s₂) => .left current :: (s₂.since (c.next current s₂).2).map .moment ++
          match c.next current s₂ with
          | (.error _, _) => []
          | (.ok next, s₃) => c.tour visits next false s₃ := by
  rw [tour, if_neg notEnd, found]
  simp only [recorded]
  rcases c.visitOnce space goesOn s₁ with ⟨_ | ⟨⟨⟩⟩, s₂⟩
  · rfl
  · simp only
    rcases c.next current s₂ with ⟨_ | next, s₃⟩ <;> rfl

/-- The way from a space comes to an end at a stage: its log is a trail to there, and if the record
was in order, what was due is carried out as far as the result says. -/
structure Ends (c : Conduct S) (kept : S → Prop) (visits : Nat) (current : String) (goesOn : Bool)
    (s : Session S) (a b : Stage) : Prop where
  tours : c.Tours kept s a (c.traverse visits current goesOn s).2
    (c.tour visits current goesOn s) b
  arrives : c.Arrives current (c.traverse visits current goesOn s).1 b
  carriedOut : a.Placed → Sound c.artifact a.ledger →
    CarriedOut (c.agendaOn visits current goesOn a.ledger s.answers)
      (marksIn (c.tour visits current goesOn s)) (c.traverse visits current goesOn s).1

theorem ComesTo.settled {a : Stage} {current : String} {goesOn : Bool}
    (h : ComesTo a current goesOn) (space : String) : a.phase ≠ .stale space := by
  cases h with
  | begins phase | resumes phase | chosen _ phase => simp [phase]

/-- A visit and the choice after it mark what the visit marks. -/
theorem marksIn_visit (goesOn : Bool) (space : String) (store : S) {ms ms' : List (Moment S)}
    (silent : ms'.filterMap Moment.mark? = []) (log : List (LogItem S)) :
    marksIn (arrival goesOn space store :: ms.map .moment ++
        (.left space :: ms'.map .moment ++ log)) =
      ms.filterMap Moment.mark? ++ marksIn log := by
  rw [List.cons_append, marksIn_arrival_cons, marksIn_append, marksIn_map]
  show _ ++ marksIn (ms'.map .moment ++ log) = _
  rw [marksIn_append, marksIn_map, silent, List.nil_append]

/-- A space that is completed is left, and the next one is chosen. -/
theorem leaving_tours {space : String} {s : Session S} {w : Sight} (sees : c.Sees kept s w)
    (inside : w.ledger.control = some space)
    (completed : w.ledger.spaces space = some .completed) :
    ∃ s' ms, c.next space s = ((c.nextOn space s.answers).1, s') ∧
      s'.answers = (c.nextOn space s.answers).2 ∧ s.since s' = ms ∧
      ms.filterMap Moment.mark? = [] ∧
      c.Tours kept s ⟨.inside space, w⟩ s' (.left space :: ms.map .moment)
        ⟨.between space, w⟩ := by
  obtain ⟨s', ms, chosen, answers, comes, silent⟩ := next_comes sees inside
  have leaves : c.Tours kept s ⟨.inside space, w⟩ s [.left space] ⟨.between space, w⟩ :=
    ⟨rfl, sees, .single (.left completed)⟩
  exact ⟨s', ms, chosen, answers, Session.since_eq _ comes.history, silent,
    leaves.trans (comes.tours nofun)⟩

section Traversing

variable (reliable : c.host.Reliable c.runId kept)

include reliable

/-- The end of the graph is recorded. -/
theorem traverse_tours_end (visits : Nat) {goesOn : Bool} {s : Session S} {a : Stage}
    (sees : c.Sees kept s a.sight) (comesTo : ComesTo a endMark goesOn) :
    ∃ b, c.Ends kept visits endMark goesOn s a b := by
  obtain ⟨p, v⟩ := a
  obtain ⟨s₁, x, recorded, answers, grown, sees₁, ledger⟩ := enter_eval reliable endMark sees
  have ends : c.traverse visits endMark goesOn s = (.ok true, s₁) := by
    cases visits <;> rw [traverse, if_pos rfl, bind_eval, recorded] <;> rfl
  have log : c.tour visits endMark goesOn s = [.moment (.wrote s₁.store)] := by
    cases visits <;>
      rw [tour, if_pos rfl, recorded, Session.since_eq [.wrote s₁.store] grown] <;> rfl
  have nothing : c.itineraryOn visits endMark s.answers = [] := by
    cases visits <;> rfl
  refine ⟨⟨p, v.withRecord x⟩, ?_, ?_, fun _ _ => ?_⟩
  · rw [ends, log]
    refine ⟨grown, sees₁, .single (.arrived ?_ sees₁.recordIn ledger)⟩
    cases comesTo with
    | begins phase nowhere => exact .inl ⟨phase, .inr nowhere⟩
    | resumes phase control => exact .inl ⟨phase, control⟩
    | chosen before phase inside completed => exact .inr ⟨before, phase, inside, completed⟩
  · rw [ends]
    refine .ended comesTo.settled ?_
    show (v.withRecord x).ledger.control = _
    rw [Sight.withRecord_ledger, ledger]
    rfl
  · rw [ends, log, agendaOn, nothing]
    exact .of_inOrder .done rfl

/-- A run comes to a space. -/
theorem arrival_tours {space : SpaceDefinition} {goesOn : Bool} {s : Session S} {a : Stage}
    (found : c.artifact.space? space.spaceId = some space) (sees : c.Sees kept s a.sight)
    (comesTo : ComesTo a space.spaceId goesOn) :
    ∃ s₁ x, c.record (c.host.backend.enter c.runId space.spaceId) s = (.ok (), s₁) ∧
      s₁.answers = s.answers ∧ x.ledger = a.ledger.enter space.spaceId ∧
      c.Tours kept s a s₁ [arrival goesOn space.spaceId s₁.store]
        ⟨if goesOn = false ∧ x.ledger.spaces space.spaceId = some .completed then
          .stale space.spaceId else .inside space.spaceId, ⟨x, []⟩⟩ := by
  obtain ⟨p, v⟩ := a
  obtain ⟨s₁, x, recorded, answers, grown, sees₁, ledger⟩ :=
    enter_eval reliable space.spaceId sees
  have known : (c.artifact.space? space.spaceId).isSome := by simp [found]
  have sees₂ : c.Sees kept s₁ ⟨x, []⟩ := ⟨sees₁.kept, sees₁.loads, sees₁.named⟩
  have spaces : x.ledger.spaces = v.ledger.spaces := by
    rw [ledger]
    rfl
  refine ⟨s₁, x, recorded, answers, ledger, ?_, sees₂, .single ?_⟩
  · cases goesOn <;> exact grown
  · rw [spaces]
    cases comesTo with
    | begins phase nowhere =>
      simpa [arrival] using Stride.entered (.inl ⟨phase, nowhere⟩) known sees₁.recordIn ledger
    | resumes phase control =>
      simp only at phase
      subst phase
      simpa [arrival] using Stride.returned control known sees₁.recordIn ledger
    | chosen before phase inside completed =>
      simpa [arrival] using
        Stride.entered (.inr ⟨before, phase, inside, completed⟩) known sees₁.recordIn ledger

/-- A run comes to a space and carries out what is due there. -/
theorem visit_tours {space : SpaceDefinition} {tasks : List TaskDefinition} {goesOn : Bool}
    {s : Session S} {a : Stage} (found : c.artifact.space? space.spaceId = some space)
    (known : c.tasksOf space = .ok tasks) (sees : c.Sees kept s a.sight)
    (comesTo : ComesTo a space.spaceId goesOn) :
    ∃ s₁ ms w, c.record (c.host.backend.enter c.runId space.spaceId) s = (.ok (), s₁) ∧
      (c.visitOnce space goesOn s₁).2.answers = s.answers ∧
      s₁.since (c.visitOnce space goesOn s₁).2 = ms ∧
      c.Tours kept s a (c.visitOnce space goesOn s₁).2
        (arrival goesOn space.spaceId s₁.store :: ms.map .moment) ⟨.inside space.spaceId, w⟩ ∧
      Pursues (space.due goesOn a.ledger) (ms.filterMap Moment.mark?)
        (c.visitOnce space goesOn s₁).1 ∧
      ((c.visitOnce space goesOn s₁).1 = .ok () → w.ledger.control = some space.spaceId ∧
        w.ledger.spaces space.spaceId = some .completed) := by
  obtain ⟨s₁, x, recorded, answers, ledger, arrives⟩ := arrival_tours reliable found sees comesTo
  obtain ⟨answers', ms, w, stays, pursues, leaves⟩ :=
    visitOnce_stays reliable found known goesOn arrives.sees (congrArg Ledger.control ledger)
  have due : space.due goesOn x.ledger = space.due goesOn a.ledger := by
    rw [ledger]
    rfl
  exact ⟨s₁, ms, w, recorded, answers'.trans answers,
    Session.since_eq ms (by simpa using stays.history), arrives.trans stays, due ▸ pursues, leaves⟩

variable (valid : c.artifact.validate = .ok ())

include valid

/-- One space of the way: it is visited, and after that the way goes on to the space that is chosen,
unless the visit or the choice fails. -/
theorem traverse_tours_space (visits : Nat) {space : SpaceDefinition} {goesOn : Bool}
    {s : Session S} {a : Stage} (notEnd : space.spaceId ≠ endMark)
    (found : c.artifact.space? space.spaceId = some space) (sees : c.Sees kept s a.sight)
    (comesTo : ComesTo a space.spaceId goesOn)
    (goes : ∀ {next : String} {s : Session S} {a : Stage}, c.Sees kept s a.sight →
      ComesTo a next false → ∃ b, c.Ends kept visits next false s a b) :
    ∃ b, c.Ends kept (visits + 1) space.spaceId goesOn s a b := by
  obtain ⟨tasks, known⟩ := tasksOf_of_validate valid found
  obtain ⟨s₁, ms, w, recorded, answers, moved, visited, pursues, leaves⟩ :=
    visit_tours reliable found known sees comesTo
  have log := tour_step visits goesOn notEnd found recorded
  have ends := traverse_step visits goesOn notEnd found recorded
  obtain ⟨rest, agenda, chooses, stuck⟩ :=
    c.agendaOn_step visits goesOn a.ledger s.answers notEnd found
  rw [moved] at log
  generalize c.visitOnce space goesOn s₁ = result at *
  obtain ⟨_ | ⟨⟨⟩⟩, s₂⟩ := result
  · -- The visit does not come to its end.
    next e =>
    refine ⟨⟨.inside space.spaceId, w⟩, ?_, ?_, fun _ _ => ?_⟩ <;> rw [ends]
    · simpa [log] using visited
    · refine .failed (by simp) ?_
      cases pursues with
      | failed named => exact .inl (.inl ⟨_, named⟩)
      | stopped => exact .inl (.inr (.inl rfl))
    · rw [log, agenda, List.append_nil, marksIn_arrival_cons, marksIn_map]
      exact .of_error pursues.extend
  obtain ⟨control, completed⟩ := leaves rfl
  obtain ⟨s₃, ms', chosen, left_, moved', silent, leaving⟩ :=
    leaving_tours visited.sees control completed
  have there := visited.trans leaving
  rw [answers] at chosen left_
  simp only [chosen, moved'] at log ends
  rcases decided : c.nextOn space.spaceId s.answers with ⟨e | next, left⟩ <;>
    simp only [decided] at log ends left_
  · -- There is no way on from the space.
    refine ⟨⟨.between space.spaceId, w⟩, ?_, ?_, fun _ _ => ?_⟩ <;> rw [ends]
    · simpa [log] using there
    · exact .failed (by simp) (.inl (.inr (.inr ⟨_, _, _, decided⟩)))
    · rw [log, marksIn_visit goesOn space.spaceId s₁.store silent, agenda, stuck e left decided]
      refine CarriedOut.of_inOrder ?_ (error_of_nextOn decided).1
      simpa [marksIn, momentsIn] using pursues.inOrder
  · have comesTo : ComesTo ⟨.between space.spaceId, w⟩ next false :=
      .chosen space.spaceId rfl control completed
    obtain ⟨b, onward, arrives, carried⟩ := goes there.sees comesTo
    refine ⟨b, ?_, ?_, fun placed sound => ?_⟩ <;> rw [ends]
    · simpa [log] using there.trans onward
    · refine ⟨arrives.settled, arrives.atEnd, fun e failed => ?_⟩
      rcases arrives.stops e failed with stops | ⟨-, further, unknown⟩
      · exact .inl stops
      · rcases declared_of_nextOn valid decided with rfl | declared
        · exact absurd rfl further
        · simp [unknown] at declared
    · obtain ⟨placed', sound'⟩ := Stride.sound_of_trail there.trail placed sound
      have later := carried placed' sound'
      rw [agendaOn_eq sound' control completed, left_] at later
      rw [log, marksIn_visit goesOn space.spaceId s₁.store silent, agenda,
        chooses next left decided]
      exact .append pursues.inOrder later

/-- The way to the end comes to an end, from any stage at which the run comes to a space. -/
theorem traverse_tours (visits : Nat) {current : String} {goesOn : Bool} {s : Session S} {a : Stage}
    (sees : c.Sees kept s a.sight) (comesTo : ComesTo a current goesOn) :
    ∃ b, c.Ends kept visits current goesOn s a b := by
  induction visits generalizing current goesOn s a with
  | zero =>
    by_cases atEnd : current = endMark
    · subst atEnd
      exact traverse_tours_end reliable 0 sees comesTo
    · refine ⟨a, ?_, ?_, fun _ _ => ?_⟩ <;> rw [traverse, if_neg atEnd]
      · rw [tour, if_neg atEnd]
        exact .refl sees
      · exact .pending comesTo.settled
      · rw [tour, if_neg atEnd]
        exact .of_inOrder .done rfl
  | succ visits ih =>
    by_cases atEnd : current = endMark
    · subst atEnd
      exact traverse_tours_end reliable (visits + 1) sees comesTo
    cases found : c.artifact.space? current with
    | none =>
      refine ⟨a, ?_, ?_, fun _ _ => ?_⟩ <;> rw [traverse, if_neg atEnd, found]
      · rw [tour, if_neg atEnd, found]
        exact .refl sees
      · exact .failed comesTo.settled (.inr ⟨rfl, atEnd, found⟩)
      · rw [tour, if_neg atEnd, found, agendaOn, itineraryOn, if_neg atEnd, found]
        exact .of_inOrder .done rfl
    | some space =>
      obtain rfl := Artifact.space?_spaceId found
      exact traverse_tours_space reliable valid visits atEnd found sees comesTo ih

end Traversing

end Conduct

end Sweep
