import Sweep.Proofs.Run.Standing

/-!
# The next space as a function of the answers

The choice of the next space looks at the answers that are left and at nothing else of a session. It
uses answers up and talks: it prints, asks and tells of prompts, but it neither looks at the record
nor does it add a deed.
-/

namespace Sweep.Conduct

variable {S : Type} (c : Conduct S)

def answerOn (space : String) (condition : Condition) (target : String) (answers : Answers) :
    Except RunError (Option String) × Answers :=
  match condition.placeholder with
  | none => (.ok none, answers)
  | some name =>
    let (answer, left) := answers.next (promptFor space name condition target)
    ((answer.mapError .noAnswer).map some, left)

def holdsOn (space text target : String) (answers : Answers) :
    Except RunError Bool × Answers :=
  match Condition.parse text with
  | .error e => (.error (.invalidCondition space text e), answers)
  | .ok condition =>
    match answerOn space condition target answers with
    | (.ok answer, left) =>
      ((condition.evaluate answer).mapError (.invalidCondition space text), left)
    | (.error e, left) => (.error e, left)

/-- The first transition that can be taken on the answers that are left. -/
def chooseOn (space : String) : List Transition → Answers → Except RunError String × Answers
  | [], answers => (.error (.noTransition space), answers)
  | t :: rest, answers =>
    match t.condition with
    | none => (.ok t.target, answers)
    | some text =>
      match holdsOn space text t.target answers with
      | (.ok true, left) => (.ok t.target, left)
      | (.ok false, left) => chooseOn space rest left
      | (.error e, left) => (.error e, left)

def nextOn (space : String) (answers : Answers) : Except RunError String × Answers :=
  match c.artifact.control.outgoing space with
  | [] => (.ok endMark, answers)
  | transitions => chooseOn space transitions answers

/-- Whether a moment is part of the talk about the way on from a space, while the store is this. -/
def IsTalk (space : String) (store : S) : Moment S → Prop
  | .printed _ | .asked _ => True
  | .told e found => found = store ∧ ∃ prompt, e = .inputRequired c.runId space prompt
  | _ => False

/-- Between two moments of a session there was only talk about the way on from a space. -/
structure Talks (space : String) (s s' : Session S) : Prop where
  store : s'.store = s.store
  readings : s'.readings = s.readings
  calm : c.host.Calm → s.terminating = false → s'.terminating = false
  said : ∃ ms : List (Moment S), s'.history = ms.reverse ++ s.history ∧
    ∀ m ∈ ms, c.IsTalk space s.store m

variable {c} {kept : S → Prop} {space : String}

theorem IsTalk.deed?_eq {store : S} {m : Moment S} (h : c.IsTalk space store m) :
    m.deed? = none := by
  cases m <;> first | rfl | cases h

theorem Talks.refl (s : Session S) : c.Talks space s s :=
  ⟨rfl, rfl, fun _ h => h, [], rfl, nofun⟩

theorem Talks.trans {s s' s'' : Session S} (h : c.Talks space s s') (h' : c.Talks space s' s'') :
    c.Talks space s s'' := by
  obtain ⟨ms, grown, talk⟩ := h.said
  obtain ⟨ms', grown', talk'⟩ := h'.said
  refine ⟨h'.store.trans h.store, h'.readings.trans h.readings,
    fun calm fresh => h'.calm calm (h.calm calm fresh), ms ++ ms', ?_, ?_⟩
  · rw [grown', grown, List.reverse_append, List.append_assoc]
  · intro m mem
    rcases List.mem_append.1 mem with first | second
    · exact talk m first
    · exact h.store ▸ talk' m second

theorem Talks.deeds {s s' : Session S} (h : c.Talks space s s') : s'.deeds = s.deeds := by
  obtain ⟨ms, grown, talk⟩ := h.said
  have silent : ms.filterMap Moment.deed? = [] :=
    List.filterMap_eq_nil_iff.2 fun m mem => (talk m mem).deed?_eq
  rw [Session.deeds, grown, List.reverse_append, List.reverse_reverse, List.filterMap_append,
    silent, List.append_nil, Session.deeds]

theorem talks_note (m : Moment S) {s : Session S} (talk : c.IsTalk space s.store m) :
    c.Talks space s (c.note m s).2 := by
  refine ⟨rfl, rfl, ?_, [m], rfl, fun m' mem => List.mem_singleton.1 mem ▸ talk⟩
  intro calm fresh
  simp [note_eval, fresh, calm (m :: s.history)]

/-- An answer, or the failure of a run that gets none. -/
def answerOrStop : Except AnswerFault String → Activity S String
  | .ok answer => return answer
  | .error fault => throw (.noAnswer fault)

/-- To ask uses an answer up. -/
theorem ask_eval (prompt : String) (s : Session S) :
    ∃ s', c.ask prompt s = ((s.answers.next prompt).1.mapError .noAnswer, s') ∧
      s'.answers = (s.answers.next prompt).2 ∧ c.Talks space s s' := by
  let drawn : Session S := { s with answers := (s.answers.next prompt).2 }
  have start : c.Talks space s drawn := ⟨rfl, rfl, fun _ h => h, [], rfl, nofun⟩
  have finish (s' : Session S) : (do
      c.note (.asked prompt)
      answerOrStop (s.answers.next prompt).1 : Activity S String) s' =
      ((s.answers.next prompt).1.mapError .noAnswer, (c.note (.asked prompt) s').2) := by
    cases (s.answers.next prompt).1 <;> rfl
  have unfolded : c.ask prompt s = (do
      unless (s.answers.shown prompt).isEmpty do c.note (.printed (s.answers.shown prompt))
      c.note (.asked prompt)
      answerOrStop (s.answers.next prompt).1 : Activity S String) drawn := rfl
  rw [unfolded]
  cases quiet : (s.answers.shown prompt).isEmpty
  · exact ⟨_, finish (c.note (.printed (s.answers.shown prompt)) drawn).2, rfl,
      start.trans ((talks_note (.printed _) trivial).trans (talks_note (.asked _) trivial))⟩
  · exact ⟨_, finish drawn, rfl, start.trans (talks_note (.asked _) trivial)⟩

theorem answerFor_eval (space : String) (condition : Condition) (target : String)
    (s : Session S) :
    ∃ s', c.answerFor space condition target s =
        ((answerOn space condition target s.answers).1, s') ∧
      s'.answers = (answerOn space condition target s.answers).2 ∧ c.Talks space s s' := by
  rw [Conduct.answerFor, answerOn]
  cases condition.placeholder with
  | none => exact ⟨s, rfl, rfl, .refl s⟩
  | some name =>
    let prompt := promptFor space name condition target
    let told := (c.note (.told (.inputRequired c.runId space prompt) s.store) s).2
    obtain ⟨s', asked, answers, talks⟩ := ask_eval (c := c) prompt told
    refine ⟨s', ?_, answers, (talks_note (.told _ _) ⟨rfl, prompt, rfl⟩).trans talks⟩
    have emitted : c.emit (.inputRequired c.runId space prompt) s = (.ok (), told) := rfl
    have same : told.answers = s.answers := rfl
    show (c.emit (.inputRequired c.runId space prompt) >>= fun _ => do
      return some (← c.ask prompt) : Activity S (Option String)) s =
      (((s.answers.next prompt).1.mapError RunError.noAnswer).map some, s')
    rw [bind_eval, emitted]
    simp only [bind_eval]
    rw [asked, same]
    cases (s.answers.next prompt).1 <;> rfl

theorem holds_eval (space text target : String) (s : Session S) :
    ∃ s', c.holds space text target s = ((holdsOn space text target s.answers).1, s') ∧
      s'.answers = (holdsOn space text target s.answers).2 ∧ c.Talks space s s' := by
  rw [Conduct.holds, holdsOn]
  cases Condition.parse text with
  | error e => exact ⟨s, rfl, rfl, .refl s⟩
  | ok condition =>
    obtain ⟨s', answered, answers, talks⟩ := answerFor_eval (c := c) space condition target s
    refine ⟨s', ?_, ?_, talks⟩
    · simp only [bind_eval, answered]
      rcases answerOn space condition target s.answers with ⟨_ | answer, left⟩
      · rfl
      · simp only
        cases condition.evaluate answer <;> rfl
    · rw [answers]
      simp only
      split <;> simp_all

theorem choose_eval (space : String) (transitions : List Transition) (s : Session S) :
    ∃ s', c.choose space transitions s = ((chooseOn space transitions s.answers).1, s') ∧
      s'.answers = (chooseOn space transitions s.answers).2 ∧ c.Talks space s s' := by
  induction transitions generalizing s with
  | nil => exact ⟨s, rfl, rfl, .refl s⟩
  | cons t rest ih =>
    rw [Conduct.choose, chooseOn]
    cases t.condition with
    | none => exact ⟨s, rfl, rfl, .refl s⟩
    | some text =>
      obtain ⟨s', held, answers, talks⟩ := holds_eval (c := c) space text t.target s
      simp only [bind_eval, held]
      rcases decided : holdsOn space text t.target s.answers with ⟨_ | holds, left⟩ <;>
        rw [decided] at answers
      · exact ⟨s', rfl, answers, talks⟩
      · cases holds
        · obtain ⟨s'', chosen, answers', talks'⟩ := ih s'
          rw [answers] at chosen answers'
          exact ⟨s'', chosen, answers', talks.trans talks'⟩
        · exact ⟨s', rfl, answers, talks⟩

/-- The choice of the next space depends on the answers that are left, and it only talks. -/
theorem next_eval (space : String) (s : Session S) :
    ∃ s', c.next space s = ((c.nextOn space s.answers).1, s') ∧
      s'.answers = (c.nextOn space s.answers).2 ∧ c.Talks space s s' := by
  rw [Conduct.next, nextOn]
  cases c.artifact.control.outgoing space with
  | nil => exact ⟨s, rfl, rfl, .refl s⟩
  | cons t rest => exact choose_eval space (t :: rest) s

theorem Talks.keeps {s s' : Session S} {snapshot : RunSnapshot} (h : c.Talks space s s')
    (keeps : c.Keeps kept s snapshot) : c.Keeps kept s' snapshot := by
  refine ⟨h.store ▸ keeps.kept, h.store ▸ keeps.loads, keeps.named, ?_, ?_⟩
  · intro steady m mem k later
    exact keeps.ahead steady m mem k (h.readings ▸ later)
  · intro calm
    exact h.calm calm (keeps.calm calm)

theorem yields_next (space : String) (v : Standing) :
    c.Yields kept (c.next space) v (c.nextOn space v.answers).1
      { v with answers := (c.nextOn space v.answers).2 } := by
  rintro s ⟨snapshot, keeps, rfl⟩
  obtain ⟨s', chosen, answers, talks⟩ := next_eval (c := c) space s
  rw [chosen]
  refine ⟨_, ⟨snapshot, talks.keeps keeps, rfl⟩, rfl, ?_⟩
  simp only [Standing.mk.injEq, true_and]
  exact ⟨answers, talks.deeds⟩

/-- A transition that is chosen leaves its space. -/
theorem mem_of_chooseOn {space target : String} {transitions : List Transition}
    {answers left : Answers} (h : chooseOn space transitions answers = (.ok target, left)) :
    ∃ t ∈ transitions, t.target = target := by
  induction transitions generalizing answers with
  | nil => cases h
  | cons t rest ih =>
    rw [chooseOn] at h
    cases hc : t.condition with
    | none =>
      rw [hc] at h
      cases h
      exact ⟨t, List.mem_cons_self, rfl⟩
    | some text =>
      rw [hc] at h
      simp only at h
      split at h
      · cases h
        exact ⟨t, List.mem_cons_self, rfl⟩
      · obtain ⟨u, mem, same⟩ := ih h
        exact ⟨u, List.mem_cons_of_mem _ mem, same⟩
      · cases h

/-- The space that follows is the end or the target of a transition of the graph. -/
theorem mem_of_nextOn {space target : String} {answers left : Answers}
    (h : c.nextOn space answers = (.ok target, left)) :
    target = endMark ∨ ∃ t ∈ c.artifact.control.transitions, t.target = target := by
  rw [nextOn] at h
  split at h
  · cases h
    exact .inl rfl
  · obtain ⟨t, mem, same⟩ := mem_of_chooseOn h
    exact .inr ⟨t, (List.mem_filter.1 mem).1, same⟩

/-! ## Choices that cannot be made -/

/-- Why no space can be chosen after a space by some transitions: none of them can be taken, there
is no answer, or the condition of one cannot be read. -/
inductive NoChoice (space : String) (transitions : List Transition) : RunError → Prop
  | noTransition : NoChoice space transitions (.noTransition space)
  | noAnswer (fault : AnswerFault) : NoChoice space transitions (.noAnswer fault)
  | invalid {t : Transition} {text : String} {cause : ConditionError} : t ∈ transitions →
      t.condition = some text → Condition.parse text = .error cause →
      NoChoice space transitions (.invalidCondition space text cause)

theorem NoChoice.mono {transitions more : List Transition} {e : RunError}
    (h : NoChoice space transitions e) (sub : transitions ⊆ more) : NoChoice space more e := by
  cases h with
  | noTransition => exact .noTransition
  | noAnswer fault => exact .noAnswer fault
  | invalid mem text failed => exact .invalid (sub mem) text failed

theorem error_of_answerOn {condition : Condition} {target : String} {answers left : Answers}
    {e : RunError} (h : answerOn space condition target answers = (.error e, left)) :
    ∃ fault, e = .noAnswer fault := by
  rw [answerOn] at h
  split at h
  · cases h
  · next name _ =>
    rcases drawn : answers.next (promptFor space name condition target) with ⟨_ | _, _⟩ <;>
      rw [drawn] at h <;> cases h
    exact ⟨_, rfl⟩

/-- A condition has a value on the answer that it asks for. -/
theorem evaluate_of_answerOn {condition : Condition} {target : String} {answers left : Answers}
    {answer : Option String} (h : answerOn space condition target answers = (.ok answer, left)) :
    ∃ verdict, condition.evaluate answer = .ok verdict := by
  rw [answerOn] at h
  rw [Condition.evaluate.eq_def]
  cases named : condition.placeholder with
  | none => exact ⟨_, rfl⟩
  | some name =>
    rw [named] at h
    rcases drawn : answers.next (promptFor space name condition target) with ⟨_ | _, _⟩ <;>
      simp only [drawn] at h <;> cases h
    exact ⟨_, rfl⟩

theorem error_of_holdsOn {text target : String} {answers left : Answers} {e : RunError}
    (h : holdsOn space text target answers = (.error e, left)) :
    (∃ fault, e = .noAnswer fault) ∨
      ∃ cause, Condition.parse text = .error cause ∧ e = .invalidCondition space text cause := by
  rw [holdsOn] at h
  split at h
  · next cause unread =>
    cases h
    exact .inr ⟨cause, unread, rfl⟩
  split at h
  · next answered =>
    obtain ⟨verdict, value⟩ := evaluate_of_answerOn answered
    rw [value] at h
    cases h
  · next unanswered =>
    cases h
    exact .inl (error_of_answerOn unanswered)

theorem error_of_chooseOn {transitions : List Transition} {answers left : Answers} {e : RunError}
    (h : chooseOn space transitions answers = (.error e, left)) :
    NoChoice space transitions e := by
  induction transitions generalizing answers with
  | nil =>
    cases h
    exact .noTransition
  | cons t rest ih =>
    rw [chooseOn] at h
    split at h
    · cases h
    next text conditional =>
    split at h
    · cases h
    · exact (ih h).mono (List.subset_cons_self t rest)
    · next failed =>
      cases h
      rcases error_of_holdsOn failed with ⟨fault, rfl⟩ | ⟨cause, unread, rfl⟩
      · exact .noAnswer fault
      · exact .invalid List.mem_cons_self conditional unread

theorem noChoice_of_nextOn {answers left : Answers} {e : RunError}
    (h : c.nextOn space answers = (.error e, left)) :
    NoChoice space c.artifact.control.transitions e := by
  rw [nextOn] at h
  split at h
  · cases h
  · exact (error_of_chooseOn h).mono (fun _ mem => (List.mem_filter.1 mem).1)

end Sweep.Conduct
