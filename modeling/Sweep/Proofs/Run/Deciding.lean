import Sweep.Repository.Memory
import Sweep.Proofs.Run.Choice
import Sweep.Proofs.Condition.Literal
import Mathlib.Data.List.Forall2

/-!
# How the next space is decided

The transitions of a space are looked at in their order. Each one is taken or refused on answers of
its own: on one new answer if its condition has a placeholder, and on none otherwise. The first one
that is not refused is taken, and those behind it are not looked at. So the answers that are used up
and the events that are told belong to the transitions that were looked at, one to one.
-/

namespace Sweep.Conduct

variable {S : Type} (c : Conduct S)

/-- A transition is taken or refused on the answers that it uses up. -/
inductive Verdict (t : Transition) : List String → Bool → Prop
  | unconditioned : t.condition = none → Verdict t [] true
  | constant {text : String} {condition : Condition} {verdict : Bool} :
      t.condition = some text → Condition.parse text = .ok condition →
      condition.placeholder = none → condition.evaluate none = .ok verdict → Verdict t [] verdict
  | answered {text name answer : String} {condition : Condition} {verdict : Bool} :
      t.condition = some text → Condition.parse text = .ok condition →
      condition.placeholder = some name → condition.evaluate (some answer) = .ok verdict →
      Verdict t [answer] verdict

def question? (space : String) (t : Transition) : Option String := do
  let text ← t.condition
  let condition ← (Condition.parse text).toOption
  let name ← condition.placeholder
  return promptFor space name condition t.target

/-- All transitions are refused, each one on answers of its own, and these are the answers used up
altogether. -/
def Refused (transitions : List Transition) (used : List String) : Prop :=
  ∃ uses, List.Forall₂ (Verdict · · false) transitions uses ∧ used = uses.flatten

/-- How looking at transitions in their order ends: which ones are looked at and which are not, what
is left of the answers, and what comes of it. -/
inductive Decided (space : String) : List Transition → List Transition → List String →
    List String → Except RunError String → Prop
  | taken {refused later : List Transition} {t : Transition} {used use left : List String} :
      Refused refused used → Verdict t use true →
      Decided space (refused ++ [t]) later (used ++ (use ++ left)) left (.ok t.target)
  | allRefused {refused : List Transition} {used left : List String} :
      Refused refused used →
      Decided space refused [] (used ++ left) left (.error (.noTransition space))
  | unanswered {refused later : List Transition} {t : Transition} {used : List String}
      {prompt : String} :
      Refused refused used → question? space t = some prompt →
      Decided space (refused ++ [t]) later used [] (.error (.noAnswer (.noneLeft prompt)))

/-- What happens when a transition is looked at: listeners are told of its prompt, and an answer is
asked for. -/
def inquiry (space : String) (store : S) (t : Transition) : List (Moment S) :=
  match question? space t with
  | none => []
  | some prompt => [.told (.inputRequired c.runId space prompt) store, .asked prompt]

/-- Between two states of a session some transitions were looked at, and nothing else was done. -/
structure LooksAt (space : String) (examined : List Transition) (s s' : Session S) : Prop where
  store : s'.store = s.store
  readings : s'.readings = s.readings
  history : s'.history = (examined.flatMap (c.inquiry space s.store)).reverse ++ s.history

variable {c} {space : String}

namespace LooksAt

theorem refl (s : Session S) : c.LooksAt space [] s s := ⟨rfl, rfl, rfl⟩

theorem trans {before after : List Transition} {s s' s'' : Session S}
    (first : c.LooksAt space before s s') (second : c.LooksAt space after s' s'') :
    c.LooksAt space (before ++ after) s s'' := by
  refine ⟨second.store.trans first.store, second.readings.trans first.readings, ?_⟩
  rw [second.history, first.history, first.store, List.flatMap_append, List.reverse_append,
    List.append_assoc]

/-- A transition that does not ask leaves no trace. -/
theorem silent {t : Transition} (quiet : question? space t = none) (s : Session S) :
    c.LooksAt space [t] s s := by
  refine ⟨rfl, rfl, ?_⟩
  simp [inquiry, quiet]

end LooksAt

/-- What is found in the inquiries about transitions, one thing for each of those that ask. -/
theorem filterMap_inquiry {α : Type} {store : S} {look : Moment S → Option α} {found : String → α}
    (one : ∀ prompt, [.told (.inputRequired c.runId space prompt) store,
      .asked prompt].filterMap look = [found prompt]) (examined : List Transition) :
    (examined.flatMap (c.inquiry space store)).filterMap look =
      (examined.filterMap (question? space)).map found := by
  induction examined with
  | nil => rfl
  | cons t examined ih =>
    rw [List.flatMap_cons, List.filterMap_append, ih, List.filterMap_cons, inquiry]
    cases question? space t with
    | none => rfl
    | some prompt => exact congrArg (· ++ _) (one prompt)

/-- Every transition that asks is told of once, and no other one is. -/
theorem LooksAt.events {examined : List Transition} {s s' : Session S}
    (looks : c.LooksAt space examined s s') : s'.events =
      s.events ++ (examined.filterMap (question? space)).map (.inputRequired c.runId space) := by
  rw [Session.events, looks.history, List.reverse_append, List.reverse_reverse,
    List.filterMap_append]
  exact congrArg (s.events ++ ·) (filterMap_inquiry (fun _ => rfl) examined)

theorem LooksAt.prompts {examined : List Transition} {s s' : Session S}
    (looks : c.LooksAt space examined s s') :
    s'.prompts = s.prompts ++ examined.filterMap (question? space) := by
  rw [Session.prompts, looks.history, List.reverse_append, List.reverse_reverse,
    List.filterMap_append, ← List.map_id (examined.filterMap (question? space))]
  exact congrArg (s.prompts ++ ·) (filterMap_inquiry (fun _ => rfl) examined)

/-! ## One transition -/

section OneTransition

variable {t : Transition} {text : String} {condition : Condition}

theorem question?_of_unconditioned (free : t.condition = none) : question? space t = none := by
  rw [question?, free]
  rfl

theorem question?_of_parse (conditional : t.condition = some text)
    (read : Condition.parse text = .ok condition) :
    question? space t = condition.placeholder.map (promptFor space · condition t.target) := by
  rw [question?, conditional]
  simp only [Option.bind_eq_bind, Option.bind_some, read, Except.toOption]
  cases condition.placeholder <;> rfl

variable (c space)

/-- Nothing is asked about a condition without placeholder. -/
theorem holds_constant (conditional : t.condition = some text)
    (read : Condition.parse text = .ok condition) (constant : condition.placeholder = none)
    (s : Session S) : ∃ verdict, Verdict t [] verdict ∧
      c.holds space text t.target s = (.ok verdict, s) := by
  obtain ⟨verdict, value⟩ : ∃ verdict, condition.evaluate none = .ok verdict := by
    rw [Condition.evaluate.eq_def, constant]
    exact ⟨_, rfl⟩
  have answered : c.answerFor space condition t.target s = (.ok none, s) := by
    rw [answerFor, constant]
    rfl
  refine ⟨verdict, .constant conditional read constant value, ?_⟩
  rw [Conduct.holds, read]
  simp only [bind_eval, answered, value]
  rfl

/-- To ask for an answer of a list uses it up. -/
theorem ask_scripted (prompt : String) {s : Session S} {answers : List String}
    (scripted : s.answers = .scripted answers) :
    ∃ s', c.ask prompt s =
        (((Answers.scripted answers).next prompt).1.mapError .noAnswer, s') ∧
      s'.answers = ((Answers.scripted answers).next prompt).2 ∧ s'.store = s.store ∧
      s'.readings = s.readings ∧ s'.history = .asked prompt :: s.history := by
  obtain ⟨store, _, readings, history, terminating⟩ := s
  subst scripted
  cases answers <;> exact ⟨_, rfl, rfl, rfl, rfl, rfl⟩

/-- A transition whose condition has a placeholder is told of and asked about once. -/
theorem answerFor_scripted {name : String} (conditional : t.condition = some text)
    (read : Condition.parse text = .ok condition) (named : condition.placeholder = some name)
    {s : Session S} {answers : List String} (scripted : s.answers = .scripted answers) :
    ∃ s', c.answerFor space condition t.target s =
        ((((Answers.scripted answers).next (promptFor space name condition t.target)).1.mapError
          RunError.noAnswer).map some, s') ∧
      s'.answers = ((Answers.scripted answers).next
        (promptFor space name condition t.target)).2 ∧
      c.LooksAt space [t] s s' := by
  let prompt := promptFor space name condition t.target
  let told := (c.note (.told (.inputRequired c.runId space prompt) s.store) s).2
  have emitted : c.emit (.inputRequired c.runId space prompt) s = (.ok (), told) := rfl
  have asks : question? space t = some prompt := by
    rw [question?_of_parse conditional read, named]
    rfl
  obtain ⟨s', asked, left, store, readings, history⟩ :=
    c.ask_scripted prompt (s := told) scripted
  refine ⟨s', ?_, left, store, readings, ?_⟩
  · have unfolded : c.answerFor space condition t.target s = (do
        c.emit (.inputRequired c.runId space prompt)
        return some (← c.ask prompt) : Activity S (Option String)) s := by rw [answerFor, named]
    rw [unfolded]
    simp only [bind_eval, emitted, asked]
    cases ((Answers.scripted answers).next prompt).1 <;> rfl
  · rw [history]
    simp [inquiry, asks, told, note_eval, prompt]

/-- A condition with a placeholder is evaluated on the next answer. -/
theorem holds_answered {name answer : String} {left : List String}
    (conditional : t.condition = some text) (read : Condition.parse text = .ok condition)
    (named : condition.placeholder = some name) {s : Session S}
    (scripted : s.answers = .scripted (answer :: left)) :
    ∃ verdict s', Verdict t [answer] verdict ∧
      c.holds space text t.target s = (.ok verdict, s') ∧ s'.answers = .scripted left ∧
      c.LooksAt space [t] s s' := by
  obtain ⟨verdict, value⟩ : ∃ verdict, condition.evaluate (some answer) = .ok verdict := by
    rw [Condition.evaluate.eq_def, named]
    exact ⟨_, rfl⟩
  obtain ⟨s', answered, rest, looks⟩ :=
    c.answerFor_scripted space conditional read named scripted
  refine ⟨verdict, s', .answered conditional read named value, ?_, rest, looks⟩
  rw [Conduct.holds, read]
  simp only [bind_eval, answered, Answers.next, Except.mapError, Except.map, value]
  rfl

/-- A condition with a placeholder cannot be evaluated without an answer. -/
theorem holds_unanswered {name : String} (conditional : t.condition = some text)
    (read : Condition.parse text = .ok condition) (named : condition.placeholder = some name)
    {s : Session S} (scripted : s.answers = .scripted []) :
    ∃ prompt s', question? space t = some prompt ∧
      c.holds space text t.target s = (.error (.noAnswer (.noneLeft prompt)), s') ∧
      s'.answers = .scripted [] ∧ c.LooksAt space [t] s s' := by
  obtain ⟨s', failed, rest, looks⟩ :=
    c.answerFor_scripted space conditional read named scripted
  refine ⟨promptFor space name condition t.target, s', ?_, ?_, rest, looks⟩
  · rw [question?_of_parse conditional read, named]
    rfl
  · rw [Conduct.holds, read]
    simp only [bind_eval, failed, Answers.next, Except.mapError, Except.map]

end OneTransition

/-! ## All transitions -/

theorem Refused.nil : Refused [] [] := ⟨[], .nil, rfl⟩

theorem Refused.cons {t : Transition} {use used : List String} {refused : List Transition}
    (first : Verdict t use false) (more : Refused refused used) :
    Refused (t :: refused) (use ++ used) := by
  obtain ⟨uses, verdicts, rfl⟩ := more
  exact ⟨use :: uses, .cons first verdicts, rfl⟩

/-- A transition that is refused comes before what is decided behind it. -/
theorem Decided.cons {t : Transition} {use answers left : List String}
    {examined later : List Transition} {result : Except RunError String}
    (first : Verdict t use false) (more : Decided space examined later answers left result) :
    Decided space (t :: examined) later (use ++ answers) left result := by
  cases more with
  | taken refused taken =>
    rw [← List.append_assoc]
    exact .taken (refused.cons first) taken
  | allRefused refused =>
    rw [← List.append_assoc]
    exact .allRefused (refused.cons first)
  | unanswered refused asks => exact .unanswered (refused.cons first) asks

theorem Decided.taken_first {t : Transition} {later : List Transition} {use left : List String}
    (taken : Verdict t use true) : Decided space [t] later (use ++ left) left (.ok t.target) :=
  .taken .nil taken

/-! ## What is decided is determined -/

section Uniqueness

variable {t : Transition} {use use' left left' answers answers' : List String}
  {examined examined' later later' : List Transition} {result result' : Except RunError String}

/-- An answer is used up exactly if it has been asked for. -/
theorem Verdict.length_use (space : String) {verdict : Bool} (h : Verdict t use verdict) :
    use.length = (question? space t).toList.length := by
  cases h with
  | unconditioned free => rw [question?_of_unconditioned free]; rfl
  | constant given read named => rw [question?_of_parse given read, named]; rfl
  | answered given read named => rw [question?_of_parse given read, named]; rfl

theorem Verdict.unique {verdict verdict' : Bool} (one : Verdict t use verdict)
    (other : Verdict t use verdict') : verdict = verdict' := by
  cases one with
  | unconditioned free =>
    cases other with
    | unconditioned => rfl
    | constant given => exact absurd (free.symm.trans given) nofun
  | constant given read _ value =>
    cases other with
    | unconditioned free => exact absurd (free.symm.trans given) nofun
    | constant given' read' _ value' =>
      obtain rfl := Option.some.inj (given.symm.trans given')
      obtain rfl := Except.ok.inj (read.symm.trans read')
      exact Except.ok.inj (value.symm.trans value')
  | answered given read _ value =>
    cases other with
    | answered given' read' _ value' =>
      obtain rfl := Option.some.inj (given.symm.trans given')
      obtain rfl := Except.ok.inj (read.symm.trans read')
      exact Except.ok.inj (value.symm.trans value')

/-- A transition is taken or refused in one way on given answers. -/
theorem Verdict.unique_of_append {verdict verdict' : Bool} (one : Verdict t use verdict)
    (other : Verdict t use' verdict') (same : use ++ left = use' ++ left') :
    verdict = verdict' ∧ left = left' := by
  have length : use.length = use'.length :=
    (one.length_use "").trans (other.length_use "").symm
  obtain ⟨rfl, rfl⟩ := List.append_inj same length
  exact ⟨one.unique other, rfl⟩

/-- A transition that asks is neither taken nor refused without an answer. -/
theorem Verdict.ne_nil {verdict : Bool} {prompt : String} (h : Verdict t use verdict)
    (asks : question? space t = some prompt) : use ++ left ≠ [] := by
  have length := h.length_use space
  rw [asks] at length
  intro none
  rw [(List.append_eq_nil_iff.1 none).1] at length
  cases length

theorem Decided.nothing (h : Decided space [] later answers left result) :
    later = [] ∧ left = answers ∧ result = .error (.noTransition space) := by
  generalize whole : [] = examined at h
  cases h with
  | taken => exact absurd whole.symm (List.append_ne_nil_of_right_ne_nil _ (List.cons_ne_nil _ _))
  | unanswered =>
    exact absurd whole.symm (List.append_ne_nil_of_right_ne_nil _ (List.cons_ne_nil _ _))
  | allRefused refused =>
    subst whole
    obtain ⟨uses, verdicts, rfl⟩ := refused
    cases verdicts
    exact ⟨rfl, rfl, rfl⟩

/-- What is decided at the first transition that is looked at. -/
theorem Decided.head (h : Decided space (t :: examined) later answers left result) :
    (∃ use, Verdict t use true ∧ answers = use ++ left ∧ examined = [] ∧
      result = .ok t.target) ∨
    (∃ prompt, question? space t = some prompt ∧ answers = [] ∧ left = [] ∧ examined = [] ∧
      result = .error (.noAnswer (.noneLeft prompt))) ∨
    ∃ use answers', Verdict t use false ∧ answers = use ++ answers' ∧
      Decided space examined later answers' left result := by
  generalize whole : t :: examined = looked at h
  cases h with
  | taken refused taken =>
    obtain ⟨uses, verdicts, rfl⟩ := refused
    cases verdicts with
    | nil =>
      obtain ⟨rfl, rfl⟩ := List.cons.inj whole
      exact .inl ⟨_, taken, rfl, rfl, rfl⟩
    | cons first more =>
      obtain ⟨rfl, rfl⟩ := List.cons.inj whole
      exact .inr (.inr ⟨_, _, first, List.append_assoc _ _ _, .taken ⟨_, more, rfl⟩ taken⟩)
  | allRefused refused =>
    obtain ⟨uses, verdicts, rfl⟩ := refused
    cases verdicts with
    | nil => cases whole
    | cons first more =>
      obtain ⟨rfl, rfl⟩ := List.cons.inj whole
      exact .inr (.inr ⟨_, _, first, List.append_assoc _ _ _, .allRefused ⟨_, more, rfl⟩⟩)
  | unanswered refused asks =>
    obtain ⟨uses, verdicts, rfl⟩ := refused
    cases verdicts with
    | nil =>
      obtain ⟨rfl, rfl⟩ := List.cons.inj whole
      exact .inr (.inl ⟨_, asks, rfl, rfl, rfl, rfl⟩)
    | cons first more =>
      obtain ⟨rfl, rfl⟩ := List.cons.inj whole
      exact .inr (.inr ⟨_, _, first, rfl, .unanswered ⟨_, more, rfl⟩ asks⟩)

/-- On given answers, transitions are decided in one way. -/
theorem Decided.unique (one : Decided space examined later answers left result)
    (other : Decided space examined' later' answers left' result')
    (same : examined ++ later = examined' ++ later') :
    examined = examined' ∧ left = left' ∧ result = result' := by
  induction examined generalizing examined' answers with
  | nil =>
    obtain ⟨rfl, rfl, rfl⟩ := one.nothing
    obtain ⟨rfl, rfl⟩ := List.append_eq_nil_iff.1 same.symm
    obtain ⟨-, rfl, rfl⟩ := other.nothing
    exact ⟨rfl, rfl, rfl⟩
  | cons t examined ih =>
    cases examined' with
    | nil =>
      obtain ⟨rfl, -, -⟩ := other.nothing
      cases same
    | cons t' examined' =>
      obtain ⟨rfl, behind⟩ := List.cons.inj same
      rcases one.head with ⟨use, taken, split, rfl, rfl⟩ | ⟨prompt, asks, none, rfl, rfl, rfl⟩ |
          ⟨use, more, refused, split, one⟩ <;>
        rcases other.head with ⟨use', taken', split', rfl, rfl⟩ |
          ⟨prompt', asks', none', rfl, rfl, rfl⟩ | ⟨use', more', refused', split', other⟩
      · obtain ⟨-, rfl⟩ := taken.unique_of_append taken' (split.symm.trans split')
        exact ⟨rfl, rfl, rfl⟩
      · exact absurd (split.symm.trans none') (taken.ne_nil asks')
      · exact nomatch (taken.unique_of_append refused' (split.symm.trans split')).1
      · exact absurd (split'.symm.trans none) (taken'.ne_nil asks)
      · obtain rfl := Option.some.inj (asks.symm.trans asks')
        exact ⟨rfl, rfl, rfl⟩
      · exact absurd (split'.symm.trans none) (refused'.ne_nil asks)
      · exact nomatch (refused.unique_of_append taken' (split.symm.trans split')).1
      · exact absurd (split.symm.trans none') (refused.ne_nil asks')
      · obtain ⟨-, rfl⟩ := refused.unique_of_append refused' (split.symm.trans split')
        obtain ⟨rfl, rfl, rfl⟩ := ih one other behind
        exact ⟨rfl, rfl, rfl⟩

end Uniqueness

/-! ## The program -/

/-- A list of transitions is looked at as far as it takes to decide. -/
def Settles (c : Conduct S) (space : String) (transitions : List Transition)
    (answers : List String) (s : Session S) (outcome : Except RunError String × Session S) : Prop :=
  ∃ examined later left, transitions = examined ++ later ∧
    Decided space examined later answers left outcome.1 ∧ outcome.2.answers = .scripted left ∧
    c.LooksAt space examined s outcome.2

theorem choose_settles (c : Conduct S) (space : String) (transitions : List Transition)
    (readable : ∀ t ∈ transitions, ∀ text, t.condition = some text →
      ∃ condition, Condition.parse text = .ok condition) {answers : List String} {s : Session S}
    (scripted : s.answers = .scripted answers) :
    c.Settles space transitions answers s (c.choose space transitions s) := by
  induction transitions generalizing answers s with
  | nil => exact ⟨[], [], answers, rfl, .allRefused .nil, scripted, .refl s⟩
  | cons t rest ih =>
    obtain ⟨readFirst, readRest⟩ := List.forall_mem_cons.1 readable
    have goesOn {use left : List String} {s' : Session S} (refused : Verdict t use false)
        (split : answers = use ++ left) (scripted' : s'.answers = .scripted left)
        (looks : c.LooksAt space [t] s s') :
        c.Settles space (t :: rest) answers s (c.choose space rest s') := by
      obtain ⟨examined, later, left', shape, decided, behind, looks'⟩ := ih readRest scripted'
      exact ⟨t :: examined, later, left', by rw [shape]; rfl, split ▸ decided.cons refused,
        behind, looks.trans looks'⟩
    rw [Conduct.choose]
    cases conditional : t.condition with
    | none =>
      exact ⟨[t], rest, answers, rfl, .taken_first (.unconditioned conditional), scripted,
        .silent (question?_of_unconditioned conditional) s⟩
    | some text =>
      obtain ⟨condition, read⟩ := readFirst text conditional
      cases named : condition.placeholder with
      | none =>
        obtain ⟨verdict, holds, evaluated⟩ :=
          c.holds_constant space conditional read named s
        have quiet : question? space t = none := by
          rw [question?_of_parse conditional read, named]
          rfl
        simp only [bind_eval, evaluated]
        cases verdict with
        | true => exact ⟨[t], rest, answers, rfl, .taken_first holds, scripted, .silent quiet s⟩
        | false => exact goesOn holds rfl scripted (.silent quiet s)
      | some name =>
        cases answers with
        | nil =>
          obtain ⟨prompt, s', asks, failed, left, looks⟩ :=
            c.holds_unanswered space conditional read named scripted
          simp only [bind_eval, failed]
          exact ⟨[t], rest, [], rfl, .unanswered .nil asks, left, looks⟩
        | cons answer left =>
          obtain ⟨verdict, s', holds, evaluated, behind, looks⟩ :=
            c.holds_answered space conditional read named scripted
          simp only [bind_eval, evaluated]
          cases verdict with
          | true => exact ⟨[t], rest, left, rfl, .taken_first holds, behind, looks⟩
          | false => exact goesOn holds rfl behind looks

/-- The way on from a space is the end if there are no transitions. Otherwise they are looked at in
their order, until one is taken, an answer is missing, or all of them are refused; each one that is
looked at uses up an answer of its own, and is told of, exactly if its condition has a placeholder.
-/
theorem next_decides (space : String) {answers : List String} {s : Session S}
    (readable : ∀ t ∈ c.artifact.control.transitions, ∀ text, t.condition = some text →
      ∃ condition, Condition.parse text = .ok condition)
    (scripted : s.answers = .scripted answers) :
    (c.artifact.control.outgoing space = [] → c.next space s = (.ok endMark, s)) ∧
    (c.artifact.control.outgoing space ≠ [] →
      ∃ examined later left result s',
        c.artifact.control.outgoing space = examined ++ later ∧
        Decided space examined later answers left result ∧
        c.next space s = (result, s') ∧ s'.answers = .scripted left ∧
        s'.events = s.events ++
          (examined.filterMap (question? space)).map (.inputRequired c.runId space) ∧
        s'.prompts = s.prompts ++ examined.filterMap (question? space) ∧
        c.LooksAt space examined s s') := by
  rw [Conduct.next]
  constructor
  · intro ends
    rw [ends]
    rfl
  · intro onward
    obtain ⟨t, rest, shape⟩ := List.exists_cons_of_ne_nil onward
    have readable' : ∀ u ∈ t :: rest, ∀ text, u.condition = some text →
        ∃ condition, Condition.parse text = .ok condition := fun u mem =>
      readable u (List.mem_of_mem_filter (shape ▸ mem))
    obtain ⟨examined, later, left, split, decided, behind, looks⟩ :=
      c.choose_settles space (t :: rest) readable' scripted
    rw [shape]
    exact ⟨examined, later, left, _, _, split, decided, rfl, behind, looks.events, looks.prompts,
      looks⟩

/-- A space with two ways on that ask, one between them that does not, and one that is always
free. -/
def forking : Conduct (Table RunSnapshot) where
  host :=
    { backend := .memory
      launch := fun _ runs => (.ok ⟨.exited 0, .empty, .empty⟩, runs)
      clock := fun readings => .ofSeconds readings }
  artifact :=
    { experiment := "e"
      version := artifactVersion
      tasks := [[{ taskId := "W:t", workflow := "W", implementation := "./t.sh" }]]
      spaces := ["A", "B", "C", "D"].map fun name =>
        { spaceId := name, tasksOrder := ["W:t"], parameters := [∅] }
      control := ⟨"A",
        [⟨"A", "B", some "x == 'b'"⟩, ⟨"A", "D", some "'b' == 'd'"⟩,
         ⟨"A", "C", some "x == 'c'"⟩, ⟨"A", endMark, none⟩]⟩ }
  options := {}
  runId := "r"

theorem parse_forking :
    Condition.parse "x == 'b'" =
      .ok ⟨"x == 'b'", .compare (.variable "x") .eq (.text "b")⟩ ∧
    Condition.parse "x == 'c'" =
      .ok ⟨"x == 'c'", .compare (.variable "x") .eq (.text "c")⟩ ∧
    Condition.parse "'b' == 'd'" =
      .ok ⟨"'b' == 'd'", .compare (.text "b") .eq (.text "d")⟩ := by
  let b : Condition.Quoted := ⟨'\'', "b", .inl rfl, by decide⟩
  let d : Condition.Quoted := ⟨'\'', "d", .inl rfl, by decide⟩
  let w : Condition.Wording := .compare (.text b) .eq (.text d)
  have asksB : Condition.comparisonText .x .eq "b" = "x == 'b'" := by decide +kernel
  have asksC : Condition.comparisonText .x .eq "c" = "x == 'c'" := by decide +kernel
  have constant : w.write = "'b' == 'd'" := by decide +kernel
  have name : Condition.Identifier.x.name = "x" := by decide +kernel
  have trimmed : Text.trim "x == 'b'" = "x == 'b'" ∧ Text.trim "x == 'c'" = "x == 'c'" ∧
      Text.trim "'b' == 'd'" = "'b' == 'd'" := by decide +kernel
  have readB := Condition.parse_comparisonText .x .eq (s := "b") (by decide)
  have readC := Condition.parse_comparisonText .x .eq (s := "c") (by decide)
  have readD := Condition.parse_wording w (by decide +kernel)
  rw [asksB, trimmed.1, name] at readB
  rw [asksC, trimmed.2.1, name] at readC
  rw [constant, trimmed.2.2] at readD
  exact ⟨readB, readC, readD⟩

/-- Asked with the answers `a` and `c`, the third way on is taken. The last answer is left. -/
theorem next_decides_third :
    let s : Session (Table RunSnapshot) := { store := ∅, answers := .scripted ["a", "c", "d"] }
    let asked := ["[A] Value for 'x' (go to B if x == 'b'):",
      "[A] Value for 'x' (go to C if x == 'c'):"]
    (∀ t ∈ forking.artifact.control.transitions, ∀ text, t.condition = some text →
      ∃ condition, Condition.parse text = .ok condition) ∧
    forking.artifact.control.outgoing "A" ≠ [] ∧
    ∃ s', forking.next "A" s = (.ok "C", s') ∧ s'.answers = .scripted ["d"] ∧
      s'.events = asked.map (.inputRequired "r" "A") ∧ s'.prompts = asked := by
  intro s asked
  obtain ⟨readB, readC, readD⟩ := parse_forking
  have readable : ∀ t ∈ forking.artifact.control.transitions, ∀ text, t.condition = some text →
      ∃ condition, Condition.parse text = .ok condition := by
    simp only [forking, List.forall_mem_cons, Option.some.injEq, forall_eq', reduceCtorEq,
      false_implies, implies_true, and_true, List.not_mem_nil]
    exact ⟨⟨_, readB⟩, ⟨_, readD⟩, _, readC⟩
  have ways : forking.artifact.control.outgoing "A" = forking.artifact.control.transitions := by
    decide +kernel
  have onward : forking.artifact.control.outgoing "A" ≠ [] := by
    rw [ways]
    exact List.cons_ne_nil _ _
  obtain ⟨examined, later, left, result, s', split, decided, chosen, behind, events, prompts, -⟩ :=
    (next_decides (c := forking) "A" readable (s := s) rfl).2 onward
  let first : Transition := ⟨"A", "B", some "x == 'b'"⟩
  let second : Transition := ⟨"A", "D", some "'b' == 'd'"⟩
  let third : Transition := ⟨"A", "C", some "x == 'c'"⟩
  have taken : Decided "A" ([first, second] ++ [third]) [⟨"A", endMark, none⟩]
      (["a"] ++ (["c"] ++ ["d"])) ["d"] (.ok "C") := by
    refine .taken (Refused.cons (.answered rfl readB rfl ?_)
      (Refused.cons (.constant rfl readD rfl ?_) .nil)) (.answered rfl readC rfl ?_)
    · decide +kernel
    · decide +kernel
    · decide +kernel
  obtain ⟨rfl, rfl, rfl⟩ := decided.unique taken (split.symm.trans ways)
  have inquiries : ([first, second] ++ [third]).filterMap (question? "A") = asked := by
    have askFirst : question? "A" first = _ := question?_of_parse rfl readB
    have askSecond : question? "A" second = _ := question?_of_parse rfl readD
    have askThird : question? "A" third = _ := question?_of_parse rfl readC
    simp only [List.cons_append, List.nil_append, List.filterMap_cons, askFirst, askSecond,
      askThird]
    rfl
  rw [inquiries] at events prompts
  exact ⟨readable, onward, s', chosen, behind, events, prompts⟩

end Sweep.Conduct
