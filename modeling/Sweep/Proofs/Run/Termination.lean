import Sweep.Proofs.Run.Journey
import Sweep.Proofs.Run.WholeCourse

/-!
# Requests for termination

A request for termination can come at any moment of a call and stays in force. The engine looks for
it after each task, each parameter set and each space. So an activity heeds requests if, from any
moment on at which one is in force, it comes to its end without starting or finishing anything, or
it fails after at most one more task was started, and if anything finished, by the termination. An
activity that heeds requests can be followed by another one. A part that starts one task, or that
finishes a set or a space, heeds them together with the look for a request that follows it.

The record is only followed as far as a termination needs it: the artifact that it belongs to stays
the same, and whoever terminates the run has stamped it.
-/

namespace Sweep

variable {S α β : Type}

/-- What shows that a task is started: it is marked, it is told of, its program is launched. -/
inductive StartSign where
  | marked
  | told
  | launched
deriving DecidableEq

def Moment.startSign? : Moment S → Option StartSign
  | .marked e => if e.mark = .started then some .marked else none
  | .told (.taskStarted ..) _ => some .told
  | .launched _ => some .launched
  | _ => none

/-- Whether a moment shows that a task, a parameter set or a space has finished successfully. -/
def Moment.isFinish : Moment S → Bool
  | .marked e => e.mark == .completed
  | .told (.taskCompleted ..) _ | .told (.setCompleted ..) _ | .told (.spaceCompleted ..) _ => true
  | _ => false

def startsIn (ms : List (Moment S)) : List StartSign := ms.filterMap Moment.startSign?

/-- Whether none of some moments shows that anything has finished. -/
def Unfinished (ms : List (Moment S)) : Prop := ∀ m ∈ ms, m.isFinish = false

def StartSign.ofTask : List StartSign := [.marked, .told, .launched]

@[simp] theorem startsIn_append (ms ms' : List (Moment S)) :
    startsIn (ms ++ ms') = startsIn ms ++ startsIn ms' := List.filterMap_append

@[simp] theorem unfinished_nil : Unfinished ([] : List (Moment S)) := nofun

@[simp] theorem unfinished_append {ms ms' : List (Moment S)} :
    Unfinished (ms ++ ms') ↔ Unfinished ms ∧ Unfinished ms' := List.forall_mem_append

/-- A run that was terminated has a finish time and no error. -/
structure RunRecord.Stamped (run : RunRecord) : Prop where
  status : run.status = .terminated
  error : run.error = none
  finished : run.finishedAt.isSome

namespace Conduct

variable (c : Conduct S) (kept : S → Prop)

/-- Whether termination is requested in a session after some further moments. -/
def Requested (s : Session S) (ms : List (Moment S)) : Prop :=
  s.terminating = true ∨ ∃ before m after, ms = before ++ m :: after ∧
    c.host.terminates (m :: (before.reverse ++ s.history)) = true

/-- A session has grown by some moments, and knows whether termination is requested. -/
structure Grows (s s' : Session S) (ms : List (Moment S)) : Prop where
  history : s'.history = ms.reverse ++ s.history
  aware : s'.terminating = true ↔ c.Requested s ms

/-- In every session on a record, an activity adds moments and leaves a record of the same artifact
such that something holds of the session before, the result, the moments and the record. -/
def Adds (a : Activity S α)
    (P : Session S → Except RunError α → List (Moment S) → RunSnapshot → Prop) : Prop :=
  ∀ s x, c.Sees kept s ⟨x, []⟩ → ∃ ms y, c.Grows s (a s).2 ms ∧ c.Sees kept (a s).2 ⟨y, []⟩ ∧
    y.run.artifactHash = x.run.artifactHash ∧ P s (a s).1 ms y

/-- How a part of a call goes on from a moment at which termination is requested. -/
inductive Prompt : Except RunError α → List (Moment S) → Prop
  | idle (x : α) {ms : List (Moment S)} : startsIn ms = [] → Unfinished ms → Prompt (.ok x) ms
  | ends {e : RunError} {ms : List (Moment S)} : (startsIn ms).Sublist StartSign.ofTask →
      (Unfinished ms ∨ e = .terminated c.runId) → Prompt (.error e) ms

/-- What it is for a part of a call to heed requests for termination. -/
structure Heeding (s : Session S) (r : Except RunError α) (ms : List (Moment S))
    (y : RunSnapshot) : Prop where
  stamps : ∀ runId, r = .error (.terminated runId) → runId = c.runId ∧ y.run.Stamped
  prompt : ∀ before after, ms = before ++ after → c.Requested s before → c.Prompt r after

/-- An activity that heeds requests for termination. -/
def Heeds (a : Activity S α) : Prop := c.Adds kept a c.Heeding

/-- An activity that starts what these signs show, finishes nothing and does not terminate the
run. -/
def Plays (signs : List StartSign) (a : Activity S α) : Prop :=
  c.Adds kept a fun _ r ms _ => (startsIn ms).Sublist signs ∧ Unfinished ms ∧
    ∀ e, r = .error e → e.isTermination = false

/-- An activity that starts what these signs show, and finishes something only if it does not
fail. -/
def Acts (signs : List StartSign) (a : Activity S α) : Prop :=
  c.Adds kept a fun _ r ms _ => (startsIn ms).Sublist signs ∧
    ∀ e, r = .error e → Unfinished ms ∧ e.isTermination = false

/-- An activity that starts nothing and does not fail. -/
def Succeeds (a : Activity S α) : Prop :=
  c.Adds kept a fun _ r ms _ => startsIn ms = [] ∧ ∃ x, r = .ok x

variable {c kept}

/-! ## Requests -/

theorem requested_nil {s : Session S} : c.Requested s [] ↔ s.terminating = true := by
  refine ⟨?_, .inl⟩
  rintro (h | ⟨before, m, after, none, -⟩)
  · exact h
  · simp at none

/-- A request stays in force. -/
theorem Requested.append {s : Session S} {ms : List (Moment S)} (h : c.Requested s ms)
    (ms' : List (Moment S)) : c.Requested s (ms ++ ms') := by
  rcases h with h | ⟨before, m, after, rfl, h⟩
  · exact .inl h
  · exact .inr ⟨before, m, after ++ ms', by simp, h⟩

/-- What is requested in a session that has grown is what is requested since. -/
theorem Grows.requested {s s' : Session S} {ms : List (Moment S)} (h : c.Grows s s' ms)
    (ms' : List (Moment S)) : c.Requested s' ms' ↔ c.Requested s (ms ++ ms') := by
  constructor
  · rintro (flag | ⟨before, m, after, rfl, asked⟩)
    · exact (h.aware.1 flag).append ms'
    · refine .inr ⟨ms ++ before, m, after, by simp, ?_⟩
      rwa [List.reverse_append, List.append_assoc, ← h.history]
  · rintro (flag | ⟨before, m, after, all, asked⟩)
    · exact .inl (h.aware.2 (.inl flag))
    · rcases List.append_eq_append_iff.1 all with ⟨late, rfl, rest⟩ | ⟨early, rfl, rest⟩
      · refine .inr ⟨late, m, after, rest, ?_⟩
        rwa [h.history, ← List.append_assoc, ← List.reverse_append]
      · cases early with
        | nil =>
          refine .inr ⟨[], m, after, by simpa using rest.symm, ?_⟩
          rw [h.history]
          simpa using asked
        | cons m' early =>
          obtain ⟨rfl, -⟩ := List.cons.inj rest
          exact .inl (h.aware.2 (.inr ⟨before, m, early, rfl, asked⟩))

theorem Grows.trans {s s' s'' : Session S} {ms ms' : List (Moment S)} (first : c.Grows s s' ms)
    (second : c.Grows s' s'' ms') : c.Grows s s'' (ms ++ ms') := by
  refine ⟨?_, second.aware.trans (first.requested ms')⟩
  rw [second.history, first.history, List.reverse_append, List.append_assoc]

theorem prompt_ok_iff {x : α} {ms : List (Moment S)} :
    c.Prompt (.ok x) ms ↔ startsIn ms = [] ∧ Unfinished ms := by
  refine ⟨fun h => ?_, fun ⟨starts, unfinished⟩ => .idle x starts unfinished⟩
  cases h with
  | idle _ starts unfinished => exact ⟨starts, unfinished⟩

theorem prompt_error_iff {e : RunError} {ms : List (Moment S)} :
    c.Prompt (.error e : Except RunError α) ms ↔
      (startsIn ms).Sublist StartSign.ofTask ∧ (Unfinished ms ∨ e = .terminated c.runId) := by
  refine ⟨fun h => ?_, fun ⟨starts, finishes⟩ => .ends starts finishes⟩
  cases h with
  | ends starts finishes => exact ⟨starts, finishes⟩

/-! ## Rules of composition -/

namespace Adds

variable {P : Session S → Except RunError α → List (Moment S) → RunSnapshot → Prop}

theorem mono {Q : Session S → Except RunError α → List (Moment S) → RunSnapshot → Prop}
    {a : Activity S α} (h : c.Adds kept a P) (weaker : ∀ s r ms y, P s r ms y → Q s r ms y) :
    c.Adds kept a Q := by
  intro s x sees
  obtain ⟨ms, y, grows, sees', hash, p⟩ := h s x sees
  exact ⟨ms, y, grows, sees', hash, weaker _ _ _ _ p⟩

/-- An activity that only reads the clock and draws answers. -/
theorem idle {a : Activity S α}
    (still : ∀ s x, c.Sees kept s ⟨x, []⟩ → ∃ r answers n,
      a s = (r, { s with answers, readings := s.readings + n }) ∧ P s r [] x) :
    c.Adds kept a P := by
  intro s x sees
  obtain ⟨r, answers, n, eval, p⟩ := still s x sees
  rw [eval]
  exact ⟨[], x, ⟨rfl, requested_nil.symm⟩, ⟨sees.kept, sees.loads, sees.named⟩, rfl, p⟩

theorem bind {Q R} {a : Activity S α} {f : α → Activity S β} (first : c.Adds kept a P)
    (goesOn : ∀ x, c.Adds kept (f x) Q)
    (fails : ∀ s e ms y, P s (.error e) ms y → R s (.error e) ms y)
    (passes : ∀ s s' x ms y r ms' z, c.Grows s s' ms → P s (.ok x) ms y → Q s' r ms' z →
      R s r (ms ++ ms') z) : c.Adds kept (a >>= f) R := by
  intro s x sees
  obtain ⟨ms, y, grows, sees', hash, p⟩ := first s x sees
  rw [bind_eval]
  rcases h : a s with ⟨e | v, s'⟩ <;> rw [h] at grows sees' p
  · exact ⟨ms, y, grows, sees', hash, fails _ _ _ _ p⟩
  · obtain ⟨ms', z, grows', sees'', hash', q⟩ := goesOn v s' y sees'
    exact ⟨ms ++ ms', z, grows.trans grows', sees'', hash'.trans hash,
      passes _ _ _ _ _ _ _ _ grows p q⟩

end Adds

theorem Heeding.andThen {s s' : Session S} {x : α} {r : Except RunError β}
    {ms ms' : List (Moment S)} {y z : RunSnapshot} (first : c.Heeding s (.ok x) ms y)
    (grows : c.Grows s s' ms) (second : c.Heeding s' r ms' z) : c.Heeding s r (ms ++ ms') z := by
  refine ⟨second.stamps, fun before after all asked => ?_⟩
  rcases List.append_eq_append_iff.1 all with ⟨early, rfl, rest⟩ | ⟨late, rfl, rfl⟩
  · exact second.prompt early after rest ((grows.requested early).2 asked)
  · -- The first part was idle since the request, so it is in force when the second begins.
    have inForce : c.Requested s' [] := (grows.requested []).2 (by simpa using asked.append late)
    have later := second.prompt [] ms' rfl inForce
    cases first.prompt before late rfl asked with
    | idle _ starts unfinished =>
      cases later with
      | idle x starts' unfinished' =>
        refine .idle x ?_ (unfinished_append.2 ⟨unfinished, unfinished'⟩)
        rw [startsIn_append, starts, starts']
        rfl
      | ends starts' finishes =>
        refine .ends (by simpa [starts] using starts') ?_
        exact finishes.imp_left fun h => unfinished_append.2 ⟨unfinished, h⟩

/-- An error that is passed on. -/
theorem Heeding.passOn {s : Session S} {e : RunError} {ms : List (Moment S)} {y : RunSnapshot}
    (h : c.Heeding s (.error e : Except RunError α) ms y) :
    c.Heeding s (.error e : Except RunError β) ms y where
  stamps runId same := h.stamps runId (by cases same; rfl)
  prompt before after all asked :=
    prompt_error_iff.2 (prompt_error_iff.1 (h.prompt before after all asked))

/-- A failure after which the call fails without starting or finishing anything more. -/
theorem Heeding.fails {s : Session S} {e e' : RunError} {ms ms' : List (Moment S)}
    {y z : RunSnapshot} (h : c.Heeding s (.error e : Except RunError α) ms y)
    (failure : e.isTermination = false) (starts : startsIn ms' = []) (unfinished : Unfinished ms')
    (failure' : e'.isTermination = false) :
    c.Heeding s (.error e' : Except RunError β) (ms ++ ms') z := by
  refine ⟨?_, fun before after all asked => prompt_error_iff.2 ?_⟩
  · rintro runId ⟨⟩
    cases failure'
  rcases List.append_eq_append_iff.1 all with ⟨early, rfl, rfl⟩ | ⟨late, rfl, rfl⟩
  · rw [startsIn_append, List.append_eq_nil_iff] at starts
    exact ⟨by simp [starts.2], .inl (unfinished_append.1 unfinished).2⟩
  · obtain ⟨starts', finishes⟩ := prompt_error_iff.1 (h.prompt before late rfl asked)
    have unfinished' : Unfinished late := finishes.resolve_right fun same => by
      subst same
      cases failure
    exact ⟨by simpa [starts] using starts', .inl (unfinished_append.2 ⟨unfinished', unfinished⟩)⟩

/-- A part that heeds requests and then another one heed them together. -/
theorem Heeds.bind {a : Activity S α} {f : α → Activity S β} (first : c.Heeds kept a)
    (goesOn : ∀ x, c.Heeds kept (f x)) : c.Heeds kept (a >>= f) :=
  Adds.bind first goesOn (fun _ _ _ _ h => h.passOn)
    fun _ _ _ _ _ _ _ _ grows h h' => h.andThen grows h'

theorem Plays.bind {p q : List StartSign} {a : Activity S α} {f : α → Activity S β}
    (first : c.Plays kept p a) (goesOn : ∀ x, c.Plays kept q (f x)) :
    c.Plays kept (p ++ q) (a >>= f) := by
  refine Adds.bind first goesOn ?_ ?_
  · rintro s e ms y ⟨starts, unfinished, other⟩
    exact ⟨starts.trans (List.sublist_append_left _ _), unfinished,
      fun e' same => other e' (by cases same; rfl)⟩
  · rintro s s' x ms y r ms' z - ⟨starts, unfinished, -⟩ ⟨starts', unfinished', other⟩
    exact ⟨by simpa using starts.append starts', unfinished_append.2 ⟨unfinished, unfinished'⟩,
      other⟩

/-- What starts nothing before or after an activity adds no signs to it. -/
theorem Plays.silent_bind {signs : List StartSign} {a : Activity S α} {f : α → Activity S β}
    (first : c.Plays kept [] a) (goesOn : ∀ x, c.Plays kept signs (f x)) :
    c.Plays kept signs (a >>= f) :=
  first.bind goesOn

theorem Plays.bind_silent {signs : List StartSign} {a : Activity S α} {f : α → Activity S β}
    (first : c.Plays kept signs a) (goesOn : ∀ x, c.Plays kept [] (f x)) :
    c.Plays kept signs (a >>= f) := by
  simpa using first.bind goesOn

theorem Plays.acts {signs : List StartSign} {a : Activity S α} (h : c.Plays kept signs a) :
    c.Acts kept signs a :=
  h.mono fun _ _ _ _ ⟨starts, unfinished, other⟩ =>
    ⟨starts, fun e same => ⟨unfinished, other e same⟩⟩

theorem Plays.acts_bind {p q : List StartSign} {a : Activity S α} {f : α → Activity S β}
    (first : c.Plays kept p a) (goesOn : ∀ x, c.Acts kept q (f x)) :
    c.Acts kept (p ++ q) (a >>= f) := by
  refine Adds.bind first goesOn ?_ ?_
  · rintro s e ms y ⟨starts, unfinished, other⟩
    exact ⟨starts.trans (List.sublist_append_left _ _),
      fun e' same => ⟨unfinished, other e' (by cases same; rfl)⟩⟩
  · rintro s s' x ms y r ms' z - ⟨starts, unfinished, -⟩ ⟨starts', other⟩
    exact ⟨by simpa using starts.append starts', fun e failed =>
      ⟨unfinished_append.2 ⟨unfinished, (other e failed).1⟩, (other e failed).2⟩⟩

theorem Plays.silent_acts_bind {signs : List StartSign} {a : Activity S α} {f : α → Activity S β}
    (first : c.Plays kept [] a) (goesOn : ∀ x, c.Acts kept signs (f x)) :
    c.Acts kept signs (a >>= f) :=
  first.acts_bind goesOn

/-- A part whose failure is looked at by what follows it. -/
theorem Plays.attempt_bind {p q : List StartSign} {a : Activity S α}
    {f : Except RunError α → Activity S β} (first : c.Plays kept p a)
    (fails : ∀ e, e.isTermination = false → c.Acts kept q (f (.error e)))
    (goesOn : ∀ x, c.Acts kept q (f (.ok x))) :
    c.Acts kept (p ++ q) (a.attempt >>= f) := by
  intro s x sees
  obtain ⟨ms, y, grows, sees', hash, starts, unfinished, other⟩ := first s x sees
  have next : c.Acts kept q (f (a s).1) := by
    cases h : (a s).1 with
    | error e => exact fails e (other e h)
    | ok v => exact goesOn v
  obtain ⟨ms', z, grows', sees'', hash', starts', other'⟩ := next (a s).2 y sees'
  have eval : (a.attempt >>= f) s = f (a s).1 (a s).2 := rfl
  rw [eval]
  exact ⟨ms ++ ms', z, grows.trans grows', sees'', hash'.trans hash,
    by simpa using starts.append starts', fun e failed =>
      ⟨unfinished_append.2 ⟨unfinished, (other' e failed).1⟩, (other' e failed).2⟩⟩

theorem Acts.bind {signs : List StartSign} {a : Activity S α} {f : α → Activity S β}
    (first : c.Acts kept signs a) (goesOn : ∀ x, c.Succeeds kept (f x)) :
    c.Acts kept signs (a >>= f) := by
  refine Adds.bind first goesOn ?_ ?_
  · rintro s e ms y ⟨starts, other⟩
    exact ⟨starts, fun e' same => other e' (by cases same; rfl)⟩
  · rintro s s' x ms y r ms' z - ⟨starts, -⟩ ⟨starts', v, rfl⟩
    exact ⟨by simpa [starts'] using starts, nofun⟩

theorem Succeeds.bind {a : Activity S α} {f : α → Activity S β} (first : c.Succeeds kept a)
    (goesOn : ∀ x, c.Succeeds kept (f x)) : c.Succeeds kept (a >>= f) := by
  refine Adds.bind first goesOn ?_ ?_
  · rintro s e ms y ⟨-, v, same⟩
    cases same
  · rintro s s' x ms y r ms' z - ⟨starts, -⟩ ⟨starts', ends⟩
    exact ⟨by simp [starts, starts'], ends⟩

theorem Succeeds.acts {a : Activity S α} (h : c.Succeeds kept a) : c.Acts kept [] a := by
  refine h.mono ?_
  rintro s r ms y ⟨starts, v, rfl⟩
  exact ⟨by simp [starts], nofun⟩

/-- What starts and finishes nothing heeds requests. -/
theorem Plays.heeds {a : Activity S α} (h : c.Plays kept [] a) : c.Heeds kept a := by
  refine h.mono ?_
  rintro s r ms y ⟨starts, unfinished, other⟩
  refine ⟨fun runId same => absurd (other _ same) (by simp [RunError.isTermination]), ?_⟩
  rintro before after rfl -
  rw [startsIn_append, List.sublist_nil, List.append_eq_nil_iff] at starts
  have rest : Unfinished after := (unfinished_append.1 unfinished).2
  cases r with
  | ok x => exact .idle x starts.2 rest
  | error e => exact .ends (by simp [starts.2]) (.inl rest)

/-! ## Moments -/

theorem adds_note (m : Moment S) :
    c.Adds kept (c.note m) fun _ r ms _ => r = .ok () ∧ ms = [m] := by
  intro s x sees
  refine ⟨[m], x, ⟨rfl, ?_⟩, ⟨sees.kept, sees.loads, sees.named⟩, rfl, rfl, rfl⟩
  show (s.terminating || c.host.terminates (m :: s.history)) = true ↔ _
  rw [Bool.or_eq_true]
  refine or_congr Iff.rfl ⟨fun asked => ⟨[], m, [], rfl, asked⟩, ?_⟩
  rintro ⟨before, m', after, all, asked⟩
  obtain ⟨rfl, all⟩ | ⟨early, rfl, all⟩ := List.cons_eq_append_iff.1 all
  · obtain ⟨rfl, -⟩ := List.cons.inj all
    exact asked
  · simp at all

theorem plays_note {m : Moment S} {signs : List StartSign} (starts : m.startSign?.toList = signs)
    (unfinished : m.isFinish = false) : c.Plays kept signs (c.note m) := by
  refine (adds_note m).mono ?_
  rintro s r ms y ⟨rfl, rfl⟩
  refine ⟨?_, by simpa [Unfinished] using unfinished, nofun⟩
  rw [← starts]
  cases h : m.startSign? <;> simp [startsIn, h]

theorem adds_emit (e : ProgressEvent) :
    c.Adds kept (c.emit e) fun _ r ms _ => r = .ok () ∧ ∃ store, ms = [.told e store] := by
  intro s x sees
  obtain ⟨ms, y, grows, sees', hash, done, all⟩ := adds_note (.told e s.store) s x sees
  exact ⟨ms, y, grows, sees', hash, done, s.store, all⟩

theorem adds_mark (key : TaskKey) (mark : TaskMark) :
    c.Adds kept (c.mark key mark) fun _ r ms _ =>
      r = .ok () ∧ ∃ now, ms = [.marked ⟨key, mark, now⟩] := by
  intro s x sees
  obtain ⟨ms, y, grows, sees', hash, done, all⟩ :=
    adds_note (.marked ⟨key, mark, c.host.clock s.readings⟩) { s with readings := s.readings + 1 } x
      ⟨sees.kept, sees.loads, sees.named⟩
  exact ⟨ms, y, ⟨grows.history, grows.aware⟩, sees', hash, done, _, all⟩

theorem plays_emit {e : ProgressEvent} {signs : List StartSign}
    (starts : ∀ store : S, (Moment.told e store).startSign?.toList = signs)
    (unfinished : ∀ store : S, (Moment.told e store).isFinish = false) :
    c.Plays kept signs (c.emit e) :=
  fun s => plays_note (starts s.store) (unfinished s.store) s

theorem succeeds_emit {e : ProgressEvent}
    (silent : ∀ store : S, (Moment.told e store).startSign? = none) :
    c.Succeeds kept (c.emit e) := by
  refine (adds_emit e).mono ?_
  rintro s r ms y ⟨rfl, store, rfl⟩
  exact ⟨by simp [startsIn, silent], (), rfl⟩

theorem succeeds_completed (key : TaskKey) : c.Succeeds kept (c.mark key .completed) := by
  refine (adds_mark key .completed).mono ?_
  rintro s r ms y ⟨rfl, now, rfl⟩
  exact ⟨rfl, (), rfl⟩

theorem plays_started (key : TaskKey) : c.Plays kept [.marked] (c.mark key .started) := by
  refine (adds_mark key .started).mono ?_
  rintro s r ms y ⟨rfl, now, rfl⟩
  exact ⟨List.Sublist.refl _, by simp [Unfinished, Moment.isFinish], nofun⟩

theorem plays_failed (key : TaskKey) : c.Plays kept [] (c.mark key .failed) := by
  refine (adds_mark key .failed).mono ?_
  rintro s r ms y ⟨rfl, now, rfl⟩
  exact ⟨List.Sublist.refl _, by simp [Unfinished, Moment.isFinish], nofun⟩

theorem plays_pure (x : α) : c.Plays kept [] (pure x) :=
  Adds.idle fun _ _ _ => ⟨.ok x, _, 0, rfl, List.Sublist.refl _, unfinished_nil, nofun⟩

theorem plays_throw {e : RunError} (other : e.isTermination = false) :
    c.Plays kept [] (throw e : Activity S α) :=
  Adds.idle fun _ _ _ => ⟨.error e, _, 0, rfl, List.Sublist.refl _, unfinished_nil,
    fun e' same => by cases same; exact other⟩

/-- To look at the record starts and finishes nothing. -/
theorem plays_of_reads {a : Activity S α}
    (reads : ∀ x, ∃ r, c.Reads x a r ∧ ∀ e, r = .error e → e.isTermination = false) :
    c.Plays kept [] a := by
  refine Adds.idle fun s x sees => ?_
  obtain ⟨r, read, other⟩ := reads x
  obtain ⟨n, eval⟩ := read s sees.loads
  exact ⟨r, s.answers, n, eval, List.Sublist.refl _, unfinished_nil, other⟩

theorem plays_of_reads_ok {a : Activity S α} {f : RunSnapshot → α}
    (reads : ∀ x, c.Reads x a (.ok (f x))) : c.Plays kept [] a :=
  plays_of_reads fun x => ⟨_, reads x, by rintro _ ⟨⟩⟩

/-! ## Changes of the record -/

section Changes

variable (reliable : c.host.Reliable c.runId kept)

include reliable

/-- A change of the record is noted, unless what it is about is not recorded. -/
theorem adds_record {operation : RepositoryM S Unit}
    (change : Timestamp → RunSnapshot → Except RecordKey RunSnapshot)
    (modifies : ∀ now s, operation now s = c.host.backend.modify c.runId change now s)
    (keeps : ∀ now x y, change now x = .ok y →
      y.run.runId = x.run.runId ∧ y.run.artifactHash = x.run.artifactHash) :
    c.Adds kept (c.record operation) fun _ r ms y =>
      (r = .ok () ∧ (∃ store, ms = [.wrote store]) ∧
        ∃ now x z, change now x = .ok z ∧ y = z.touch now) ∨
      (∃ now x key, change now x = .error key ∧ r = .error (.repository (.recordNotFound key)) ∧
        ms = []) := by
  intro s x sees
  cases changed : change (c.host.clock s.readings) x with
  | ok z =>
    obtain ⟨named, hash⟩ := keeps _ _ _ changed
    obtain ⟨store, stored, kept', loads⟩ := reliable.stores (z.touch (c.host.clock s.readings))
      sees.kept (named.trans sees.named)
    have queried : c.query operation s =
        (.ok (), { s with store, readings := s.readings + 1 }) := by
      rw [query_eval, modifies, modify_eval sees.loads changed, stored]
      rfl
    obtain ⟨ms, y, grows, sees', hash', done, all⟩ :=
      (adds_note (.wrote store) : c.Adds kept _ _)
      { s with store, readings := s.readings + 1 } (z.touch (c.host.clock s.readings))
      ⟨kept', loads, named.trans sees.named⟩
    have written : c.record operation s = c.note (.wrote store)
        { s with store, readings := s.readings + 1 } := by
      rw [Conduct.record, bind_eval, queried]
      rfl
    have same : y = z.touch (c.host.clock s.readings) :=
      Option.some.inj (Except.ok.inj (sees'.loads.symm.trans loads))
    rw [written]
    exact ⟨ms, y, ⟨grows.history, grows.aware⟩, sees', hash'.trans hash,
      .inl ⟨done, ⟨store, all⟩, _, x, z, changed, same⟩⟩
  | error key =>
    rw [record_refused change modifies sees changed]
    exact ⟨[], x, ⟨rfl, requested_nil.symm⟩, ⟨sees.kept, sees.loads, sees.named⟩, rfl,
      .inr ⟨_, x, key, changed, rfl, rfl⟩⟩

theorem plays_record {operation : RepositoryM S Unit}
    (change : Timestamp → RunSnapshot → Except RecordKey RunSnapshot)
    (modifies : ∀ now s, operation now s = c.host.backend.modify c.runId change now s)
    (keeps : ∀ now x y, change now x = .ok y →
      y.run.runId = x.run.runId ∧ y.run.artifactHash = x.run.artifactHash) :
    c.Plays kept [] (c.record operation) := by
  refine (adds_record reliable change modifies keeps).mono ?_
  rintro s r ms y (⟨rfl, ⟨store, rfl⟩, -⟩ | ⟨_, _, _, -, rfl, rfl⟩)
  · exact ⟨List.Sublist.refl _, by simp [Unfinished, Moment.isFinish], nofun⟩
  · exact ⟨List.Sublist.refl _, unfinished_nil, fun e same => by cases same; rfl⟩

/-- A change that cannot fail. -/
theorem plays_update (change : Timestamp → RunSnapshot → RunSnapshot)
    (keeps : ∀ now x, (change now x).run.runId = x.run.runId ∧
      (change now x).run.artifactHash = x.run.artifactHash) :
    c.Plays kept [] (c.record (c.host.backend.update c.runId change)) :=
  plays_record reliable (fun now x => .ok (change now x)) (fun _ _ => rfl) fun now x y changed => by
    cases changed
    exact keeps now x

/-- To look for a request does nothing, or it stamps the run and terminates it. -/
theorem adds_checkTermination :
    c.Adds kept c.checkTermination fun s r ms y =>
      (s.terminating = false ∧ r = .ok () ∧ ms = []) ∨
      (r = .error (.terminated c.runId) ∧ (∃ store, ms = [.wrote store]) ∧ y.run.Stamped) := by
  intro s x sees
  have asked : c.checkTermination s = (if s.terminating then do
        c.record (c.host.backend.setRunStatus c.runId .terminated none)
        throw (.terminated c.runId)
      else pure () : Activity S Unit) s := rfl
  rw [asked]
  by_cases flag : s.terminating = true
  · have stamps := adds_record reliable (fun now x => .ok (x.setStatus now .terminated none))
      (show ∀ now s, c.host.backend.setRunStatus c.runId .terminated none now s = _ from
        fun _ _ => rfl)
      fun now x y changed => by cases changed; exact ⟨rfl, rfl⟩
    obtain ⟨ms, y, grows, sees', hash, written⟩ := stamps s x sees
    rcases written with ⟨done, all, now, x', z, changed, rfl⟩ | ⟨_, _, _, refused, -⟩
    · cases changed
      rw [if_pos flag, bind_eval]
      rcases h : c.record (c.host.backend.setRunStatus c.runId .terminated none) s with ⟨r, s'⟩
      rw [h] at grows sees' done
      obtain rfl : r = .ok () := done
      exact ⟨ms, _, grows, sees', hash, .inr ⟨rfl, all, rfl, rfl, rfl⟩⟩
    · cases refused
  · rw [if_neg flag]
    exact ⟨[], x, ⟨rfl, requested_nil.symm⟩, sees, rfl,
      .inl ⟨Bool.eq_false_iff.2 flag, rfl, rfl⟩⟩

/-- What starts one task, or finishes something, heeds requests together with the look for one that
follows it. -/
theorem Acts.checked {a : Activity S α} (h : c.Acts kept StartSign.ofTask a) :
    c.Heeds kept (a >>= fun _ => c.checkTermination) := by
  refine Adds.bind h (fun _ => adds_checkTermination reliable) ?_ ?_
  · rintro s e ms y ⟨starts, other⟩
    obtain ⟨unfinished, proper⟩ := other e rfl
    refine ⟨fun runId same => ?_, ?_⟩
    · cases same
      cases proper
    · rintro before after rfl -
      rw [startsIn_append] at starts
      exact .ends ((List.sublist_append_right _ _).trans starts)
        (.inl (unfinished_append.1 unfinished).2)
  · rintro s s' x ms y r ms' z grows ⟨starts, -⟩ (⟨calm, rfl, rfl⟩ | ⟨rfl, ⟨store, rfl⟩, stamped⟩)
    · refine ⟨nofun, fun before after all asked => ?_⟩
      have inForce : c.Requested s ms := by
        rw [List.append_nil] at all
        exact all ▸ asked.append after
      exact absurd (grows.aware.2 inForce) (by simp [calm])
    · refine ⟨fun runId same => ?_, fun before after all asked => ?_⟩
      · cases same
        exact ⟨rfl, stamped⟩
      · have wrote : startsIn [(.wrote store : Moment S)] = [] := rfl
        have all : startsIn ms = startsIn before ++ startsIn after := by
          rw [← startsIn_append, ← all, startsIn_append, wrote, List.append_nil]
        rw [all] at starts
        exact .ends ((List.sublist_append_right _ _).trans starts) (.inr rfl)

end Changes

theorem Plays.weaken {signs signs' : List StartSign} {a : Activity S α}
    (h : c.Plays kept signs a) (more : signs.Sublist signs') : c.Plays kept signs' a :=
  h.mono fun _ _ _ _ ⟨starts, rest⟩ => ⟨starts.trans more, rest⟩

theorem Acts.weaken {signs signs' : List StartSign} {a : Activity S α}
    (h : c.Acts kept signs a) (more : signs.Sublist signs') : c.Acts kept signs' a :=
  h.mono fun _ _ _ _ ⟨starts, rest⟩ => ⟨starts.trans more, rest⟩

/-! ## The way on from a space -/

theorem plays_ask (prompt : String) : c.Plays kept [] (c.ask prompt) := by
  refine Plays.silent_bind (Adds.idle fun s x _ =>
    ⟨.ok (s.answers.shown prompt, (s.answers.next prompt).1), (s.answers.next prompt).2, 0, rfl,
      List.Sublist.refl _, unfinished_nil, by rintro _ ⟨⟩⟩) ?_
  rintro ⟨shown, answer⟩
  have shows {b : Activity S String} (asked : c.Plays kept [] b) : c.Plays kept [] (do
      unless shown.isEmpty do c.note (.printed shown)
      b) := by
    cases shown.isEmpty
    · exact Plays.silent_bind (plays_note (m := .printed shown) rfl rfl) fun _ => asked
    · exact asked
  refine shows (Plays.silent_bind (plays_note (m := .asked prompt) rfl rfl) fun _ => ?_)
  cases answer with
  | ok answer => exact plays_pure answer
  | error fault => exact plays_throw rfl

theorem plays_holds (space text target : String) :
    c.Plays kept [] (c.holds space text target) := by
  rw [holds]
  cases Condition.parse text with
  | error e => exact plays_throw rfl
  | ok condition =>
    have answered : c.Plays kept [] (c.answerFor space condition target) := by
      rw [answerFor]
      cases condition.placeholder with
      | none => exact plays_pure none
      | some name =>
        exact Plays.silent_bind (plays_emit (fun _ => rfl) fun _ => rfl) fun _ =>
          Plays.silent_bind (plays_ask _) fun answer => plays_pure (some answer)
    refine Plays.silent_bind answered fun answer => ?_
    cases condition.evaluate answer with
    | error e => exact plays_throw rfl
    | ok verdict => exact plays_pure verdict

theorem plays_choose (space : String) (transitions : List Transition) :
    c.Plays kept [] (c.choose space transitions) := by
  induction transitions with
  | nil => exact plays_throw rfl
  | cons t rest ih =>
    rw [choose]
    cases t.condition with
    | none => exact plays_pure _
    | some text =>
      refine Plays.silent_bind (plays_holds space text t.target) fun verdict => ?_
      cases verdict
      · exact ih
      · exact plays_pure _

/-- The next space is chosen without starting or finishing anything. -/
theorem plays_next (space : String) : c.Plays kept [] (c.next space) := by
  rw [Conduct.next]
  cases c.artifact.control.outgoing space with
  | nil => exact plays_pure _
  | cons t rest => exact plays_choose space (t :: rest)

/-! ## Tasks -/

section Working

variable (reliable : c.host.Reliable c.runId kept)

include reliable

theorem plays_launch (command : Command) : c.Plays kept [.launched] (c.launch command) := by
  intro s x sees
  obtain ⟨kept', loads⟩ := reliable.launches command sees.kept
  have noted : c.Plays kept [.launched] (c.note (.launched command)) := plays_note rfl rfl
  obtain ⟨ms, y, grows, sees', hash, starts, unfinished, -⟩ := noted
    { s with store := (c.host.launch command s.store).2 } x
    ⟨kept', loads.trans sees.loads, sees.named⟩
  exact ⟨ms, y, ⟨grows.history, grows.aware⟩, sees', hash, starts, unfinished, nofun⟩

theorem plays_execute (t : TaskDefinition) (parameters : ParameterSet) (inputs : List String) :
    c.Plays kept [.launched] (c.execute t parameters inputs) := by
  rw [execute]
  cases Command.ofTask t parameters inputs c.options.directory with
  | error e => exact (plays_pure _).weaken (List.nil_sublist _)
  | ok command =>
    show c.Plays kept _ (c.carryOut t command)
    rw [carryOut]
    cases c.options.dryRun
    · refine Plays.bind_silent (plays_launch reliable command) fun completion => ?_
      cases completion <;> exact plays_pure _
    · have shown : c.Plays kept [] (c.note (.printed (command.preview t.taskId))) :=
        plays_note rfl rfl
      exact (Plays.bind shown fun _ => plays_pure _).weaken (List.nil_sublist _)

/-- The outputs of a task are produced by one program. -/
theorem plays_outputValues (space : SpaceDefinition) (index : Nat) (set : ParameterSet)
    (t : TaskDefinition) : c.Plays kept [.launched] (c.outputValues space index set t) := by
  rw [outputValues]
  cases hp : parametersOf space index set t with
  | error e =>
    refine (plays_throw (α := List String) ?_).weaken (List.nil_sublist _)
    obtain ⟨name, -, parameters, missing⟩ := exists_of_foldlM_error hp
    split at missing <;> cases missing
    rfl
  | ok parameters =>
    refine Plays.silent_bind (plays_pure parameters) fun parameters => ?_
    refine Plays.silent_bind (plays_of_reads fun x =>
      ⟨_, Reads.mapM (reads_inputValue space index t) t.inputData, fun e failed => ?_⟩)
      fun inputs => ?_
    · obtain ⟨name, -, missing⟩ := exists_of_mapM_error failed
      rw [(input_eq_error missing).1]
      rfl
    · refine Plays.bind_silent (plays_execute reliable t parameters inputs) fun values => ?_
      cases values with
      | error e => exact plays_throw rfl
      | ok values => exact plays_pure values

theorem plays_recordValues (space : SpaceDefinition) (index : Nat) (t : TaskDefinition)
    (outputs : List (String × String)) :
    c.Plays kept [] (c.recordValues space index t outputs) := by
  induction outputs with
  | nil => exact plays_pure ()
  | cons output rest ih =>
    refine Plays.silent_bind (plays_record reliable (fun now x => .ok (x.putMapping {
        spaceId := space.spaceId, index, name := output.1, value := output.2,
        taskId := some t.taskId, recordedAt := now })) (fun _ _ => rfl) ?_) fun _ => ih
    rintro now x y ⟨⟩
    exact ⟨rfl, rfl⟩

theorem plays_setSpaceStatus (space : String) (status : UnitStatus) :
    c.Plays kept [] (c.record (c.host.backend.setSpaceStatus c.runId space status)) := by
  refine plays_record reliable _ (fun _ _ => rfl) fun now x y changed => ?_
  obtain ⟨_, -, rfl⟩ := RunSnapshot.exists_of_setSpaceStatus changed
  exact ⟨rfl, rfl⟩

theorem plays_setSetStatus (space : String) (index : Nat) (status : UnitStatus) :
    c.Plays kept [] (c.record (c.host.backend.setSetStatus c.runId space index status)) := by
  refine plays_record reliable _ (fun _ _ => rfl) fun now x y changed => ?_
  obtain ⟨_, -, rfl⟩ := RunSnapshot.exists_of_setSetStatus changed
  exact ⟨rfl, rfl⟩

theorem plays_setTaskStatus (space : String) (index : Nat) (task : String) (status : UnitStatus)
    (error : Option String) :
    c.Plays kept [] (c.record (c.host.backend.setTaskStatus c.runId space index task status
      error)) := by
  refine plays_record reliable _ (fun _ _ => rfl) fun now x y changed => ?_
  obtain ⟨_, -, rfl⟩ := RunSnapshot.exists_of_setTaskStatus changed
  exact ⟨rfl, rfl⟩

/-- To run a task starts it, and finishes it last of all. -/
theorem acts_runTask (space : SpaceDefinition) (index : Nat) (set : ParameterSet)
    (t : TaskDefinition) : c.Acts kept StartSign.ofTask (c.runTask space index set t) := by
  rw [runTask]
  refine Plays.silent_acts_bind (plays_update reliable
    (fun now x => x.startTask now space.spaceId index t.taskId) fun _ _ => ⟨rfl, rfl⟩) fun _ => ?_
  refine Plays.acts_bind (p := [.marked]) (plays_started _) fun _ => ?_
  refine Plays.acts_bind (p := [.told]) (plays_emit (fun _ => rfl) fun _ => rfl) fun _ => ?_
  refine Plays.attempt_bind (p := [.launched]) (q := [])
    (plays_outputValues reliable space index set t) (fun e proper => Plays.acts ?_) fun values => ?_
  · refine Plays.silent_bind ?_ fun _ =>
      Plays.silent_bind (plays_failed _) fun _ => plays_throw proper
    exact Plays.silent_bind (plays_setTaskStatus reliable _ _ _ _ _) fun _ =>
      Plays.silent_bind (plays_setSetStatus reliable _ _ _) fun _ =>
        plays_setSpaceStatus reliable _ _
  · exact Plays.silent_acts_bind (plays_recordValues reliable _ _ _ _) fun _ =>
      Plays.silent_acts_bind (plays_setTaskStatus reliable _ _ _ _ _) fun _ =>
        (Succeeds.bind (succeeds_completed _) fun _ => succeeds_emit fun _ => rfl).acts

/-- An activity heeds requests if it does so in parts that are looked at in between. -/
theorem Acts.checked_bind {a : Activity S α} {f : Unit → Activity S β}
    (first : c.Acts kept StartSign.ofTask a) (goesOn : c.Heeds kept (f ())) :
    c.Heeds kept (a >>= fun _ => c.checkTermination >>= f) := by
  have parts := Heeds.bind (first.checked reliable) fun _ => goesOn
  rwa [bind_assoc] at parts

theorem heeds_runTasks (space : SpaceDefinition) (index : Nat) (set : ParameterSet)
    (total done : Nat) (tasks : List TaskDefinition) :
    c.Heeds kept (c.runTasks space index set total done tasks) := by
  induction tasks generalizing done with
  | nil => exact (plays_pure ()).heeds
  | cons t rest ih =>
    have reported := Acts.bind (acts_runTask reliable space index set t) fun _ =>
      succeeds_emit (e := .progress c.runId (done + 1) total
        s!"{space.spaceId}: task {toString (done + 1)}/{toString total} ({t.taskId})") fun _ => rfl
    have heeds := Acts.checked_bind (f := fun _ => c.runTasks space index set total (done + 1) rest)
      reliable reported (ih (done + 1))
    rwa [bind_assoc] at heeds

theorem heeds_runSets (space : SpaceDefinition) (tasks : List TaskDefinition) (completed : Nat)
    (sets : List (ParameterSet × Nat)) : c.Heeds kept (c.runSets space tasks completed sets) := by
  induction sets generalizing completed with
  | nil => exact (plays_pure ()).heeds
  | cons head rest ih =>
    obtain ⟨set, index⟩ := head
    refine Heeds.bind (plays_of_reads_ok fun x => reads_isSetCompleted space index).heeds
      fun known => ?_
    cases known
    · simp only [Bool.false_eq_true, if_false]
      refine Heeds.bind (plays_update reliable
        (fun now x => x.startSet now space.spaceId index set) fun _ _ => ⟨rfl, rfl⟩).heeds
        fun _ => ?_
      refine Heeds.bind (plays_emit (fun _ => rfl) fun _ => rfl).heeds fun _ => ?_
      refine Heeds.bind (heeds_runTasks reliable _ _ _ _ _ _) fun _ => ?_
      have tells (message : String) : c.Succeeds kept (do
          c.emit (.setCompleted c.runId space.spaceId index)
          c.emit (.progress c.runId (completed + 1) space.parameters.length message)) :=
        Succeeds.bind (succeeds_emit fun _ => rfl) fun _ => succeeds_emit fun _ => rfl
      have closed (message : String) : c.Acts kept StartSign.ofTask (do
          c.record (c.host.backend.setSetStatus c.runId space.spaceId index .completed)
          c.emit (.setCompleted c.runId space.spaceId index)
          c.emit (.progress c.runId (completed + 1) space.parameters.length message)) :=
        (Plays.silent_acts_bind (plays_setSetStatus reliable _ _ _) fun _ =>
          (tells message).acts).weaken (List.nil_sublist _)
      have heeds (message : String) :=
        Acts.checked_bind (f := fun _ => c.runSets space tasks (completed + 1) rest)
          reliable (closed message) (ih (completed + 1))
      simp only [bind_assoc] at heeds
      exact heeds _
    · simp only [if_true]
      exact ih (completed + 1)

/-- To visit a space finishes it last of all, so it heeds requests together with the look for one
after it. -/
theorem heeds_visit (space : SpaceDefinition) :
    c.Heeds kept (c.visit space >>= fun _ => c.checkTermination) := by
  have closed : c.Acts kept StartSign.ofTask (do
      c.record (c.host.backend.setSpaceStatus c.runId space.spaceId .completed)
      c.emit (.spaceCompleted c.runId space.spaceId)) :=
    (Plays.silent_acts_bind (plays_setSpaceStatus reliable _ _) fun _ =>
      (succeeds_emit fun _ => rfl).acts).weaken (List.nil_sublist _)
  have goesOn : c.Heeds kept ((do
      c.emit (.spaceStarted c.runId space.spaceId)
      let tasks ← c.tasksOf space
      c.runSets space tasks 0 space.parameters.zipIdx
      c.record (c.host.backend.setSpaceStatus c.runId space.spaceId .completed)
      c.emit (.spaceCompleted c.runId space.spaceId) : Activity S Unit) >>= fun _ =>
        c.checkTermination) := by
    simp only [bind_assoc]
    refine Heeds.bind (plays_emit (fun _ => rfl) fun _ => rfl).heeds fun _ => ?_
    refine Heeds.bind (a := liftM (c.tasksOf space)) ?_ fun tasks => ?_
    · cases known : c.tasksOf space with
      | error e =>
        obtain ⟨id, -, missing⟩ := exists_of_mapM_error known
        split at missing <;> cases missing
        exact (plays_throw rfl).heeds
      | ok tasks => exact (plays_pure tasks).heeds
    · refine Heeds.bind (heeds_runSets reliable _ _ _ _) fun _ => ?_
      have heeds := closed.checked reliable
      rwa [bind_assoc] at heeds
  rw [visit, bind_assoc]
  refine Heeds.bind (plays_of_reads_ok fun x => reads_query (·.space? space.spaceId)).heeds
    fun known => ?_
  cases known.all fun record => record.status != .running
  · simp only [Bool.false_eq_true, if_false]
    exact goesOn
  · simp only [if_true, bind_assoc]
    have heeds := Heeds.bind (plays_update reliable
      (fun now x => x.startSpace now space.spaceId) fun _ _ => ⟨rfl, rfl⟩).heeds fun _ => goesOn
    simp only [bind_assoc] at heeds
    exact heeds

theorem heeds_visitOnce (space : SpaceDefinition) (goesOn : Bool) :
    c.Heeds kept (c.visitOnce space goesOn) := by
  rw [visitOnce]
  refine Heeds.bind (plays_of_reads_ok fun x => reads_isSpaceCompleted space.spaceId).heeds
    fun completed => ?_
  cases completed
  · simp only [Bool.false_and, Bool.false_eq_true, if_false]
    exact heeds_visit reliable space
  · cases goesOn
    · simp only [Bool.and_false, Bool.false_eq_true, if_false, if_true]
      exact Heeds.bind (plays_update reliable (fun _ x => x.resetSpace space.spaceId)
        fun _ _ => ⟨rfl, rfl⟩).heeds fun _ => heeds_visit reliable space
    · simp only [Bool.and_self, if_true]
      exact (plays_pure ()).heeds

theorem heeds_traverse (visits : Nat) (current : String) (goesOn : Bool) :
    c.Heeds kept (c.traverse visits current goesOn) := by
  have enters (space : String) :
      c.Plays kept [] (c.record (c.host.backend.enter c.runId space)) :=
    plays_update reliable (fun now x => x.enter now space) fun _ _ => ⟨rfl, rfl⟩
  induction visits generalizing current goesOn with
  | zero =>
    rw [traverse]
    split
    · exact Heeds.bind (enters endMark).heeds fun _ => (plays_pure true).heeds
    · exact (plays_pure false).heeds
  | succ visits ih =>
    rw [traverse]
    split
    · exact Heeds.bind (enters endMark).heeds fun _ => (plays_pure true).heeds
    · cases c.artifact.space? current with
      | none => exact (plays_throw rfl).heeds
      | some space =>
        exact Heeds.bind (enters current).heeds fun _ =>
          Heeds.bind (heeds_visitOnce reliable space goesOn) fun _ =>
            Heeds.bind (plays_next current).heeds fun next => ih next false

/-! ## Calls -/

omit reliable in
theorem plays_summary (resumed executed : Bool) :
    c.Plays kept [] (c.summary resumed executed) := by
  refine plays_of_reads fun x => ⟨_, reads_summary resumed executed, fun e failed => ?_⟩
  cases h : c.resultsOn x.ledger with
  | ok results =>
    rw [h] at failed
    cases failed
  | error e' =>
    rw [h] at failed
    cases failed
    obtain ⟨space, -, results, missing⟩ := exists_of_foldlM_error h
    rw [spaceOn] at missing
    split at missing
    · cases missing
    · split at missing <;> cases missing
      rfl

theorem plays_setRunStatus (status : RunStatus) (error : Option String) :
    c.Plays kept [] (c.record (c.host.backend.setRunStatus c.runId status error)) :=
  plays_update reliable (fun now x => x.setStatus now status error) fun _ _ => ⟨rfl, rfl⟩

/-- At the end of a call nothing is started or finished any more. -/
theorem plays_conclude (resumed : Bool) {r : Except RunError Bool}
    (other : ∀ e, r = .error e → e.isTermination = false) :
    c.Plays kept [] (c.conclude resumed r) := by
  rcases r with e | _ | _ <;> rw [conclude.eq_def]
  · simp only [other e rfl, Bool.not_false, if_true]
    refine Plays.silent_bind (plays_setRunStatus reliable .failed (some e.message)) fun _ => ?_
    exact Plays.silent_bind (plays_emit (e := .error c.runId e.message) (fun _ => rfl)
      fun _ => rfl) fun _ => plays_throw (other e rfl)
  · exact plays_pure none
  · refine Plays.silent_bind (plays_setRunStatus reliable .completed none) fun _ => ?_
    refine Plays.silent_bind (plays_update reliable
      (fun _ x => x.setPosition none none none) fun _ _ => ⟨rfl, rfl⟩) fun _ => ?_
    exact Plays.silent_bind (plays_summary resumed true) fun summary => plays_pure (some summary)

/-- The end of a call adds to what heeds requests that a failure is recorded, and nothing else. -/
theorem heeds_conclude (resumed : Bool) {a : Activity S Bool} (first : c.Heeds kept a) :
    c.Heeds kept (a.attempt >>= c.conclude resumed) := by
  intro s x sees
  obtain ⟨ms, y, grows, sees', hash, heeding⟩ := first s x sees
  have eval : (a.attempt >>= c.conclude resumed) s = c.conclude resumed (a s).1 (a s).2 := rfl
  rw [eval]
  generalize (a s).1 = r at heeding ⊢
  rcases r with e | reached
  · cases failure : e.isTermination
    · obtain ⟨ms', z, grows', sees'', hash', starts, unfinished, failure'⟩ :=
        plays_conclude reliable resumed (r := .error e) (by rintro _ ⟨⟩; exact failure)
          (a s).2 y sees'
      obtain ⟨e', failed⟩ := conclude_error (c := c) resumed e (a s).2
      refine ⟨ms ++ ms', z, grows.trans grows', sees'', hash'.trans hash, ?_⟩
      rw [failed]
      exact heeding.fails failure (List.sublist_nil.1 starts) unfinished (failure' e' failed)
    · have ends : c.conclude resumed (.error e) (a s).2 = (.error e, (a s).2) := by
        rw [conclude.eq_def]
        simp only [failure, Bool.not_true, Bool.false_eq_true, if_false]
        rfl
      rw [ends]
      exact ⟨ms, y, grows, sees', hash, heeding.passOn⟩
  · obtain ⟨ms', z, grows', sees'', hash', heeding'⟩ :=
      (plays_conclude reliable resumed (r := .ok reached) (by rintro _ ⟨⟩)).heeds (a s).2 y sees'
    exact ⟨ms ++ ms', z, grows.trans grows', sees'', hash'.trans hash,
      heeding.andThen grows heeding'⟩

/-- A run that is carried out heeds requests. -/
theorem heeds_drive (visits : Nat) (resumed : Bool) : c.Heeds kept (c.drive visits resumed) := by
  have way : c.Heeds kept (do
      c.traverse visits (← c.firstSpace resumed) resumed : Activity S Bool) :=
    Heeds.bind (plays_of_reads_ok fun x => reads_firstSpace resumed).heeds
      fun current => heeds_traverse reliable visits current resumed
  exact Heeds.bind (plays_setRunStatus reliable .running none).heeds fun _ =>
    heeds_conclude reliable resumed way

/-- So does a run that is gone on with, also if it is refused or completed already. -/
theorem heeds_continueRun (visits : Nat) (run : RunRecord) :
    c.Heeds kept (c.continueRun visits run) := by
  rw [continueRun]
  split
  · exact (plays_throw rfl).heeds
  · split
    · exact (Plays.silent_bind (plays_summary true false) fun summary =>
        plays_pure (some summary)).heeds
    · exact heeds_drive reliable visits true

/-- A run that is new is registered, and is carried out heeding requests. -/
theorem run_heeds (visits : Nat) {s : Session S} (finds : c.Finds kept s none) :
    ∃ ms y, c.Grows s (c.call .run visits s).2 ms ∧ c.Sees kept (c.call .run visits s).2 ⟨y, []⟩ ∧
      y.run.artifactHash = c.artifact.contentHash ∧ c.Heeding s (c.call .run visits s).1 ms y := by
  let s₁ : Session S := { s with readings := s.readings + 1 }
  obtain ⟨store, x, registers, kept', loads, named, -, ledger⟩ :=
    register_eval (s := s₁) reliable finds.kept finds.loads
  have noted : c.Plays kept [] (c.note (.wrote store)) := plays_note rfl rfl
  obtain ⟨ms, y, grows, sees, hash, heeding⟩ :=
    Heeds.bind noted.heeds (fun _ => heeds_drive reliable visits false)
      { s₁ with store, readings := s₁.readings + 1 } x ⟨kept', loads, named⟩
  have drives : c.call .run visits s = (c.note (.wrote store) >>= fun _ => c.drive visits false)
      { s₁ with store, readings := s₁.readings + 1 } :=
    run_eq_drive_registered visits finds.loads registers
  rw [drives]
  exact ⟨ms, y, ⟨grows.history, grows.aware⟩, sees, hash.trans (congrArg Ledger.hash ledger),
    heeding.stamps, heeding.prompt⟩

/-- A call heeds requests, and if it was terminated, the run is stamped. -/
theorem call_heeds (request : Request) (visits : Nat) {s : Session S} {x : Option RunSnapshot}
    (finds : c.Finds kept s x) :
    ∃ ms, c.Grows s (c.call request visits s).2 ms ∧
      (∀ before after, ms = before ++ after → c.Requested s before →
        c.Prompt (c.call request visits s).1 after) ∧
      ∀ runId, (c.call request visits s).1 = .error (.terminated runId) → runId = c.runId ∧
        ∃ y, c.Finds kept (c.call request visits s).2 (some y) ∧ y.run.Stamped ∧
          y.run.artifactHash = c.artifact.contentHash := by
  cases x with
  | some x =>
    rw [call_recorded request visits finds]
    obtain ⟨ms, y, grows, sees, hash, heeding⟩ := heeds_continueRun reliable visits x.run
      { s with readings := s.readings + 1 } x ⟨finds.kept, finds.loads, finds.named x rfl⟩
    refine ⟨ms, ⟨grows.history, grows.aware⟩, heeding.prompt, fun runId stopped => ?_⟩
    obtain ⟨same, stamped⟩ := heeding.stamps runId stopped
    refine ⟨same, y, sees.finds, stamped,
      hash.trans (Classical.byContradiction fun other => ?_)⟩
    rw [continueRun, if_pos other] at stopped
    cases stopped
  | none =>
    cases request with
    | resume =>
      have refused : c.call .resume visits s =
          (.error (.runNotFound c.runId), { s with readings := s.readings + 1 }) := by
        rw [call, resume, bind_eval, finds.run?_eval]
        rfl
      rw [refused]
      refine ⟨[], ⟨rfl, requested_nil.symm⟩, fun before after all _ => ?_, by rintro _ ⟨⟩⟩
      obtain ⟨-, rfl⟩ := List.append_eq_nil_iff.1 all.symm
      exact .ends (List.nil_sublist _) (.inl unfinished_nil)
    | run =>
      obtain ⟨ms, y, grows, sees, own, heeding⟩ := run_heeds reliable visits finds
      refine ⟨ms, grows, heeding.prompt, fun runId stopped => ?_⟩
      obtain ⟨same, stamped⟩ := heeding.stamps runId stopped
      exact ⟨same, y, sees.finds, stamped, own⟩

end Working

/-! ## Promptness -/

/-- After a request for termination at most one more task is started, and if anything finishes after
it, the call ends by the termination. A run that was terminated has a finish time and no error, and
any later call goes on with it. -/
theorem call_terminates (reliable : c.host.Reliable c.runId kept) (request : Request)
    (visits : Nat) {s : Session S} {x : Option RunSnapshot} (finds : c.Finds kept s x) :
    (∃ ms : List (Moment S), (c.call request visits s).2.history = ms.reverse ++ s.history ∧
      ∀ before after, ms = before ++ after → c.Requested s before →
        (startsIn after).Sublist StartSign.ofTask ∧
        ((∃ m ∈ after, m.isFinish = true) →
          (c.call request visits s).1 = .error (.terminated c.runId))) ∧
    ∀ runId, (c.call request visits s).1 = .error (.terminated runId) → runId = c.runId ∧
      ∃ y, c.Finds kept (c.call request visits s).2 (some y) ∧ y.run.Stamped ∧
        ∀ (c' : Conduct S) request' visits' s', c'.subject = c.subject →
          c'.Finds kept s' (some y) → c'.call request' visits' s' =
            c'.drive visits' true { s' with readings := s'.readings + 1 } := by
  obtain ⟨ms, grows, prompt, stamps⟩ := call_heeds reliable request visits finds
  refine ⟨⟨ms, grows.history, fun before after all asked => ?_⟩, fun runId stopped => ?_⟩
  · have unseen {m : Moment S} (mem : m ∈ after) (shown : m.isFinish = true)
        (unfinished : Unfinished after) : False := by
      rw [unfinished m mem] at shown
      cases shown
    have heeded := prompt before after all asked
    generalize (c.call request visits s).1 = r at heeded ⊢
    rcases r with e | summary
    · obtain ⟨starts, finishes⟩ := prompt_error_iff.1 heeded
      refine ⟨starts, ?_⟩
      rintro ⟨m, mem, shown⟩
      rw [finishes.resolve_left (unseen mem shown)]
    · obtain ⟨starts, unfinished⟩ := prompt_ok_iff.1 heeded
      refine ⟨by simp [starts], ?_⟩
      rintro ⟨m, mem, shown⟩
      exact (unseen mem shown unfinished).elim
  · obtain ⟨same, y, found, stamped, own⟩ := stamps runId stopped
    refine ⟨same, y, found, stamped, fun c' request' visits' s' subject finds' => ?_⟩
    have own' : y.run.artifactHash = c'.artifact.contentHash := by
      rw [own, show c'.artifact = c.artifact from congrArg Subject.artifact subject]
    rw [call_recorded request' visits' finds', continueRun, if_neg (fun other => other own'),
      if_neg (by simp [stamped.status])]

/-- A session on an empty table in which termination is requested before anything is called. -/
def requestedBefore : Session (Table RunSnapshot) := { onEmptyTable with terminating := true }

theorem call_terminates_requestedBefore :
    twoSets.Finds (fun _ => True) requestedBefore none ∧
      ∃ ms : List (Moment (Table RunSnapshot)),
        (twoSets.call .run 2 requestedBefore).2.history = ms.reverse ∧
        (startsIn ms).Sublist StartSign.ofTask ∧ (∃ m ∈ ms, m.isFinish = true) ∧
        (twoSets.call .run 2 requestedBefore).1 = .error (.terminated "r") ∧
        ∃ y, (twoSets.call .run 2 requestedBefore).2.store.get? "r" = some y ∧ y.run.Stamped := by
  have finds : twoSets.Finds (fun _ => True) requestedBefore none :=
    ⟨trivial, rfl, fun _ h => nomatch h⟩
  have asked : twoSets.Requested requestedBefore [] := .inl rfl
  have finished : (twoSets.call .run 2 requestedBefore).2.history.any Moment.isFinish = true := by
    decide +kernel
  obtain ⟨⟨ms, history, prompt⟩, stamps⟩ :=
    call_terminates (Host.inMemory_reliable _ _ _) .run 2 finds
  obtain ⟨starts, ends⟩ := prompt [] ms rfl asked
  have shown : ∃ m ∈ ms, m.isFinish = true := by
    rw [history] at finished
    simpa [requestedBefore, onEmptyTable] using finished
  have stopped := ends shown
  obtain ⟨-, y, found, stamped, -⟩ := stamps "r" stopped
  have loads : (twoSets.call .run 2 requestedBefore).2.store.get? "r" = some y :=
    Except.ok.inj found.loads
  exact ⟨finds, ms, by simpa [requestedBefore, onEmptyTable] using history, starts, shown, stopped,
    y, loads, stamped⟩

end Conduct

end Sweep
