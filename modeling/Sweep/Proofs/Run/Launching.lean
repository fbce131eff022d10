import Sweep.Proofs.Run.Choice
import Sweep.Proofs.Run.Course

/-!
# Programs are started by tasks

A call carries tasks out one after the other, on whatever host and from whatever record. A task
starts its program between its own marks, and no program is started anywhere else. Only a call that
fails can leave a task without an end: then the record could not be changed.
-/

namespace Sweep

variable {S α β : Type}

theorem Session.deeds_note {c : Conduct S} (m : Moment S) (s : Session S) :
    (c.note m s).2.deeds = s.deeds ++ m.deed?.toList := by
  rw [Conduct.note_eval, Conduct.deeds_cons _ m rfl]
  rfl

namespace Conduct

variable (c : Conduct S)

/-- A task that a call may carry out, in a parameter set of a space. -/
structure Assigned (space : SpaceDefinition) (set : ParameterSet) (index : Nat)
    (t : TaskDefinition) : Prop where
  declared : c.artifact.space? space.spaceId = some space
  numbered : (set, index) ∈ space.parameters.zipIdx
  defined : c.artifact.task? t.taskId = some t
  listed : t.taskId ∈ space.tasksOrder

/-- The command is that of a task with the parameters of its set, on values for its inputs. -/
inductive Intends : TaskKey → Command → Prop
  | of {space : SpaceDefinition} {set : ParameterSet} {index : Nat} {t : TaskDefinition}
      {parameters : ParameterSet} {inputs : List String} {command : Command} :
      c.Assigned space set index t → parametersOf space index set t = .ok parameters →
      inputs.length = t.inputData.length →
      Command.ofTask t parameters inputs c.options.directory = .ok command →
      Intends ⟨space.spaceId, index, t.taskId⟩ command

/-- What a task does between its marks: it starts its program, or nothing. -/
inductive Starts (key : TaskKey) : List Deed → Prop
  | nothing : Starts key []
  | program {command : Command} : c.options.dryRun = false → c.Intends key command →
      Starts key [.launched command]

/-- Tasks are carried out one after the other, and each comes to an end. It is completed only if its
program was started, except where commands are only shown. -/
inductive Works : List Deed → Prop
  | nil : Works []
  | task {key : TaskKey} {mark : TaskMark} {programs rest : List Deed} : mark ≠ .started →
      c.Starts key programs →
      (mark = .completed → programs = [] → c.options.dryRun = true) → Works rest →
      Works (.marked key .started :: programs ++ .marked key mark :: rest)

/-- The last of the tasks may not have come to an end. -/
inductive BreaksOff : List Deed → Prop
  | between {done : List Deed} : c.Works done → BreaksOff done
  | within {key : TaskKey} {done programs : List Deed} : c.Works done → c.Starts key programs →
      BreaksOff (done ++ .marked key .started :: programs)

/-- In every session an activity adds deeds that go with its result. -/
def Does (a : Activity S α) (P : Except RunError α → List Deed → Prop) : Prop :=
  ∀ s, ∃ deeds, (a s).2.deeds = s.deeds ++ deeds ∧ P (a s).1 deeds

/-- An activity that carries no task out and starts no program. -/
def Idle (a : Activity S α) : Prop := Does a fun _ deeds => deeds = []

/-- Tasks were carried out, each to its end unless there is an error. -/
structure Laboured (r : Except RunError α) (deeds : List Deed) : Prop where
  begun : c.BreaksOff deeds
  done : ∀ x, r = .ok x → c.Works deeds

def Labours (a : Activity S α) : Prop := Does a c.Laboured

variable {c}

/-! ## Tasks one after the other -/

theorem Starts.mark?_eq {key : TaskKey} {programs : List Deed} (h : c.Starts key programs) :
    programs.filterMap Deed.mark? = [] := by
  cases h <;> rfl

theorem Works.append {deeds deeds' : List Deed} (h : c.Works deeds) (h' : c.Works deeds') :
    c.Works (deeds ++ deeds') := by
  induction h with
  | nil => exact h'
  | task ended starts shown _ ih =>
    rw [List.append_assoc, List.cons_append]
    exact .task ended starts shown ih

theorem BreaksOff.after {deeds deeds' : List Deed} (h : c.BreaksOff deeds')
    (first : c.Works deeds) : c.BreaksOff (deeds ++ deeds') := by
  cases h with
  | between whole => exact .between (first.append whole)
  | within whole starts =>
    rw [← List.append_assoc]
    exact .within (first.append whole) starts

/-- If the last mark is not that of a start, every task has come to an end. -/
theorem BreaksOff.works {deeds : List Deed} (h : c.BreaksOff deeds)
    (ended : ∀ key, (deeds.filterMap Deed.mark?).getLast? ≠ some (key, .started)) :
    c.Works deeds := by
  cases h with
  | between whole => exact whole
  | @within key done programs _ starts =>
    have marks : (done ++ .marked key .started :: programs).filterMap Deed.mark? =
        done.filterMap Deed.mark? ++ [(key, .started)] := by
      rw [List.filterMap_append, List.filterMap_cons, starts.mark?_eq]
      rfl
    exact absurd (marks ▸ List.getLast?_concat) (ended key)

namespace Laboured

variable {deeds : List Deed}

theorem of_works {r : Except RunError α} (h : c.Works deeds) : c.Laboured r deeds :=
  ⟨.between h, fun _ _ => h⟩

theorem error {e : RunError} (h : c.BreaksOff deeds) :
    c.Laboured (.error e : Except RunError α) deeds :=
  ⟨h, nofun⟩

end Laboured

/-! ## Rules -/

theorem Does.mono {a : Activity S α} {P Q : Except RunError α → List Deed → Prop} (h : Does a P)
    (weaker : ∀ r deeds, P r deeds → Q r deeds) : Does a Q := by
  intro s
  obtain ⟨deeds, grown, p⟩ := h s
  exact ⟨deeds, grown, weaker _ _ p⟩

theorem Does.pure {x : α} {Q : Except RunError α → List Deed → Prop} (q : Q (.ok x) []) :
    Does (pure x : Activity S α) Q :=
  fun _ => ⟨[], (List.append_nil _).symm, q⟩

theorem Does.throw {e : RunError} {Q : Except RunError α → List Deed → Prop}
    (q : Q (.error e) []) : Does (throw e : Activity S α) Q :=
  fun _ => ⟨[], (List.append_nil _).symm, q⟩

theorem Does.bind {a : Activity S α} {f : α → Activity S β}
    {P : Except RunError α → List Deed → Prop} {Q : Except RunError β → List Deed → Prop}
    (first : Does a P) (fails : ∀ e deeds, P (.error e) deeds → Q (.error e) deeds)
    (goesOn : ∀ x deeds, P (.ok x) deeds → Does (f x) fun r later => Q r (deeds ++ later)) :
    Does (a >>= f) Q := by
  intro s
  obtain ⟨deeds, grown, p⟩ := first s
  rw [bind_eval]
  rcases h : a s with ⟨e | x, s'⟩ <;> rw [h] at grown p
  · exact ⟨deeds, grown, fails e deeds p⟩
  · obtain ⟨later, grown', q⟩ := goesOn x deeds p s'
    exact ⟨deeds ++ later, by rw [grown', grown, List.append_assoc], q⟩

theorem Does.after_pure {x : α} {f : α → Activity S β} {Q : Except RunError β → List Deed → Prop}
    (goesOn : Does (f x) Q) : Does (Pure.pure x >>= f) Q := by
  rwa [pure_bind]

/-- What fails is looked at, and the second part goes on. -/
theorem Does.attempt_bind {a : Activity S α} {f : Except RunError α → Activity S β}
    {P : Except RunError α → List Deed → Prop} {Q : Except RunError β → List Deed → Prop}
    (first : Does a P)
    (goesOn : ∀ r deeds, P r deeds → Does (f r) fun r' later => Q r' (deeds ++ later)) :
    Does (a.attempt >>= f) Q := by
  intro s
  obtain ⟨deeds, grown, p⟩ := first s
  obtain ⟨later, grown', q⟩ := goesOn (a s).1 deeds p (a s).2
  have looked : a.attempt s = (.ok (a s).1, (a s).2) := rfl
  rw [bind_eval, looked]
  exact ⟨deeds ++ later, by rw [grown', grown, List.append_assoc], q⟩

theorem Idle.bind {a : Activity S α} {f : α → Activity S β}
    {Q : Except RunError β → List Deed → Prop} (first : Idle a)
    (fails : ∀ e, Q (.error e) []) (goesOn : ∀ x, Does (f x) Q) : Does (a >>= f) Q := by
  refine Does.bind first ?_ ?_
  · rintro e _ rfl
    exact fails e
  · rintro x _ rfl
    exact goesOn x

theorem Idle.andThen {a : Activity S α} {f : α → Activity S β} (first : Idle a)
    (goesOn : ∀ x, Idle (f x)) : Idle (a >>= f) :=
  first.bind (fun _ => rfl) goesOn

theorem Idle.pure {x : α} : Idle (pure x : Activity S α) := Does.pure rfl

theorem Idle.throw {e : RunError} : Idle (throw e : Activity S α) := Does.throw rfl

theorem Idle.labours {a : Activity S α} (h : Idle a) : c.Labours a := by
  refine h.mono ?_
  rintro r _ rfl
  exact .of_works .nil

theorem Labours.bind {a : Activity S α} {f : α → Activity S β} (first : c.Labours a)
    (goesOn : ∀ x, c.Labours (f x)) : c.Labours (a >>= f) := by
  refine Does.bind first (fun e deeds p => .error p.begun) fun x deeds p => ?_
  refine (goesOn x).mono fun r later q => ?_
  have whole := p.done x rfl
  exact ⟨q.begun.after whole, fun y same => whole.append (q.done y same)⟩

theorem Idle.thenLabours {a : Activity S α} {f : α → Activity S β} (first : Idle a)
    (goesOn : ∀ x, c.Labours (f x)) : c.Labours (a >>= f) :=
  first.labours.bind goesOn

theorem Labours.pure {x : α} : c.Labours (Pure.pure x) := Idle.pure.labours

theorem Labours.throw {e : RunError} : c.Labours (MonadExcept.throw e : Activity S α) :=
  Idle.throw.labours

/-! ## Primitives -/

theorem does_note (m : Moment S) : Does (c.note m) fun _ deeds => deeds = m.deed?.toList :=
  fun s => ⟨_, s.deeds_note m, rfl⟩

theorem idle_query (operation : RepositoryM S α) : Idle (c.query operation) := by
  intro s
  rw [query_eval]
  exact ⟨[], (List.append_nil _).symm, rfl⟩

theorem idle_get : Idle (get : Activity S (Session S)) :=
  fun _ => ⟨[], (List.append_nil _).symm, rfl⟩

theorem idle_record (operation : RepositoryM S Unit) : Idle (c.record operation) :=
  (idle_query operation).andThen fun _ => idle_get.andThen fun _ => does_note _

theorem idle_emit (e : ProgressEvent) : Idle (c.emit e) := idle_get.andThen fun _ => does_note _

theorem does_mark (key : TaskKey) (mark : TaskMark) :
    Does (c.mark key mark) fun r deeds => r = .ok () ∧ deeds = [.marked key mark] :=
  fun s => ⟨_, (Session.deeds_note _ _ : (c.mark key mark s).2.deeds = _), rfl, rfl⟩

theorem does_launch (command : Command) :
    Does (c.launch command) fun _ deeds => deeds = [.launched command] :=
  fun s => ⟨_, (Session.deeds_note _ _ : (c.launch command s).2.deeds = _), rfl⟩

theorem idle_checkTermination : Idle c.checkTermination := by
  refine idle_get.andThen fun s => ?_
  cases s.terminating
  · exact Idle.pure
  · exact (idle_record _).andThen fun _ => Idle.throw

theorem idle_next (space : String) : Idle (c.next space) := by
  intro s
  obtain ⟨s', chosen, -, talks⟩ := next_eval (c := c) space s
  rw [chosen]
  exact ⟨[], by rw [talks.deeds, List.append_nil], rfl⟩

/-! ## Tasks -/

section Tasks

variable {space : SpaceDefinition} {set : ParameterSet} {index : Nat} {t : TaskDefinition}

theorem idle_inputValue (name : String) : Idle (c.inputValue space index t name) := by
  refine (idle_query _).andThen fun recorded => ?_
  cases recorded with
  | some m => exact Idle.pure
  | none =>
    dsimp only
    split
    · exact Idle.pure
    · refine (idle_query _).andThen fun latest => ?_
      cases latest with
      | some m => exact Idle.pure
      | none => exact Idle.throw

/-- There is a value for each item. -/
theorem does_mapM {f : α → Activity S β} (each : ∀ x, Idle (f x)) (xs : List α) :
    Does (xs.mapM f) fun r deeds => deeds = [] ∧ ∀ ys, r = .ok ys → ys.length = xs.length := by
  induction xs with
  | nil =>
    refine Does.pure ⟨rfl, ?_⟩
    rintro _ ⟨⟩
    rfl
  | cons x rest ih =>
    rw [List.mapM_cons]
    refine (each x).bind (fun _ => ⟨rfl, nofun⟩) fun y => ?_
    refine ih.bind (fun _ _ h => ⟨h.1, nofun⟩) ?_
    rintro ys _ ⟨rfl, same⟩
    refine Does.pure ⟨rfl, ?_⟩
    rintro _ ⟨⟩
    exact congrArg (· + 1) (same ys rfl)

theorem does_carryOut {key : TaskKey} {command : Command} (intended : c.Intends key command) :
    Does (c.carryOut t command) fun r deeds =>
      c.Starts key deeds ∧ ((∃ x, r = .ok x) → deeds = [] → c.options.dryRun = true) := by
  rw [carryOut]
  cases dry : c.options.dryRun
  · refine (does_launch command).bind ?_ fun outcome _ launched => ?_
    · rintro e _ rfl
      exact ⟨.program dry intended, by rintro ⟨_, ⟨⟩⟩⟩
    · subst launched
      cases outcome <;> exact Does.pure ⟨.program dry intended, by rintro - ⟨⟩⟩
  · refine (does_note _).bind ?_ ?_
    · rintro e _ rfl
      exact ⟨.nothing, fun _ _ => rfl⟩
    · rintro x _ rfl
      exact Does.pure ⟨.nothing, fun _ _ => rfl⟩

/-- A task without a command starts nothing and gives no values. -/
theorem does_outputValues (assigned : c.Assigned space set index t) :
    Does (c.outputValues space index set t) fun r deeds =>
      c.Starts ⟨space.spaceId, index, t.taskId⟩ deeds ∧
        ((∃ values, r = .ok values) → deeds = [] → c.options.dryRun = true) := by
  rw [outputValues]
  cases given : parametersOf space index set t with
  | error e => exact Does.throw ⟨.nothing, by rintro ⟨_, ⟨⟩⟩⟩
  | ok parameters =>
    refine Does.after_pure (x := parameters) ?_
    refine (does_mapM (idle_inputValue (c := c)) t.inputData).bind ?_ ?_
    · rintro e _ ⟨rfl, -⟩
      exact ⟨.nothing, by rintro ⟨_, ⟨⟩⟩⟩
    rintro inputs _ ⟨rfl, same⟩
    rw [execute]
    cases formed : Command.ofTask t parameters inputs c.options.directory with
    | error e =>
      refine Does.after_pure (x := Except.error e) ?_
      exact Does.throw ⟨.nothing, by rintro ⟨_, ⟨⟩⟩⟩
    | ok command =>
      have intended := Intends.of assigned given (same inputs rfl) formed
      refine (does_carryOut intended).bind ?_ ?_
      · rintro e deeds ⟨starts, -⟩
        exact ⟨starts, by rintro ⟨_, ⟨⟩⟩⟩
      rintro r deeds ⟨starts, shown⟩
      cases r with
      | error e => exact Does.throw ⟨by simpa using starts, by rintro ⟨_, ⟨⟩⟩⟩
      | ok values => exact Does.pure ⟨by simpa using starts, fun _ => by simpa using shown ⟨_, rfl⟩⟩

theorem idle_recordValues (outputs : List (String × String)) :
    Idle (c.recordValues space index t outputs) := by
  induction outputs with
  | nil => exact Idle.pure
  | cons output rest ih => exact (idle_record _).andThen fun _ => ih

theorem idle_recordFailure (e : RunError) : Idle (c.recordFailure space index t e) :=
  (idle_record _).andThen fun _ => (idle_record _).andThen fun _ => idle_record _

/-- Between its marks a task starts its program, and it only misses its end if the record cannot be
changed. -/
theorem labours_runTask (assigned : c.Assigned space set index t) :
    c.Labours (c.runTask space index set t) := by
  have broken {programs : List Deed} {e : RunError}
      (starts : c.Starts ⟨space.spaceId, index, t.taskId⟩ programs) :
      c.Laboured (.error e : Except RunError Unit)
        ([.marked ⟨space.spaceId, index, t.taskId⟩ .started] ++ (programs ++ [])) :=
    .error (by simpa using BreaksOff.within .nil starts)
  refine (idle_record _).thenLabours fun _ => ?_
  refine (does_mark _ .started).bind nofun ?_
  rintro _ _ ⟨-, rfl⟩
  refine (idle_emit _).bind (fun _ => by simpa using broken .nothing) fun _ => ?_
  refine (does_outputValues assigned).attempt_bind fun r programs ⟨starts, shown⟩ => ?_
  cases r with
  | error e =>
    refine (idle_recordFailure e).bind (fun _ => broken starts) fun _ => ?_
    refine (does_mark _ .failed).bind nofun ?_
    rintro _ _ ⟨-, rfl⟩
    have whole : c.Works (.marked _ .started :: programs ++ [.marked _ .failed]) :=
      .task nofun starts nofun .nil
    exact Does.throw (.of_works (by simpa using whole))
  | ok values =>
    refine (idle_recordValues _).bind (fun _ => broken starts) fun _ => ?_
    refine (idle_record _).bind (fun _ => broken starts) fun _ => ?_
    refine (does_mark _ .completed).bind nofun ?_
    rintro _ _ ⟨-, rfl⟩
    have whole : c.Works (.marked _ .started :: programs ++ [.marked _ .completed]) :=
      .task nofun starts (fun _ => shown ⟨values, rfl⟩) .nil
    refine (idle_emit _).mono ?_
    rintro r _ rfl
    exact .of_works (by simpa using whole)

end Tasks

/-! ## From sets to calls -/

section Spaces

variable {space : SpaceDefinition}

theorem labours_runTasks {set : ParameterSet} {index total done : Nat}
    {tasks : List TaskDefinition} (assigned : ∀ t ∈ tasks, c.Assigned space set index t) :
    c.Labours (c.runTasks space index set total done tasks) := by
  induction tasks generalizing done with
  | nil => exact .pure
  | cons t rest ih =>
    refine (labours_runTask (assigned t List.mem_cons_self)).bind fun _ => ?_
    refine (idle_emit _).thenLabours fun _ => ?_
    refine idle_checkTermination.thenLabours fun _ => ?_
    exact ih fun t mem => assigned t (List.mem_cons_of_mem _ mem)

theorem idle_isSetCompleted (index : Nat) : Idle (c.isSetCompleted space index) := by
  refine (idle_query _).andThen fun recorded => ?_
  cases recorded <;> exact Idle.pure

theorem labours_runSets {tasks : List TaskDefinition} {completed : Nat}
    {sets : List (ParameterSet × Nat)}
    (assigned : ∀ p ∈ sets, ∀ t ∈ tasks, c.Assigned space p.1 p.2 t) :
    c.Labours (c.runSets space tasks completed sets) := by
  induction sets generalizing completed with
  | nil => exact .pure
  | cons p rest ih =>
    obtain ⟨set, index⟩ := p
    have later (completed : Nat) : c.Labours (c.runSets space tasks completed rest) :=
      ih fun p mem => assigned p (List.mem_cons_of_mem _ mem)
    refine (idle_isSetCompleted index).thenLabours fun skipped => ?_
    split
    · exact later _
    · refine (idle_record _).thenLabours fun _ => ?_
      refine (idle_emit _).thenLabours fun _ => ?_
      refine (labours_runTasks (assigned _ List.mem_cons_self)).bind fun _ => ?_
      refine (idle_record _).thenLabours fun _ => ?_
      refine (idle_emit _).thenLabours fun _ => ?_
      refine (idle_emit _).thenLabours fun _ => ?_
      exact idle_checkTermination.thenLabours fun _ => later _

theorem labours_visit (declared : c.artifact.space? space.spaceId = some space) :
    c.Labours (c.visit space) := by
  have goesOn : c.Labours (do
      c.emit (.spaceStarted c.runId space.spaceId)
      let tasks ← c.tasksOf space
      c.runSets space tasks 0 space.parameters.zipIdx
      c.record (c.host.backend.setSpaceStatus c.runId space.spaceId .completed)
      c.emit (.spaceCompleted c.runId space.spaceId) : Activity S Unit) := by
    refine (idle_emit _).thenLabours fun _ => ?_
    cases known : c.tasksOf space with
    | error e => exact .throw
    | ok tasks =>
      have assigned : ∀ p ∈ space.parameters.zipIdx, ∀ t ∈ tasks,
          c.Assigned space p.1 p.2 t := by
        intro p numbered t mem
        refine ⟨declared, numbered, task?_of_mem_tasksOf known mem, ?_⟩
        rw [← tasksOf_taskIds known]
        exact List.mem_map_of_mem mem
      refine (labours_runSets assigned).bind fun _ => ?_
      exact ((idle_record _).andThen fun _ => idle_emit _).labours
  refine (idle_query _).thenLabours fun recorded => ?_
  split
  · exact (idle_record _).thenLabours fun _ => goesOn
  · exact goesOn

theorem labours_visitOnce (declared : c.artifact.space? space.spaceId = some space)
    (goesOn : Bool) : c.Labours (c.visitOnce space goesOn) := by
  have visits : c.Labours (do c.visit space; c.checkTermination : Activity S Unit) :=
    (labours_visit declared).bind fun _ => idle_checkTermination.labours
  have completed : Idle (c.isSpaceCompleted space.spaceId) := by
    refine (idle_query _).andThen fun recorded => ?_
    cases recorded <;> exact Idle.pure
  refine completed.thenLabours fun completed => ?_
  cases completed
  · exact visits
  · cases goesOn
    · exact (idle_record _).thenLabours fun _ => visits
    · exact .pure

end Spaces

theorem labours_traverse (visits : Nat) (current : String) (goesOn : Bool) :
    c.Labours (c.traverse visits current goesOn) := by
  induction visits generalizing current goesOn with
  | zero =>
    rw [traverse]
    split
    · exact (idle_record _).thenLabours fun _ => .pure
    · exact .pure
  | succ visits ih =>
    rw [traverse]
    split
    · exact (idle_record _).thenLabours fun _ => .pure
    · cases found : c.artifact.space? current with
      | none => exact .throw
      | some space =>
        have declared : c.artifact.space? space.spaceId = some space := by
          rw [Artifact.space?_spaceId found, found]
        refine (idle_record _).thenLabours fun _ => ?_
        refine (labours_visitOnce declared goesOn).bind fun _ => ?_
        exact (idle_next current).thenLabours fun next => ih next false

/-! ## Calls -/

theorem idle_collectOutputs (space : String) (index : Nat) (values : Table String)
    (outputs : List String) : Idle (c.collectOutputs space index values outputs) := by
  induction outputs generalizing values with
  | nil => exact Idle.pure
  | cons output rest ih =>
    refine (idle_query _).andThen fun recorded => ?_
    cases recorded <;> exact ih _

theorem idle_collectSets (space : String) (outputs : List String) (values : Table String)
    (indices : List Nat) : Idle (c.collectSets space outputs values indices) := by
  induction indices generalizing values with
  | nil => exact Idle.pure
  | cons index rest ih =>
    refine (idle_query _).andThen fun record => ?_
    split
    · exact (idle_collectOutputs _ _ _ _).andThen fun _ => ih _
    · exact ih _

theorem idle_results : Idle c.results := by
  have gathers (space : SpaceDefinition) : Idle (c.collectSpace space) := by
    rw [collectSpace]
    cases space.lastTask? with
    | none => exact Idle.pure
    | some last =>
      dsimp only
      cases c.artifact.task? last with
      | none => exact Idle.throw
      | some t => exact idle_collectSets _ _ _ _
  rw [results]
  generalize (∅ : Results) = done
  induction c.artifact.spaces generalizing done with
  | nil => exact Idle.pure
  | cons space rest ih => exact (gathers space).andThen fun _ => ih _

theorem idle_summary (resumed executed : Bool) : Idle (c.summary resumed executed) := by
  refine (idle_query _).andThen fun recorded => ?_
  cases recorded with
  | none => exact Idle.throw
  | some run =>
    refine idle_results.andThen fun _ => ?_
    exact (idle_query _).andThen fun _ => Idle.pure

theorem labours_drive (visits : Nat) (resumed : Bool) : c.Labours (c.drive visits resumed) := by
  have begins : Idle (c.firstSpace resumed) := by
    refine (idle_query _).andThen fun state => ?_
    cases state <;> exact Idle.pure
  have goes : c.Labours (do c.traverse visits (← c.firstSpace resumed) resumed : Activity S Bool) :=
    begins.thenLabours fun first => labours_traverse visits first resumed
  refine (idle_record _).thenLabours fun _ => ?_
  refine goes.attempt_bind fun r deeds labour => ?_
  -- What comes after the traversal adds nothing, and fails if the traversal has failed.
  cases r with
  | error e =>
    have fails {e' : RunError} :
        c.Laboured (.error e' : Except RunError (Option RunSummary)) (deeds ++ []) :=
      .error (by simpa using labour.begun)
    cases asked : e.isTermination
    · simp only [asked, Bool.not_false, if_true]
      refine (idle_record _).bind (fun _ => fails) fun _ => ?_
      exact (idle_emit _).bind (fun _ => fails) fun _ => Does.throw fails
    · simp only [asked, Bool.not_true, Bool.false_eq_true, if_false]
      exact Does.throw fails
  | ok reached =>
    have ends {a : Activity S (Option RunSummary)} (idle : Idle a) :
        Does a fun r later => c.Laboured r (deeds ++ later) := by
      refine idle.mono ?_
      rintro r _ rfl
      exact .of_works (by simpa using labour.done reached rfl)
    cases reached
    · exact ends Idle.pure
    · refine ends ((idle_record _).andThen fun _ => (idle_record _).andThen fun _ => ?_)
      exact (idle_summary _ _).andThen fun _ => Idle.pure

theorem labours_continueRun (visits : Nat) (run : RunRecord) :
    c.Labours (c.continueRun visits run) := by
  rw [continueRun]
  split
  · exact .throw
  · split
    · exact ((idle_summary _ _).andThen fun _ => Idle.pure).labours
    · exact labours_drive visits true

/-- A run carries tasks out, and starts programs only for them. -/
theorem labours_run (visits : Nat) : c.Labours (c.run visits) := by
  refine (idle_query _).thenLabours fun recorded => ?_
  cases recorded with
  | some run => exact labours_continueRun visits run
  | none => exact (idle_record _).thenLabours fun _ => labours_drive visits false

/-- If the last mark of a run is not that of a start, the run carries each of its tasks out to its
end. -/
theorem run_works (visits : Nat) {s : Session S} {marks : List (TaskKey × TaskMark)}
    (grown : (c.run visits s).2.marks = s.marks ++ marks)
    (ended : ∀ key, marks.getLast? ≠ some (key, .started)) :
    ∃ deeds, (c.run visits s).2.deeds = s.deeds ++ deeds ∧ deeds.filterMap Deed.mark? = marks ∧
      c.Works deeds := by
  obtain ⟨deeds, added, labour⟩ := labours_run (c := c) visits s
  rw [Session.marks_eq, added, List.filterMap_append, ← Session.marks_eq] at grown
  obtain rfl := List.append_cancel_left grown
  exact ⟨deeds, added, rfl, labour.begun.works ended⟩

end Conduct

end Sweep
