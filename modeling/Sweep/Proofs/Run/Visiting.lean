import Sweep.Proofs.Run.Proceeding

/-!
# Visits keep to the protocol

Each part of a visit, from a task up to the whole, is shown to proceed by steps, and what it leaves
behind is told along with it: how far the planned tasks were carried out, and, if it comes to its
end, what is completed then. The plan of a visit are the parameter sets that are not completed when
it begins.
-/

namespace Sweep

variable {S α : Type}

/-- How far a plan was carried out by an activity with this result: to its end, up to a task that
failed, or up to a request for termination. -/
inductive Pursues (plan : List TaskKey) (marks : List (TaskKey × TaskMark)) :
    Except RunError α → Prop
  | done (x : α) : InOrder plan marks none → Pursues plan marks (.ok x)
  | failed {e : RunError} {key : TaskKey} : e.task? = some key →
      InOrder plan marks (some key) → Pursues plan marks (.error e)
  | stopped (runId : String) (count : Nat) : InOrder (plan.take count) marks none →
      Pursues plan marks (.error (.terminated runId))

namespace Pursues

variable {plan plan' : List TaskKey} {marks marks' : List (TaskKey × TaskMark)}

theorem inOrder {x : α} (h : Pursues plan marks (.ok x : Except RunError α)) :
    InOrder plan marks none := by
  cases h with
  | done _ ordered => exact ordered

theorem append {r : Except RunError α} (second : Pursues plan' marks' r)
    (first : InOrder plan marks none) : Pursues (plan ++ plan') (marks ++ marks') r := by
  cases second with
  | done x ordered => exact .done x (first.append ordered)
  | failed named ordered => exact .failed named (first.append ordered)
  | stopped runId count ordered =>
    refine .stopped runId (plan.length + count) ?_
    rw [List.take_length_add_append]
    exact first.append ordered

/-- What is planned after an error does not matter. -/
theorem extend {β : Type} {e : RunError} (h : Pursues plan marks (.error e : Except RunError α)) :
    Pursues (plan ++ plan') marks (.error e : Except RunError β) := by
  cases h with
  | failed named ordered => exact .failed named ordered.append_failed
  | stopped runId count ordered =>
    refine .stopped runId (min count plan.length) ?_
    rwa [List.take_append_of_le_length (Nat.min_le_right _ _), ← List.take_eq_take_min]

end Pursues

/-- A plan may be stopped as soon as a part of it is carried out. -/
theorem InOrder.stop {plan plan' : List TaskKey} {marks : List (TaskKey × TaskMark)}
    (runId : String) (h : InOrder plan marks none) :
    Pursues (plan ++ plan') marks (.error (.terminated runId) : Except RunError α) :=
  .stopped runId plan.length (by rwa [List.take_left])

/-- A plan that is carried out to its end marks the start and the end of each task in turn. -/
theorem InOrder.marks_eq {plan : List TaskKey} {marks : List (TaskKey × TaskMark)}
    (h : InOrder plan marks none) : marks = marksOf plan := by
  generalize hn : (none : Option TaskKey) = n at h
  induction h with
  | done => rfl
  | fails => cases hn
  | completes key _ ih =>
    rw [ih hn]
    rfl

def SpaceDefinition.remainingOf (space : SpaceDefinition) (l : Ledger) (indices : List Nat) :
    List TaskKey :=
  (indices.filter fun index => l.sets (space.spaceId, index) ≠ some .completed).flatMap space.keys

def SpaceDefinition.remaining (space : SpaceDefinition) (l : Ledger) : List TaskKey :=
  space.remainingOf l (List.range space.parameters.length)

namespace SpaceDefinition

variable {space : SpaceDefinition} {l l' : Ledger} {index : Nat} (rest : List Nat)

theorem remainingOf_cons_completed (h : l.sets (space.spaceId, index) = some .completed) :
    space.remainingOf l (index :: rest) = space.remainingOf l rest := by
  simp [remainingOf, h]

theorem remainingOf_cons_open (h : l.sets (space.spaceId, index) ≠ some .completed) :
    space.remainingOf l (index :: rest) = space.keys index ++ space.remainingOf l rest := by
  simp [remainingOf, h]

theorem remainingOf_congr {indices : List Nat}
    (same : ∀ i ∈ indices, l.sets (space.spaceId, i) = l'.sets (space.spaceId, i)) :
    space.remainingOf l indices = space.remainingOf l' indices := by
  rw [remainingOf, remainingOf, List.filter_congr fun i mem => by rw [same i mem]]

/-- Of a space without completed sets everything remains. -/
theorem remaining_eq_starts (h : ∀ index, l.sets (space.spaceId, index) ≠ some .completed) :
    space.remaining l = space.starts := by
  rw [remaining, remainingOf, List.filter_eq_self.2 fun i _ => by simpa using h i]
  rfl

end SpaceDefinition

/-- The run, its spaces and their sets stand as before. -/
structure Ledger.Beside (l l' : Ledger) : Prop where
  control : l'.control = l.control
  spaces : l'.spaces = l.spaces
  sets : l'.sets = l.sets

namespace Ledger.Beside

variable {l l' l'' : Ledger}

theorem refl (l : Ledger) : l.Beside l := ⟨rfl, rfl, rfl⟩

theorem trans (first : l.Beside l') (second : l'.Beside l'') : l.Beside l'' :=
  ⟨second.control.trans first.control, second.spaces.trans first.spaces,
    second.sets.trans first.sets⟩

theorem visits (h : l.Beside l') {space : String} (visits : l.Visits space) :
    l'.Visits space := by
  rw [Ledger.Visits, h.control, h.spaces]
  exact visits

theorem worksOn (h : l.Beside l') {space : String} {index : Nat} (works : l.WorksOn space index) :
    l'.WorksOn space index := by
  refine ⟨h.visits works.1, ?_⟩
  rw [h.sets]
  exact works.2

end Ledger.Beside

/-- What a part of a visit comes to from a sight: a plan is carried out as far as the result says,
and a part that comes to its end leaves a ledger of a kind. -/
structure Outcome (v : Sight) (plan : List TaskKey) (R : Ledger → Prop) (r : Except RunError α)
    (w : Sight) : Prop where
  pursues : ∃ marks, w.marks = v.marks ++ marks ∧ Pursues plan marks r
  leaves : ∀ x, r = .ok x → R w.ledger

namespace Outcome

variable {v w w' : Sight} {plan plan' : List TaskKey} {R R' : Ledger → Prop}

/-- A part that comes to its end has carried its plan out. -/
theorem carried {x : α} (h : Outcome v plan R (.ok x : Except RunError α) w) :
    ∃ marks, w.marks = v.marks ++ marks ∧ InOrder plan marks none := by
  obtain ⟨marks, grown, pursues⟩ := h.pursues
  exact ⟨marks, grown, pursues.inOrder⟩

/-- Only the marks of the sight that is come from matter. -/
theorem of_marks {r : Except RunError α} (h : Outcome v plan R r w) (same : v.marks = w'.marks) :
    Outcome w' plan R r w :=
  ⟨same ▸ h.pursues, h.leaves⟩

/-- An error in a part is one of whatever the part belongs to. -/
theorem fails {e : RunError} (h : Outcome v plan R (.error e : Except RunError Unit) w) :
    Outcome v (plan ++ plan') R' (.error e : Except RunError α) w := by
  obtain ⟨marks, grown, pursues⟩ := h.pursues
  exact ⟨⟨marks, grown, pursues.extend⟩, nofun⟩

theorem failed {e : RunError} {key : TaskKey} {marks : List (TaskKey × TaskMark)}
    (named : e.task? = some key) (grown : w.marks = v.marks ++ marks)
    (ordered : InOrder plan marks (some key)) :
    Outcome v plan R (.error e : Except RunError α) w :=
  ⟨⟨marks, grown, .failed named ordered⟩, nofun⟩

/-- A plan may be stopped as soon as a part of it is carried out. -/
theorem stopped {marks : List (TaskKey × TaskMark)} (runId : String)
    (grown : w.marks = v.marks ++ marks) (ordered : InOrder plan marks none) :
    Outcome v (plan ++ plan') R (.error (.terminated runId) : Except RunError α) w :=
  ⟨⟨marks, grown, ordered.stop runId⟩, nofun⟩

/-- One part after the other. -/
theorem after {marks : List (TaskKey × TaskMark)} {r : Except RunError α}
    (second : Outcome w plan' R' r w') (grown : w.marks = v.marks ++ marks)
    (ordered : InOrder plan marks none) (weaker : ∀ l, R' l → R l) :
    Outcome v (plan ++ plan') R r w' := by
  obtain ⟨marks', grown', pursues⟩ := second.pursues
  refine ⟨⟨marks ++ marks', ?_, pursues.append ordered⟩,
    fun x h => weaker _ (second.leaves x h)⟩
  rw [grown', grown, List.append_assoc]

end Outcome

/-- What is left by a set that is carried out: its tasks are marked in their order, and it is
the only one that is changed. -/
structure LeavesSet (space : SpaceDefinition) (index : Nat) (v w : Sight) : Prop where
  carried : ∃ marks, w.marks = v.marks ++ marks ∧ InOrder (space.keys index) marks none
  control : w.ledger.control = v.ledger.control
  spaces : w.ledger.spaces = v.ledger.spaces
  sets : ∀ key, w.ledger.sets key =
    if key = (space.spaceId, index) then some .completed else v.ledger.sets key

namespace LeavesSet

variable {space : SpaceDefinition} {index : Nat} {v w : Sight}

theorem visits (h : LeavesSet space index v w) (visits : v.ledger.Visits space.spaceId) :
    w.ledger.Visits space.spaceId := by
  rw [Ledger.Visits, h.control, h.spaces]
  exact visits

theorem completed (h : LeavesSet space index v w) :
    w.ledger.sets (space.spaceId, index) = some .completed := by
  rw [h.sets, if_pos rfl]

theorem stays (h : LeavesSet space index v w) {key : String × Nat}
    (known : v.ledger.sets key = some .completed) : w.ledger.sets key = some .completed := by
  rw [h.sets, known, ite_self]

/-- The sets that come after it are open or completed as before. -/
theorem remainingOf (h : LeavesSet space index v w) {indices : List Nat}
    (other : index ∉ indices) :
    space.remainingOf w.ledger indices = space.remainingOf v.ledger indices := by
  refine SpaceDefinition.remainingOf_congr fun i mem => ?_
  rw [h.sets, if_neg]
  rintro ⟨⟩
  exact other mem

end LeavesSet

/-- A task has failed before it had outputs, or it has produced all that it declares. Neither
changes what is seen. -/
inductive Outputs (key : TaskKey) (t : TaskDefinition) (v : Sight) :
    Except RunError (List String) → Sight → Prop
  | failed {e : RunError} : e.task? = some key → Outputs key t v (.error e) v
  | produced {values : List String} : values.length = t.outputData.length →
      Outputs key t v (.ok values) v

namespace Conduct

variable {c : Conduct S} {kept : S → Prop}

/-! ## Inputs and outputs -/

section Working

variable (reliable : c.host.Reliable c.runId kept)

include reliable

theorem proceeds_carryOut (t : TaskDefinition) (command : Command) (v : Sight) :
    c.Proceeds kept (c.carryOut t command) v fun r w => w = v ∧ ∃ x, r = .ok x ∧
      ∀ values, x = .ok values → values.length = t.outputData.length := by
  rw [carryOut]
  cases c.options.dryRun
  · refine Proceeds.bind (proceeds_launch reliable command v) ?_ ?_
    · rintro e w ⟨⟨x, h⟩, -⟩
      cases h
    · rintro completion w ⟨-, rfl⟩
      cases completion with
      | error fault =>
        refine Proceeds.pure ⟨rfl, _, rfl, ?_⟩
        rintro values ⟨⟩
      | ok completion =>
        exact Proceeds.pure ⟨rfl, _, rfl, fun values found => Completion.length_of_values found⟩
  · refine Gives.bind (gives_note (.printed _) rfl) (Proceeds.pure ⟨rfl, _, rfl, ?_⟩)
    rintro values ⟨⟩
    exact List.length_map _

theorem proceeds_outputValues (space : SpaceDefinition) (index : Nat) (set : ParameterSet)
    (t : TaskDefinition) (v : Sight) :
    c.Proceeds kept (c.outputValues space index set t) v
      (Outputs ⟨space.spaceId, index, t.taskId⟩ t v) := by
  rw [outputValues]
  cases hp : parametersOf space index set t with
  | error e =>
    have none : c.commandOf v.ledger space index set t = .error e := by
      rw [commandOf, hp]
      rfl
    exact Proceeds.throw (.failed (task?_of_commandOf none))
  | ok parameters =>
    refine Gives.bind (x := parameters) Gives.pure ?_
    refine (proceeds_of_reads (Reads.mapM (reads_inputValue space index t) t.inputData)).bind
      ?_ ?_
    · rintro e w ⟨failed, rfl⟩
      obtain ⟨name, -, missing⟩ := exists_of_mapM_error failed.symm
      refine .failed ?_
      rw [(input_eq_error missing).1]
      rfl
    rintro inputs w ⟨-, rfl⟩
    rw [execute]
    cases Command.ofTask t parameters inputs c.options.directory with
    | error cause =>
      exact Gives.bind (x := .error cause) Gives.pure (Proceeds.throw (.failed rfl))
    | ok command =>
      refine (proceeds_carryOut reliable t command w).bind ?_ ?_
      · rintro e w' ⟨-, x, h, -⟩
        cases h
      · rintro produced w' ⟨rfl, x, h, length⟩
        cases h
        cases produced with
        | error cause => exact Proceeds.throw (.failed rfl)
        | ok values => exact Proceeds.pure (.produced (length values rfl))

/-- The values that are recorded are there afterwards, and all else stands as before. -/
theorem writes_recordValues {space : SpaceDefinition} {index : Nat} (t : TaskDefinition)
    (outputs : List (String × String)) {v : Sight}
    (works : v.ledger.WorksOn space.spaceId index) :
    c.Writes kept (c.recordValues space index t outputs) v fun x =>
      x.ledger.tasks = v.ledger.tasks ∧ v.ledger.Beside x.ledger ∧
      (∀ key, (v.ledger.values key).isSome → (x.ledger.values key).isSome) ∧
      ∀ output ∈ outputs, (x.ledger.values (space.spaceId, index, output.1)).isSome := by
  induction outputs generalizing v with
  | nil => exact Proceeds.pure ⟨rfl, v.record, rfl, rfl, .refl _, fun _ h => h, nofun⟩
  | cons output rest ih =>
    obtain ⟨name, value⟩ := output
    refine (writes_putMapping reliable name value (some t.taskId) works).bind ?_
    rintro x ⟨last, ledger⟩
    have beside : v.ledger.Beside x.ledger := by
      rw [ledger]
      exact ⟨rfl, rfl, rfl⟩
    have stays (key : String × Nat × String) (known : (v.ledger.values key).isSome) :
        (x.ledger.values key).isSome := by
      rw [ledger, Ledger.put_values]
      split
      · rfl
      · exact known
    have put : (x.ledger.values (space.spaceId, index, name)).isSome := by
      simp [ledger, Ledger.put_values]
    refine (ih (v := v.withRecord x) (beside.worksOn works)).mono ?_
    rintro r w ⟨rfl, y, rfl, tasks, beside', stays', others⟩
    refine ⟨rfl, y, rfl, tasks.trans (by rw [Sight.withRecord_ledger, ledger]; rfl),
      beside.trans beside', fun key known => stays' key (stays key known), ?_⟩
    rintro output mem
    rcases List.mem_cons.1 mem with rfl | mem
    · exact stays' _ put
    · exact others output mem

/-! ## Tasks -/

/-- When a task has failed, its set and its space have failed too. -/
theorem writes_recordFailure {space : SpaceDefinition} {index : Nat} {t : TaskDefinition}
    (e : RunError) {v : Sight} (works : v.ledger.WorksOn space.spaceId index)
    (known : (v.ledger.tasks (space.spaceId, index, t.taskId)).isSome) :
    c.Writes kept (c.recordFailure space index t e) v fun x =>
      x.ledger.control = some space.spaceId ∧ x.ledger.spaces space.spaceId = some .failed := by
  refine (writes_setTaskStatus reliable t.taskId .failed (some e.message) works known).bind ?_
  intro x ledger
  have works' : x.ledger.WorksOn space.spaceId index := by
    rw [ledger]
    exact works
  refine (writes_setSetStatus reliable .failed works' (.breaksSet works')).bind ?_
  intro y ledger'
  have visits : y.ledger.Visits space.spaceId := by
    rw [ledger']
    exact works'.1
  refine (writes_setSpaceStatus reliable .failed visits (.breaksSpace visits)).mono ?_
  rintro r w ⟨rfl, z, rfl, ledger''⟩
  refine ⟨rfl, z, rfl, ?_, ?_⟩
  · rw [ledger'']
    exact visits.1
  · simp [ledger'', Ledger.setSpace_spaces]

/-- A task whose outputs have been produced is completed, and all of them are recorded by then. -/
theorem proceeds_complete {space : SpaceDefinition} {index : Nat} {t : TaskDefinition}
    (known : c.artifact.task? t.taskId = some t) {values : List String}
    (length : values.length = t.outputData.length) {v : Sight}
    (works : v.ledger.WorksOn space.spaceId index)
    (running : v.ledger.tasks (space.spaceId, index, t.taskId) = some .running) :
    c.Proceeds kept (do
        c.recordValues space index t (t.outputData.zip values)
        c.record (c.host.backend.setTaskStatus c.runId space.spaceId index t.taskId .completed none)
        c.mark ⟨space.spaceId, index, t.taskId⟩ .completed
        c.emit (.taskCompleted c.runId space.spaceId index t.taskId) : Activity S Unit) v
      fun r w => r = .ok () ∧ v.ledger.Beside w.ledger ∧
        w.marks = v.marks ++ [(⟨space.spaceId, index, t.taskId⟩, .completed)] := by
  refine (writes_recordValues reliable t (t.outputData.zip values) works).bind ?_
  rintro x ⟨tasks, beside, -, put⟩
  refine (writes_setTaskStatus reliable t.taskId .completed none (v := v.withRecord x)
    (beside.worksOn works) (by simp [tasks, running])).bind ?_
  intro y ledger
  have beside' : v.ledger.Beside y.ledger := by
    rw [ledger]
    exact beside.trans ⟨rfl, rfl, rfl⟩
  have visits : y.ledger.Visits space.spaceId := beside'.visits works.1
  refine (gives_mark ⟨space.spaceId, index, t.taskId⟩ .completed visits.1
    visits.not_completed).bind ?_
  have shown : y.BearsOut c.artifact
      (.taskCompleted c.runId space.spaceId index t.taskId) := by
    refine ⟨by simp [ledger, Ledger.setTask], t, known, fun name mem => ?_⟩
    rw [ledger]
    have named : name ∈ (t.outputData.zip values).map Prod.fst := by
      rwa [List.map_fst_zip (Nat.le_of_eq length.symm)]
    obtain ⟨⟨_, value⟩, zipped, rfl⟩ := List.mem_map.1 named
    exact put _ zipped
  refine (gives_emit (e := .taskCompleted c.runId space.spaceId index t.taskId) rfl shown).mono ?_
  rintro r w ⟨rfl, rfl⟩
  exact ⟨rfl, beside', rfl⟩

/-- A task is started, and either it is completed or its set and its space fail with it. -/
theorem proceeds_runTask {space : SpaceDefinition} {index : Nat} (set : ParameterSet)
    {t : TaskDefinition} (known : c.artifact.task? t.taskId = some t) {v : Sight}
    (works : v.ledger.WorksOn space.spaceId index) :
    c.Proceeds kept (c.runTask space index set t) v
      (Outcome v [⟨space.spaceId, index, t.taskId⟩] v.ledger.Beside) := by
  let key : TaskKey := ⟨space.spaceId, index, t.taskId⟩
  refine (writes_startTask reliable t.taskId works).bind ?_
  rintro x ⟨ledger, position⟩
  have beside : v.ledger.Beside x.ledger := by
    rw [ledger]
    exact ⟨rfl, rfl, rfl⟩
  have works' : x.ledger.WorksOn space.spaceId index := beside.worksOn works
  have running : x.ledger.tasks (space.spaceId, index, t.taskId) = some .running := by
    simp [ledger, Ledger.setTask]
  refine (gives_mark key .started works'.1.1 works'.1.not_completed).bind ?_
  refine (gives_emit (e := .taskStarted c.runId space.spaceId index t.taskId) rfl
    ⟨running, position⟩).bind ?_
  refine (Proceeds.attempt (Q := fun r w => ∃ r', r = .ok r' ∧ Outputs key t _ r' w)
    ((proceeds_outputValues reliable space index set t _).mono
      fun r w outputs => ⟨r, rfl, outputs⟩)).bind ?_ ?_
  · rintro e w ⟨r, h, -⟩
    cases h
  rintro r w ⟨r', h, outputs⟩
  cases h
  cases outputs with
  | @failed e named =>
    refine (writes_recordFailure reliable e works' (by simp [running])).bind ?_
    rintro y ⟨control, failed⟩
    refine (gives_mark key .failed control ?_).bind ?_
    · simp [key, failed]
    exact Proceeds.throw (.failed named (by simp) (.fails key []))
  | produced length =>
    refine (proceeds_complete reliable known length works' running).mono ?_
    rintro r w ⟨rfl, beside', grown⟩
    refine ⟨⟨[(key, .started), (key, .completed)], ?_, .done () (.completes key .done)⟩,
      fun _ _ => beside.trans beside'⟩
    rw [grown]
    simp [key]

/-- After a report of progress, either a request for termination stops what is done, or it goes
on. -/
theorem proceeds_report {a : Activity S Unit} {done total : Nat} {message : String} {v : Sight}
    {Q : Except RunError Unit → Sight → Prop}
    (stops : ∀ x, Q (.error (.terminated c.runId)) (v.withRecord x))
    (goesOn : c.Proceeds kept a v Q) : c.Proceeds kept (do
      c.emit (.progress c.runId done total message)
      c.checkTermination
      a) v Q := by
  refine (gives_emit (e := .progress c.runId done total message) rfl trivial).bind ?_
  refine (proceeds_checkTermination reliable v).bind ?_ ?_
  · rintro e w (⟨h, -⟩ | ⟨h, x, rfl, -⟩)
    · cases h
    · cases h
      exact stops x
  · rintro ⟨⟩ w (⟨-, rfl⟩ | ⟨h, -⟩)
    · exact goesOn
    · cases h

/-- Tasks are carried out in their order, until one fails or termination is requested. -/
theorem proceeds_runTasks {space : SpaceDefinition} {index : Nat} (set : ParameterSet)
    (total done : Nat) {tasks : List TaskDefinition}
    (known : ∀ t ∈ tasks, c.artifact.task? t.taskId = some t) {v : Sight}
    (works : v.ledger.WorksOn space.spaceId index) :
    c.Proceeds kept (c.runTasks space index set total done tasks) v
      (Outcome v (tasks.map fun t => ⟨space.spaceId, index, t.taskId⟩) v.ledger.Beside) := by
  induction tasks generalizing v done with
  | nil =>
    exact Proceeds.pure ⟨⟨[], (List.append_nil _).symm, .done () .done⟩, fun _ _ => .refl _⟩
  | cons t rest ih =>
    show c.Proceeds kept _ v (Outcome v ([⟨space.spaceId, index, t.taskId⟩] ++ _) _)
    refine (proceeds_runTask reliable set (known t List.mem_cons_self) works).bind
      (fun e w failed => failed.fails) ?_
    rintro ⟨⟩ w outcome
    have beside := outcome.leaves () rfl
    obtain ⟨marks, grown, ordered⟩ := outcome.carried
    refine proceeds_report reliable (fun x => Outcome.stopped c.runId grown ordered) ?_
    refine (ih _ (fun t mem => known t (List.mem_cons_of_mem _ mem))
      (beside.worksOn works)).mono ?_
    exact fun r w' rest => rest.after grown ordered fun l => beside.trans

/-! ## Parameter sets -/

/-- A set that is not completed is carried out, and then what follows it. -/
theorem proceeds_set {space : SpaceDefinition} {tasks : List TaskDefinition}
    (found : c.artifact.space? space.spaceId = some space) (known : c.tasksOf space = .ok tasks)
    (set : ParameterSet) (index total done : Nat) {v : Sight}
    (visits : v.ledger.Visits space.spaceId)
    (open_ : v.ledger.sets (space.spaceId, index) ≠ some .completed) {a : Activity S Unit}
    {plan : List TaskKey} {R : Ledger → Prop}
    (goesOn : ∀ w, LeavesSet space index v w →
      c.Proceeds kept a w (Outcome v (space.keys index ++ plan) R)) :
    c.Proceeds kept (do
        c.record (c.host.backend.startSet c.runId space.spaceId index set)
        c.emit (.setStarted c.runId space.spaceId index)
        c.runTasks space index set total done tasks
        c.record (c.host.backend.setSetStatus c.runId space.spaceId index .completed)
        c.emit (.setCompleted c.runId space.spaceId index)
        a) v (Outcome v (space.keys index ++ plan) R) := by
  refine (writes_startSet reliable set visits open_).bind ?_
  intro x opened
  have works : x.ledger.WorksOn space.spaceId index := by
    rw [opened]
    exact ⟨visits, by simp [Ledger.setSet_sets]⟩
  refine (gives_emit (e := .setStarted c.runId space.spaceId index) (v := v.withRecord x) rfl
    works.2).bind ?_
  have keys : (tasks.map fun t => ⟨space.spaceId, index, t.taskId⟩) = space.keys index := by
    rw [SpaceDefinition.keys, ← tasksOf_taskIds known, List.map_map]
    rfl
  have runs := proceeds_runTasks reliable set total done
    (fun t mem => task?_of_mem_tasksOf known mem) (v := v.withRecord x) works
  rw [keys] at runs
  refine runs.bind (fun e w failed => failed.fails.of_marks rfl) ?_
  rintro ⟨⟩ w outcome
  have beside := outcome.leaves () rfl
  obtain ⟨marks, grown, ordered⟩ := outcome.carried
  have works' : w.ledger.WorksOn space.spaceId index := beside.worksOn works
  have suffix : marksOf (space.keys index) <:+ w.marks := by
    rw [grown, ordered.marks_eq]
    exact List.suffix_append _ _
  refine (writes_setSetStatus reliable .completed works'
    (.closesSet found works' suffix)).bind ?_
  intro y closed
  have leaves : LeavesSet space index v (w.withRecord y) := by
    refine ⟨⟨marks, grown, ordered⟩, ?_, ?_, fun key => ?_⟩ <;>
      rw [Sight.withRecord_ledger, closed]
    · exact beside.control.trans (by rw [Sight.withRecord_ledger, opened]; rfl)
    · exact beside.spaces.trans (by rw [Sight.withRecord_ledger, opened]; rfl)
    · rw [Ledger.setSet_sets, beside.sets, Sight.withRecord_ledger, opened, Ledger.setSet_sets]
      split <;> rfl
  exact (gives_emit (e := .setCompleted c.runId space.spaceId index) rfl leaves.completed).bind
    (goesOn _ leaves)

/-- The sets that are not completed are carried out in their order, and then all are completed. -/
theorem proceeds_runSets {space : SpaceDefinition} {tasks : List TaskDefinition}
    (found : c.artifact.space? space.spaceId = some space) (known : c.tasksOf space = .ok tasks)
    (completed : Nat) {sets : List (ParameterSet × Nat)} (distinct : (sets.map (·.2)).Nodup)
    {v : Sight} (visits : v.ledger.Visits space.spaceId) :
    c.Proceeds kept (c.runSets space tasks completed sets) v
      (Outcome v (space.remainingOf v.ledger (sets.map (·.2))) fun l =>
        l.control = v.ledger.control ∧ l.spaces = v.ledger.spaces ∧
        (∀ key, v.ledger.sets key = some .completed → l.sets key = some .completed) ∧
        ∀ index ∈ sets.map (·.2), l.sets (space.spaceId, index) = some .completed) := by
  induction sets generalizing v completed with
  | nil =>
    exact Proceeds.pure ⟨⟨[], (List.append_nil _).symm, .done () .done⟩,
      fun _ _ => ⟨rfl, rfl, fun _ h => h, nofun⟩⟩
  | cons head rest ih =>
    obtain ⟨set, index⟩ := head
    rw [List.map_cons, List.nodup_cons] at distinct
    refine (gives_of_reads (reads_isSetCompleted space index)).bind ?_
    by_cases done : v.ledger.sets (space.spaceId, index) = some .completed
    · simp only [done, decide_true, if_true]
      rw [List.map_cons, SpaceDefinition.remainingOf_cons_completed _ done]
      refine (ih _ distinct.2 visits).mono ?_
      rintro r w ⟨pursues, leaves⟩
      refine ⟨pursues, fun x h => ?_⟩
      obtain ⟨control, spaces, stays, all⟩ := leaves x h
      exact ⟨control, spaces, stays, List.forall_mem_cons.2 ⟨stays _ done, all⟩⟩
    · simp only [done, decide_false, Bool.false_eq_true, if_false]
      rw [List.map_cons, SpaceDefinition.remainingOf_cons_open _ done]
      refine proceeds_set reliable found known set index _ _ visits done ?_
      intro w left
      obtain ⟨marks, grown, ordered⟩ := left.carried
      refine proceeds_report reliable (fun x => Outcome.stopped c.runId grown ordered) ?_
      refine (ih _ distinct.2 (left.visits visits)).mono ?_
      rintro r w' outcome
      rw [left.remainingOf distinct.1] at outcome
      refine outcome.after grown ordered ?_
      rintro l ⟨control, spaces, stays, all⟩
      exact ⟨control.trans left.control, spaces.trans left.spaces,
        fun key known => stays key (left.stays known),
        List.forall_mem_cons.2 ⟨stays _ left.completed, all⟩⟩

/-! ## Visits -/

/-- A space that is visited is carried out as far as it is open, and then it is completed. -/
theorem proceeds_space {space : SpaceDefinition} {tasks : List TaskDefinition}
    (found : c.artifact.space? space.spaceId = some space) (known : c.tasksOf space = .ok tasks)
    {v : Sight} (visits : v.ledger.Visits space.spaceId) :
    c.Proceeds kept (do
        c.emit (.spaceStarted c.runId space.spaceId)
        let tasks ← c.tasksOf space
        c.runSets space tasks 0 space.parameters.zipIdx
        c.record (c.host.backend.setSpaceStatus c.runId space.spaceId .completed)
        c.emit (.spaceCompleted c.runId space.spaceId) : Activity S Unit) v
      (Outcome v (space.remaining v.ledger) fun l =>
        l.control = some space.spaceId ∧ l.spaces space.spaceId = some .completed) := by
  refine (gives_emit (e := .spaceStarted c.runId space.spaceId) rfl visits.2).bind ?_
  rw [known]
  refine Gives.bind (x := tasks) Gives.pure ?_
  have indices : space.parameters.zipIdx.map (·.2) = List.range space.parameters.length := by
    rw [List.zipIdx_map_snd, List.range_eq_range']
  have runs := proceeds_runSets reliable found known 0
    (by rw [indices]; exact List.nodup_range) visits
  rw [indices] at runs
  refine runs.bind (fun e w failed => ⟨failed.pursues.imp fun _ h => ⟨h.1, h.2⟩, nofun⟩) ?_
  rintro ⟨⟩ w outcome
  obtain ⟨control, spaces, -, all⟩ := outcome.leaves () rfl
  have visits' : w.ledger.Visits space.spaceId := by
    rw [Ledger.Visits, control, spaces]
    exact visits
  refine (writes_setSpaceStatus reliable .completed visits' (.closesSpace found visits'
    fun index lt => all index (List.mem_range.2 lt))).bind ?_
  intro x closed
  have completed : x.ledger.spaces space.spaceId = some .completed := by
    simp [closed, Ledger.setSpace_spaces]
  refine (gives_emit (e := .spaceCompleted c.runId space.spaceId) (v := w.withRecord x) rfl
    completed).mono ?_
  rintro r w' ⟨rfl, rfl⟩
  refine ⟨outcome.pursues, fun _ _ => ⟨?_, completed⟩⟩
  rw [Sight.withRecord_ledger, closed]
  exact visits'.1

/-- A visit of a space that is not completed carries out what remains of it. -/
theorem proceeds_visit {space : SpaceDefinition} {tasks : List TaskDefinition}
    (found : c.artifact.space? space.spaceId = some space) (known : c.tasksOf space = .ok tasks)
    {v : Sight} (inside : v.ledger.control = some space.spaceId)
    (open_ : v.ledger.spaces space.spaceId ≠ some .completed) :
    c.Proceeds kept (c.visit space) v (Outcome v (space.remaining v.ledger) fun l =>
      l.control = some space.spaceId ∧ l.spaces space.spaceId = some .completed) := by
  refine (gives_of_reads (reads_query (·.space? space.spaceId))).bind ?_
  by_cases running : v.ledger.spaces space.spaceId = some .running
  · obtain ⟨record, here, status⟩ := Option.map_eq_some_iff.1 running
    have skips : ((v.record.space? space.spaceId).all fun record =>
        record.status != .running) = false := by
      simp [here, status]
    simp only [skips, Bool.false_eq_true, if_false]
    exact proceeds_space reliable found known ⟨inside, running⟩
  · have starts : ((v.record.space? space.spaceId).all fun record =>
        record.status != .running) = true := by
      cases here : v.record.space? space.spaceId with
      | none => rfl
      | some record =>
        have other : (v.record.space? space.spaceId).map (·.status) ≠ some .running := running
        simpa [here] using other
    simp only [starts, if_true]
    refine (writes_startSpace reliable inside open_).bind fun x started => ?_
    -- To start the space opens or closes none of its sets.
    have same : space.remaining x.ledger = space.remaining v.ledger :=
      SpaceDefinition.remainingOf_congr fun i _ => by rw [started]; rfl
    have visits : x.ledger.Visits space.spaceId := by
      rw [started]
      exact ⟨inside, by simp [Ledger.setSpace_spaces]⟩
    rw [← same]
    exact (proceeds_space (v := v.withRecord x) reliable found known visits).mono
      fun r w outcome => outcome.of_marks rfl

end Working

end Conduct

end Sweep
