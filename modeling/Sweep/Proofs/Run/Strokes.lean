import Sweep.Proofs.Run.Journey
import Sweep.Proofs.Run.Preparing

/-!
# The strokes of a call

Whatever a call does to a record is one of a few alterations. None of them touches the identity of
the run or the hash of its artifact, and values are only recorded under names that a task of the
artifact puts out. A program is only started with the command that the record orders for a task of
the artifact. A stroke is a moment of a session with what it does to the record; between the record
that a call finds and the one that it leaves there is a trail of strokes.

Nothing is assumed of the artifact here. It may name tasks and spaces that it does not define, and
then a call fails, but it does so by strokes.
-/

namespace Sweep

variable {S α β : Type}

def Artifact.Outputs (a : Artifact) (name : String) : Prop :=
  ∃ t ∈ a.tasks.flatten, name ∈ t.outputData

def RunSnapshot.NamesOutputs (a : Artifact) (x : RunSnapshot) : Prop :=
  ∀ m ∈ x.mappings, a.Outputs m.name

/-- A ledger orders a command: that of a task of a space in one of the space's sets, on the values
that the set and the ledger give. -/
inductive Artifact.Orders (a : Artifact) (l : Ledger) : Command → Prop
  | of {space : SpaceDefinition} {set : ParameterSet} {index : Nat} {t : TaskDefinition}
      {parameters : ParameterSet} {inputs : List String} {directory : Option String}
      {command : Command} : space ∈ a.spaces → (set, index) ∈ space.parameters.zipIdx →
      t ∈ a.tasks.flatten → t.taskId ∈ space.tasksOrder →
      l.prepared space index set t = .ok (parameters, inputs) →
      Command.ofTask t parameters inputs directory = .ok command → Orders a l command

/-- An error says that a call does not go on from the record, or that there is none. -/
inductive RunError.IsRefusal : RunError → Prop
  | mismatch (runId expected actual : String) : IsRefusal (.artifactMismatch runId expected actual)
  | notFound (runId : String) : IsRefusal (.runNotFound runId)

/-! ## Alterations -/

/-- The changes that a call makes to a record. -/
inductive RunSnapshot.Alters (a : Artifact) (now : Timestamp) (x : RunSnapshot) :
    RunSnapshot → Prop
  | stands (status : RunStatus) (error : Option String) :
      Alters a now x (x.setStatus now status error)
  | moves (space : Option String) (index : Option Nat) (task : Option String) :
      Alters a now x (x.setPosition space index task)
  | enters (space : String) : Alters a now x (x.enter now space)
  | opensSpace (space : String) : Alters a now x (x.startSpace now space)
  | forgets (space : String) : Alters a now x (x.resetSpace space)
  | opensSet (space : String) (index : Nat) (set : ParameterSet) :
      Alters a now x (x.startSet now space index set)
  | opensTask (space : String) (index : Nat) (task : String) :
      Alters a now x (x.startTask now space index task)
  | setsSpace {space : String} {status : UnitStatus} {y : RunSnapshot} :
      x.setSpaceStatus now space status = .ok y → Alters a now x y
  | setsSet {space : String} {index : Nat} {status : UnitStatus} {y : RunSnapshot} :
      x.setSetStatus now space index status = .ok y → Alters a now x y
  | setsTask {space : String} {index : Nat} {task : String} {status : UnitStatus}
      {error : Option String} {y : RunSnapshot} :
      x.setTaskStatus now space index task status error = .ok y → Alters a now x y
  | puts (m : DataMapping) : a.Outputs m.name → Alters a now x (x.putMapping m)

namespace RunSnapshot.Alters

variable {a : Artifact} {now : Timestamp} {x y : RunSnapshot}

/-- A record stays that of its run and of its artifact, and values are only added under the names of
outputs. -/
theorem frame (h : x.Alters a now y) :
    (y.run.runId = x.run.runId ∧ y.run.artifactHash = x.run.artifactHash) ∧
      ∀ m ∈ y.mappings, m ∈ x.mappings ∨ a.Outputs m.name := by
  cases h with
  | setsSpace changed =>
    obtain ⟨spaces, -, rfl⟩ := exists_of_setSpaceStatus changed
    exact ⟨⟨rfl, rfl⟩, fun m mem => .inl mem⟩
  | setsSet changed =>
    obtain ⟨sets, -, rfl⟩ := exists_of_setSetStatus changed
    exact ⟨⟨rfl, rfl⟩, fun m mem => .inl mem⟩
  | setsTask changed =>
    obtain ⟨tasks, -, rfl⟩ := exists_of_setTaskStatus changed
    exact ⟨⟨rfl, rfl⟩, fun m mem => .inl mem⟩
  | puts new out =>
    refine ⟨⟨rfl, rfl⟩, ?_⟩
    intro m mem
    rcases List.mem_append.1 mem with old | added
    · exact .inl (List.mem_of_mem_filter old)
    · obtain rfl := List.mem_singleton.1 added
      exact .inr out
  | _ => exact ⟨⟨rfl, rfl⟩, fun m mem => .inl mem⟩

end RunSnapshot.Alters

/-! ## Strokes -/

/-- What a moment does to the record of the run. -/
inductive Stroke (u : Subject S) (kept : S → Prop) (x : RunSnapshot) :
    Moment S → RunSnapshot → Prop
  | wrote {now : Timestamp} {y : RunSnapshot} {store : S} : x.Alters u.artifact now y →
      kept store → u.recordIn store = some (y.touch now) →
      Stroke u kept x (.wrote store) (y.touch now)
  | told (e : ProgressEvent) {store : S} : kept store → u.recordIn store = some x →
      Stroke u kept x (.told e store) x
  | printed (text : String) : Stroke u kept x (.printed text) x
  | asked (prompt : String) : Stroke u kept x (.asked prompt) x
  | launched {command : Command} : u.artifact.Orders x.ledger command →
      Stroke u kept x (.launched command) x
  | marked (e : TimelineEvent) : Stroke u kept x (.marked e) x

namespace Stroke

variable {u : Subject S} {kept : S → Prop} {x y : RunSnapshot} {m : Moment S}

theorem keeps (h : Stroke u kept x m y) :
    y.run.runId = x.run.runId ∧ y.run.artifactHash = x.run.artifactHash := by
  cases h with
  | wrote alters => exact alters.frame.1
  | _ => exact ⟨rfl, rfl⟩

/-- No other names than those of outputs are added. -/
theorem outputs (h : Stroke u kept x m y) (named : x.NamesOutputs u.artifact) :
    y.NamesOutputs u.artifact := by
  cases h with
  | wrote alters =>
    intro m mem
    rcases alters.frame.2 m mem with old | out
    · exact named m old
    · exact out
  | _ => exact named

end Stroke

namespace Conduct

/-- An activity proceeds by strokes from every session with this record, and at its end the result
and the record are related by `R`. It is never refused. -/
def Strokes (c : Conduct S) (kept : S → Prop) (a : Activity S α) (x : RunSnapshot)
    (R : α → RunSnapshot → Prop) : Prop :=
  ∀ s, c.Sees kept s ⟨x, []⟩ → ∃ (ms : List (Moment S)) (y : RunSnapshot),
    (a s).2.history = ms.reverse ++ s.history ∧ c.Sees kept (a s).2 ⟨y, []⟩ ∧
    Trail (Stroke c.subject kept) x ms y ∧
    (∀ v, (a s).1 = .ok v → R v y) ∧ ∀ e, (a s).1 = .error e → ¬e.IsRefusal

variable {c : Conduct S} {kept : S → Prop} {x : RunSnapshot}

/-! ## Rules of composition -/

namespace Strokes

theorem mono {a : Activity S α} {R R' : α → RunSnapshot → Prop} (h : c.Strokes kept a x R)
    (weaker : ∀ v y, R v y → R' v y) : c.Strokes kept a x R' := by
  intro s sees
  obtain ⟨ms, y, grown, sees', trail, ends, fails⟩ := h s sees
  exact ⟨ms, y, grown, sees', trail, fun v same => weaker v y (ends v same), fails⟩

theorem bind {a : Activity S α} {f : α → Activity S β} {R : α → RunSnapshot → Prop}
    {Q : β → RunSnapshot → Prop} (first : c.Strokes kept a x R)
    (goesOn : ∀ v y, R v y → c.Strokes kept (f v) y Q) : c.Strokes kept (a >>= f) x Q := by
  intro s sees
  obtain ⟨ms, y, grown, sees', trail, ends, fails⟩ := first s sees
  rw [bind_eval]
  rcases h : a s with ⟨e | v, s'⟩ <;> rw [h] at grown sees' ends fails
  · exact ⟨ms, y, grown, sees', trail, nofun, fun e' same => fails e' (by cases same; rfl)⟩
  · obtain ⟨ms', z, grown', sees'', trail', ends', fails'⟩ := goesOn v y (ends v rfl) s' sees'
    refine ⟨ms ++ ms', z, ?_, sees'', trail.append trail', ends', fails'⟩
    rw [grown', grown, List.reverse_append, List.append_assoc]

/-- An error that is looked at is a result like any other. It is no refusal. -/
theorem attempt {a : Activity S α} {R : α → RunSnapshot → Prop} (h : c.Strokes kept a x R) :
    c.Strokes kept a.attempt x fun r y =>
      (∀ v, r = .ok v → R v y) ∧ ∀ e, r = .error e → ¬e.IsRefusal := by
  intro s sees
  obtain ⟨ms, y, grown, sees', trail, ends⟩ := h s sees
  refine ⟨ms, y, grown, sees', trail, ?_, nofun⟩
  rintro _ ⟨⟩
  exact ends

/-- What changes neither the record nor the history. -/
theorem idle {a : Activity S α} {R : α → RunSnapshot → Prop}
    (h : ∀ s, c.Sees kept s ⟨x, []⟩ → ∃ r count,
      a s = (r, { s with readings := s.readings + count }) ∧ (∀ v, r = .ok v → R v x) ∧
        ∀ e, r = .error e → ¬e.IsRefusal) :
    c.Strokes kept a x R := by
  intro s sees
  obtain ⟨r, count, eval, ends⟩ := h s sees
  rw [eval]
  exact ⟨[], x, rfl, ⟨sees.kept, sees.loads, sees.named⟩, .nil x, ends⟩

theorem pure {v : α} {R : α → RunSnapshot → Prop} (r : R v x) : c.Strokes kept (pure v) x R := by
  refine idle fun s _ => ⟨.ok v, 0, rfl, ?_, nofun⟩
  rintro _ ⟨⟩
  exact r

theorem throw {e : RunError} {R : α → RunSnapshot → Prop} (other : ¬e.IsRefusal) :
    c.Strokes kept (throw e : Activity S α) x R := by
  refine idle fun s _ => ⟨.error e, 0, rfl, nofun, ?_⟩
  rintro _ ⟨⟩
  exact other

theorem of_reads {a : Activity S α} {r : Except RunError α} (reads : c.Reads x a r)
    (other : ∀ e, r = .error e → ¬e.IsRefusal) :
    c.Strokes kept a x fun v y => r = .ok v ∧ y = x := by
  refine idle fun s sees => ?_
  obtain ⟨count, eval⟩ := reads s sees.loads
  exact ⟨r, count, eval, fun v same => ⟨same, rfl⟩, other⟩

theorem of_reads_ok {a : Activity S α} {v : α} (reads : c.Reads x a (.ok v)) :
    c.Strokes kept a x fun w y => w = v ∧ y = x := by
  refine (of_reads reads nofun).mono ?_
  rintro w y ⟨same, rfl⟩
  exact ⟨(Except.ok.inj same).symm, rfl⟩

theorem note {m : Moment S} (stroke : ∀ s, c.Sees kept s ⟨x, []⟩ → Stroke c.subject kept x m x) :
    c.Strokes kept (c.note m) x fun _ y => y = x :=
  fun s sees => ⟨[m], x, rfl, ⟨sees.kept, sees.loads, sees.named⟩, .single (stroke s sees),
    fun _ _ => rfl, nofun⟩

theorem emit (e : ProgressEvent) : c.Strokes kept (c.emit e) x fun _ y => y = x :=
  fun s sees => note (fun _ _ => .told e sees.kept sees.recordIn) s sees

theorem mark (key : TaskKey) (mark : TaskMark) :
    c.Strokes kept (c.mark key mark) x fun _ y => y = x := by
  refine bind (R := fun _ y => y = x) (idle fun s _ => ⟨.ok (c.host.clock s.readings), 1, rfl,
    fun _ _ => rfl, nofun⟩) ?_
  rintro now y rfl
  exact note fun _ _ => .marked _

end Strokes

/-- To choose the next space is to talk. -/
theorem strokes_next (space : String) :
    c.Strokes kept (c.next space) x fun _ _ => True := by
  intro s sees
  obtain ⟨s', chosen, -, talks⟩ := next_eval (c := c) space s
  obtain ⟨ms, grown, talk⟩ := talks.said
  rw [chosen]
  refine ⟨ms, x, grown, ⟨talks.store ▸ sees.kept, talks.store ▸ sees.loads, sees.named⟩,
    .loop fun m mem => ?_, fun _ _ => trivial, fun e failed => ?_⟩
  · have said := talk m mem
    cases m with
    | printed text => exact .printed text
    | asked prompt => exact .asked prompt
    | told e store =>
      obtain ⟨rfl, -⟩ := said
      exact .told e sees.kept sees.recordIn
    | _ => cases said
  · have noChoice := noChoice_of_nextOn (Prod.ext failed rfl)
    cases noChoice with
    | _ => nofun

section Changes

variable (reliable : c.host.Reliable c.runId kept)

include reliable

/-- A change of the record that is an alteration. -/
theorem strokes_record {operation : RepositoryM S Unit}
    (change : Timestamp → RunSnapshot → Except RecordKey RunSnapshot)
    (modifies : ∀ now s, operation now s = c.host.backend.modify c.runId change now s)
    (alters : ∀ now y, change now x = .ok y → x.Alters c.artifact now y) :
    c.Strokes kept (c.record operation) x fun _ _ => True := by
  intro s sees
  cases changed : change (c.host.clock s.readings) x with
  | ok y =>
    have altered := alters _ _ changed
    obtain ⟨s', recorded, -, grown, sees'⟩ :=
      record_eval reliable change modifies sees changed altered.frame.1.1
    rw [recorded]
    exact ⟨[.wrote s'.store], _, grown, sees', .single (.wrote altered sees'.kept sees'.recordIn),
      fun _ _ => trivial, nofun⟩
  | error key =>
    rw [record_refused change modifies sees changed]
    refine ⟨[], x, rfl, ⟨sees.kept, sees.loads, sees.named⟩, .nil x, nofun, ?_⟩
    rintro _ ⟨⟩ ⟨⟩

/-- An alteration that cannot fail. -/
theorem strokes_update (change : Timestamp → RunSnapshot → RunSnapshot)
    (alters : ∀ now, x.Alters c.artifact now (change now x)) :
    c.Strokes kept (c.record (c.host.backend.update c.runId change)) x fun _ _ => True := by
  refine strokes_record reliable (fun now x => .ok (change now x)) (fun _ _ => rfl) ?_
  rintro now _ ⟨⟩
  exact alters now

theorem strokes_setRunStatus (status : RunStatus) (error : Option String) :
    c.Strokes kept (c.record (c.host.backend.setRunStatus c.runId status error)) x
      fun _ _ => True :=
  strokes_update reliable _ fun _ => .stands status error

theorem strokes_setSpaceStatus (space : String) (status : UnitStatus) :
    c.Strokes kept (c.record (c.host.backend.setSpaceStatus c.runId space status)) x
      fun _ _ => True :=
  strokes_record reliable _ (fun _ _ => rfl) fun _ _ => .setsSpace

theorem strokes_setSetStatus (space : String) (index : Nat) (status : UnitStatus) :
    c.Strokes kept (c.record (c.host.backend.setSetStatus c.runId space index status)) x
      fun _ _ => True :=
  strokes_record reliable _ (fun _ _ => rfl) fun _ _ => .setsSet

theorem strokes_setTaskStatus (space : String) (index : Nat) (task : String) (status : UnitStatus)
    (error : Option String) :
    c.Strokes kept (c.record (c.host.backend.setTaskStatus c.runId space index task status error))
      x fun _ _ => True :=
  strokes_record reliable _ (fun _ _ => rfl) fun _ _ => .setsTask

theorem strokes_checkTermination : c.Strokes kept c.checkTermination x fun _ _ => True := by
  intro s
  have asked : c.checkTermination s = (if s.terminating then do
        c.record (c.host.backend.setRunStatus c.runId .terminated none)
        throw (.terminated c.runId)
      else pure () : Activity S Unit) s := rfl
  have either : c.Strokes kept (if s.terminating then do
        c.record (c.host.backend.setRunStatus c.runId .terminated none)
        throw (.terminated c.runId)
      else pure () : Activity S Unit) x fun _ _ => True := by
    split
    · exact (strokes_setRunStatus reliable _ _).bind fun _ _ _ => Strokes.throw (by rintro ⟨⟩)
    · exact Strokes.pure trivial
  rw [asked]
  exact either s

/-! ## Tasks -/

/-- A command that the record orders is carried out, or only shown. -/
theorem strokes_carryOut (t : TaskDefinition) {command : Command}
    (ordered : c.artifact.Orders x.ledger command) :
    c.Strokes kept (c.carryOut t command) x fun _ _ => True := by
  have launches : c.Strokes kept (c.launch command) x fun _ _ => True := by
    intro s sees
    obtain ⟨kept', loads⟩ := reliable.launches command sees.kept
    refine ⟨[.launched command], x, rfl, ⟨kept', loads.trans sees.loads, sees.named⟩,
      .single (.launched ordered), fun _ _ => trivial, ?_⟩
    rintro _ ⟨⟩
  rw [carryOut]
  cases c.options.dryRun
  · refine launches.bind fun completion y _ => ?_
    cases completion with
    | error fault => exact Strokes.pure trivial
    | ok completion => exact Strokes.pure trivial
  · exact (Strokes.note fun _ _ => .printed _).bind fun _ _ _ => Strokes.pure trivial

variable {space : SpaceDefinition} {set : ParameterSet} {index : Nat} {t : TaskDefinition}

omit reliable in
/-- A task that cannot be prepared lacks a parameter or an input. -/
theorem not_isRefusal_of_prepared {l : Ledger} {e : RunError}
    (failed : l.prepared space index set t = .error e) : ¬e.IsRefusal := by
  rw [Ledger.prepared] at failed
  cases put : parametersOf space index set t with
  | error e' =>
    rw [put] at failed
    cases failed
    obtain ⟨_, _, _, _, rfl⟩ := isMissingParameter_of_parametersOf put
    rintro ⟨⟩
  | ok parameters =>
    cases looked : t.inputData.mapM (l.input space index t) with
    | error e' =>
      rw [put, looked] at failed
      cases failed
      obtain ⟨name, -, missing⟩ := exists_of_mapM_error looked
      rw [(input_eq_error missing).1]
      rintro ⟨⟩
    | ok inputs =>
      rw [put, looked] at failed
      cases failed

theorem strokes_outputValues (declared : space ∈ c.artifact.spaces)
    (assigned : (set, index) ∈ space.parameters.zipIdx) (defined : t ∈ c.artifact.tasks.flatten)
    (listed : t.taskId ∈ space.tasksOrder) :
    c.Strokes kept (c.outputValues space index set t) x fun _ _ => True := by
  rw [outputValues_eq_prepare]
  refine Strokes.bind (Strokes.of_reads reads_prepare fun e => not_isRefusal_of_prepared) ?_
  rintro ⟨parameters, inputs⟩ y ⟨prepared, rfl⟩
  rw [execute]
  cases made : Command.ofTask t parameters inputs c.options.directory with
  | error cause =>
    refine Strokes.bind (R := fun produced _ => produced = .error cause) (Strokes.pure rfl) ?_
    rintro _ z rfl
    exact Strokes.throw (by rintro ⟨⟩)
  | ok command =>
    refine (strokes_carryOut reliable t
      (.of declared assigned defined listed prepared made)).bind fun produced z _ => ?_
    cases produced with
    | error cause => exact Strokes.throw (by rintro ⟨⟩)
    | ok values => exact Strokes.pure trivial

/-- Values are recorded under the names that they belong to. -/
theorem strokes_recordValues (defined : t ∈ c.artifact.tasks.flatten)
    {values : List (String × String)} (named : ∀ value ∈ values, value.1 ∈ t.outputData) :
    c.Strokes kept (c.recordValues space index t values) x fun _ _ => True := by
  induction values generalizing x with
  | nil => exact Strokes.pure trivial
  | cons first rest ih =>
    obtain ⟨name, value⟩ := first
    let mapping (now : Timestamp) : DataMapping :=
      { spaceId := space.spaceId, index, name, value, taskId := some t.taskId, recordedAt := now }
    have puts : c.Strokes kept
        (c.record fun now => c.host.backend.putMapping c.runId (mapping now) now) x
        fun _ _ => True := by
      refine strokes_record reliable (fun now x => .ok (x.putMapping (mapping now)))
        (fun _ _ => rfl) ?_
      rintro now _ ⟨⟩
      exact .puts _ ⟨t, defined, named _ List.mem_cons_self⟩
    exact puts.bind fun _ _ _ => ih fun other mem => named other (List.mem_cons_of_mem _ mem)

theorem strokes_recordFailure (e : RunError) :
    c.Strokes kept (c.recordFailure space index t e) x fun _ _ => True :=
  (strokes_setTaskStatus reliable _ _ _ _ _).bind fun _ _ _ =>
    (strokes_setSetStatus reliable _ _ _).bind fun _ _ _ => strokes_setSpaceStatus reliable _ _

theorem strokes_runTask (declared : space ∈ c.artifact.spaces)
    (assigned : (set, index) ∈ space.parameters.zipIdx) (defined : t ∈ c.artifact.tasks.flatten)
    (listed : t.taskId ∈ space.tasksOrder) :
    c.Strokes kept (c.runTask space index set t) x fun _ _ => True := by
  have starts : c.Strokes kept
      (c.record (c.host.backend.startTask c.runId space.spaceId index t.taskId)) x
      fun _ _ => True :=
    strokes_update reliable _ fun _ => .opensTask _ _ _
  rw [runTask]
  refine starts.bind fun _ y _ => ?_
  refine (Strokes.mark _ _).bind fun _ y _ => ?_
  refine (Strokes.emit _).bind fun _ y _ => ?_
  refine Strokes.bind
    (Strokes.attempt (strokes_outputValues reliable declared assigned defined listed)) ?_
  rintro (e | values) z ⟨-, other⟩
  · refine (strokes_recordFailure reliable e).bind fun _ _ _ => ?_
    exact (Strokes.mark _ _).bind fun _ _ _ => Strokes.throw (other e rfl)
  · have named : ∀ value ∈ t.outputData.zip values, value.1 ∈ t.outputData :=
      fun value mem => (List.of_mem_zip mem).1
    refine (strokes_recordValues reliable defined named).bind fun _ _ _ => ?_
    refine (strokes_setTaskStatus reliable _ _ _ _ _).bind fun _ _ _ => ?_
    refine (Strokes.mark _ _).bind fun _ _ _ => ?_
    exact (Strokes.emit _).mono fun _ _ _ => trivial

/-! ## Spaces -/

theorem strokes_runTasks (declared : space ∈ c.artifact.spaces)
    (assigned : (set, index) ∈ space.parameters.zipIdx) (total done : Nat)
    {tasks : List TaskDefinition} (defined : ∀ t ∈ tasks, t ∈ c.artifact.tasks.flatten)
    (listed : ∀ t ∈ tasks, t.taskId ∈ space.tasksOrder) :
    c.Strokes kept (c.runTasks space index set total done tasks) x fun _ _ => True := by
  induction tasks generalizing x done with
  | nil => exact Strokes.pure trivial
  | cons t rest ih =>
    rw [runTasks]
    refine (strokes_runTask reliable declared assigned (defined t List.mem_cons_self)
      (listed t List.mem_cons_self)).bind fun _ _ _ => ?_
    refine (Strokes.emit _).bind fun _ _ _ => ?_
    refine (strokes_checkTermination reliable).bind fun _ _ _ => ?_
    exact ih (done + 1) (fun u mem => defined u (List.mem_cons_of_mem _ mem))
      fun u mem => listed u (List.mem_cons_of_mem _ mem)

theorem strokes_runSets (declared : space ∈ c.artifact.spaces) {tasks : List TaskDefinition}
    (defined : ∀ t ∈ tasks, t ∈ c.artifact.tasks.flatten)
    (listed : ∀ t ∈ tasks, t.taskId ∈ space.tasksOrder) (completed : Nat)
    {sets : List (ParameterSet × Nat)}
    (assigned : ∀ entry ∈ sets, entry ∈ space.parameters.zipIdx) :
    c.Strokes kept (c.runSets space tasks completed sets) x fun _ _ => True := by
  induction sets generalizing x completed with
  | nil => exact Strokes.pure trivial
  | cons first rest ih =>
    obtain ⟨set, index⟩ := first
    have later (completed : Nat) (y : RunSnapshot) := ih (x := y) completed fun entry mem =>
      assigned entry (List.mem_cons_of_mem _ mem)
    have starts (y : RunSnapshot) : c.Strokes kept
        (c.record (c.host.backend.startSet c.runId space.spaceId index set)) y fun _ _ => True :=
      strokes_update reliable _ fun _ => .opensSet _ _ _
    rw [runSets]
    refine (Strokes.of_reads_ok (reads_isSetCompleted space index)).bind ?_
    rintro isCompleted y -
    cases isCompleted with
    | true => exact later _ _
    | false =>
      refine (starts y).bind fun _ _ _ => ?_
      refine (Strokes.emit _).bind fun _ _ _ => ?_
      refine (strokes_runTasks reliable declared (assigned _ List.mem_cons_self) _ _ defined
        listed).bind fun _ _ _ => ?_
      refine (strokes_setSetStatus reliable _ _ _).bind fun _ _ _ => ?_
      refine (Strokes.emit _).bind fun _ _ _ => ?_
      refine (Strokes.emit _).bind fun _ _ _ => ?_
      exact (strokes_checkTermination reliable).bind fun _ _ _ => later _ _

omit reliable in
/-- The tasks of a space are defined, and listed in its order. -/
theorem mem_of_tasksOf {tasks : List TaskDefinition} (known : c.tasksOf space = .ok tasks) :
    (∀ t ∈ tasks, t ∈ c.artifact.tasks.flatten) ∧ ∀ t ∈ tasks, t.taskId ∈ space.tasksOrder := by
  constructor
  · intro t mem
    exact List.mem_of_find?_eq_some (task?_of_mem_tasksOf known mem)
  · intro t mem
    rw [← tasksOf_taskIds known]
    exact List.mem_map_of_mem mem

theorem strokes_visit (declared : space ∈ c.artifact.spaces) :
    c.Strokes kept (c.visit space) x fun _ _ => True := by
  have starts (y : RunSnapshot) : c.Strokes kept
      (c.record (c.host.backend.startSpace c.runId space.spaceId)) y fun _ _ => True :=
    strokes_update reliable _ fun _ => .opensSpace _
  have goesOn (y : RunSnapshot) : c.Strokes kept (do
      c.emit (.spaceStarted c.runId space.spaceId)
      let tasks ← c.tasksOf space
      c.runSets space tasks 0 space.parameters.zipIdx
      c.record (c.host.backend.setSpaceStatus c.runId space.spaceId .completed)
      c.emit (.spaceCompleted c.runId space.spaceId)) y fun _ _ => True := by
    refine (Strokes.emit _).bind fun _ z _ => ?_
    cases known : c.tasksOf space with
    | error e =>
      obtain ⟨id, -, unknown⟩ := exists_of_mapM_error known
      split at unknown
      · cases unknown
      · cases unknown
        exact Strokes.throw (by rintro ⟨⟩)
    | ok tasks =>
      obtain ⟨defined, listed⟩ := mem_of_tasksOf known
      refine Strokes.bind (R := fun found _ => found = tasks) (Strokes.pure rfl) ?_
      rintro _ w rfl
      refine (strokes_runSets reliable declared defined listed 0 fun _ mem => mem).bind
        fun _ _ _ => ?_
      refine (strokes_setSpaceStatus reliable _ _).bind fun _ _ _ => ?_
      exact (Strokes.emit _).mono fun _ _ _ => trivial
  rw [visit]
  refine (Strokes.of_reads_ok (reads_query (·.space? space.spaceId))).bind ?_
  rintro record y -
  simp only
  split
  · exact (starts _).bind fun _ _ _ => goesOn _
  · exact goesOn _

theorem strokes_visitOnce (declared : space ∈ c.artifact.spaces) (goesOn : Bool) :
    c.Strokes kept (c.visitOnce space goesOn) x fun _ _ => True := by
  have visits (y : RunSnapshot) : c.Strokes kept (do
      c.visit space
      c.checkTermination) y fun _ _ => True :=
    (strokes_visit reliable declared).bind fun _ _ _ => strokes_checkTermination reliable
  have resets (y : RunSnapshot) : c.Strokes kept
      (c.record (c.host.backend.resetSpace c.runId space.spaceId)) y fun _ _ => True :=
    strokes_update reliable (fun _ x => x.resetSpace space.spaceId) fun _ => .forgets _
  rw [visitOnce]
  refine (Strokes.of_reads_ok (reads_isSpaceCompleted space.spaceId)).bind ?_
  rintro completed y -
  simp only
  split
  · exact Strokes.pure trivial
  · split
    · exact (resets _).bind fun _ _ _ => visits _
    · exact visits _

/-! ## The way through the spaces -/

theorem strokes_traverse (visits : Nat) (current : String) (goesOn : Bool) :
    c.Strokes kept (c.traverse visits current goesOn) x fun _ _ => True := by
  have enters (space : String) (y : RunSnapshot) : c.Strokes kept
      (c.record (c.host.backend.enter c.runId space)) y fun _ _ => True :=
    strokes_update reliable _ fun _ => .enters _
  induction visits generalizing x current goesOn with
  | zero =>
    rw [traverse]
    split
    · exact (enters _ _).bind fun _ _ _ => Strokes.pure trivial
    · exact Strokes.pure trivial
  | succ visits ih =>
    rw [traverse]
    split
    · exact (enters _ _).bind fun _ _ _ => Strokes.pure trivial
    · cases found : c.artifact.space? current with
      | none => exact Strokes.throw (by rintro ⟨⟩)
      | some space =>
        refine (enters _ _).bind fun _ _ _ => ?_
        refine (strokes_visitOnce reliable (List.mem_of_find?_eq_some found) goesOn).bind
          fun _ _ _ => ?_
        exact (strokes_next current).bind fun _ _ _ => ih _ _

omit reliable in
/-- Results are missing for want of a task only. -/
theorem not_isRefusal_of_resultsOn {l : Ledger} {e : RunError}
    (failed : c.resultsOn l = .error e) : ¬e.IsRefusal := by
  obtain ⟨space, -, results, failed⟩ := exists_of_foldlM_error failed
  cases gathered : c.spaceOn l space with
  | ok values =>
    rw [gathered] at failed
    cases failed
  | error e' =>
    rw [gathered] at failed
    cases failed
    rw [spaceOn] at gathered
    split at gathered
    · cases gathered
    · split at gathered
      · cases gathered
        rintro ⟨⟩
      · cases gathered

omit reliable in
theorem strokes_summary (resumed executed : Bool) :
    c.Strokes kept (c.summary resumed executed) x fun _ y => y = x := by
  refine (Strokes.of_reads (reads_summary resumed executed) fun e failed => ?_).mono
    fun _ _ told => told.2
  cases found : c.resultsOn x.ledger with
  | ok results =>
    rw [found] at failed
    cases failed
  | error e' =>
    rw [found] at failed
    cases failed
    exact not_isRefusal_of_resultsOn found

/-- Carrying a run out is a trail of strokes, and is not refused. -/
theorem strokes_drive (visits : Nat) (resumed : Bool) :
    c.Strokes kept (c.drive visits resumed) x fun _ _ => True := by
  have way (y : RunSnapshot) : c.Strokes kept (do
      c.traverse visits (← c.firstSpace resumed) resumed : Activity S Bool) y fun _ _ => True :=
    (Strokes.of_reads_ok (reads_firstSpace resumed)).bind fun _ _ _ =>
      strokes_traverse reliable visits _ resumed
  have concludes (r : Except RunError Bool) (y : RunSnapshot)
      (other : ∀ e, r = .error e → ¬e.IsRefusal) :
      c.Strokes kept (c.conclude resumed r) y fun _ _ => True := by
    rw [conclude.eq_def]
    cases r with
    | error e =>
      simp only
      split
      · refine (strokes_setRunStatus reliable _ _).bind fun _ _ _ => ?_
        exact (Strokes.emit _).bind fun _ _ _ => Strokes.throw (other e rfl)
      · exact Strokes.throw (other e rfl)
    | ok finished =>
      cases finished with
      | false => exact Strokes.pure trivial
      | true =>
        have moves (z : RunSnapshot) : c.Strokes kept
            (c.record (c.host.backend.setRunPosition c.runId none none none)) z fun _ _ => True :=
          strokes_update reliable (fun _ x => x.setPosition none none none) fun _ => .moves _ _ _
        refine (strokes_setRunStatus reliable _ _).bind fun _ _ _ => ?_
        refine (moves _).bind fun _ _ _ => ?_
        exact (strokes_summary resumed true).bind fun _ _ _ => Strokes.pure trivial
  refine (strokes_setRunStatus reliable _ _).bind fun _ y _ => ?_
  refine (Strokes.attempt (way y)).bind fun r z ended => ?_
  exact concludes r z ended.2

end Changes

end Conduct

/-! ## Calls -/

/-- What a moment of a call does to what is recorded of the run, if anything. A run is registered
where there is no record of it, and every stroke is made on a record of the artifact. -/
inductive CallStep (u : Subject S) (kept : S → Prop) :
    Option RunSnapshot → Moment S → Option RunSnapshot → Prop
  | registers {store : S} {y : RunSnapshot} : kept store → u.recordIn store = some y →
      y.run.artifactHash = u.artifact.contentHash → y.mappings = [] →
      CallStep u kept none (.wrote store) (some y)
  | strikes {x y : RunSnapshot} {m : Moment S} : x.run.artifactHash = u.artifact.contentHash →
      Stroke u kept x m y → CallStep u kept (some x) m (some y)

namespace Conduct

variable {c : Conduct S} {kept : S → Prop}

/-- A trail of strokes on a record of the artifact is made by steps of a call. -/
theorem trail_of_strokes {u : Subject S} {x y : RunSnapshot} {ms : List (Moment S)}
    (own : x.run.artifactHash = u.artifact.contentHash) (trail : Trail (Stroke u kept) x ms y) :
    Trail (CallStep u kept) (some x) ms (some y) := by
  induction trail with
  | nil => exact .nil _
  | cons stroke _ ih => exact .cons (.strikes own stroke) (ih (stroke.keeps.2.trans own))

/-- A call goes by steps from the record that it finds to the one that it leaves. If it is refused,
it has left everything as it was. -/
theorem call_steps (reliable : c.host.Reliable c.runId kept) (request : Request) (visits : Nat)
    {s : Session S} {x : Option RunSnapshot} (finds : c.Finds kept s x) :
    ∃ ms y, (c.call request visits s).2.history = ms.reverse ++ s.history ∧
      c.Finds kept (c.call request visits s).2 y ∧ Trail (CallStep c.subject kept) x ms y ∧
      ∀ e, (c.call request visits s).1 = .error e → e.IsRefusal →
        ∃ n, (c.call request visits s).2 = { s with readings := s.readings + n } := by
  by_cases rests : request.Rests c.artifact x
  · obtain ⟨n, idle⟩ := call_idles visits finds rests
    rw [idle]
    exact ⟨[], x, rfl, ⟨finds.kept, finds.loads, finds.named⟩, .nil x, fun _ _ _ => ⟨n, rfl⟩⟩
  cases x with
  | none =>
    obtain rfl : request = .run := by
      cases request with
      | run => rfl
      | resume => exact absurd rfl rests
    let s₁ : Session S := { s with readings := s.readings + 1 }
    obtain ⟨store, y, registers, kept', loads, named, noMappings, ledger⟩ :=
      register_eval (s := s₁) reliable finds.kept finds.loads
    let s₂ : Session S :=
      (c.note (.wrote store) { s₁ with store, readings := s₁.readings + 1 }).2
    have sees : c.Sees kept s₂ ⟨y, []⟩ := ⟨kept', loads, named⟩
    have own : y.run.artifactHash = c.artifact.contentHash := congrArg Ledger.hash ledger
    have drives : c.call .run visits s = c.drive visits false s₂ :=
      run_eq_drive_registered visits finds.loads registers
    obtain ⟨ms, z, grown, sees', trail, -, fails⟩ := strokes_drive reliable visits false s₂ sees
    rw [drives]
    refine ⟨.wrote store :: ms, some z, ?_, sees'.finds, .cons ?_ (trail_of_strokes own trail), ?_⟩
    · rw [grown, List.reverse_cons, List.append_assoc]
      rfl
    · exact .registers kept' sees.recordIn own noMappings
    · intro e failed refused
      exact absurd refused (fails e failed)
  | some y =>
    obtain ⟨own, open_⟩ : y.run.artifactHash = c.artifact.contentHash ∧
        y.run.status ≠ .completed := Classical.not_imp.1 rests
    let s₁ : Session S := { s with readings := s.readings + 1 }
    have sees : c.Sees kept s₁ ⟨y, []⟩ := ⟨finds.kept, finds.loads, finds.named y rfl⟩
    have drives : c.call request visits s = c.drive visits true s₁ := by
      rw [call_recorded request visits finds]
      simp only [continueRun, own, ne_eq, not_true, if_false, open_]
      rfl
    obtain ⟨ms, z, grown, sees', trail, -, fails⟩ := strokes_drive reliable visits true s₁ sees
    rw [drives]
    refine ⟨ms, some z, grown, sees'.finds, trail_of_strokes own trail, ?_⟩
    intro e failed refused
    exact absurd refused (fails e failed)

end Conduct

namespace CallStep

variable {u : Subject S} {kept : S → Prop} {x y : Option RunSnapshot} {m : Moment S}

/-- What is recorded names outputs only. -/
theorem outputs (h : CallStep u kept x m y)
    (named : ∀ z, x = some z → z.NamesOutputs u.artifact) :
    ∀ z, y = some z → z.NamesOutputs u.artifact := by
  cases h with
  | registers _ _ _ none =>
    rintro _ ⟨⟩
    rw [RunSnapshot.NamesOutputs, none]
    nofun
  | strikes _ stroke =>
    rintro _ ⟨⟩
    exact stroke.outputs (named _ rfl)

end CallStep

section Journeys

variable {u : Subject S} {kept : S → Prop} {x y : Option RunSnapshot}

/-- The record that steps come to is the one that their moments leave. -/
theorem recordAfter_of_steps {log : List (LogItem S)}
    (trail : Trail (CallStep u kept) x (momentsIn log) y) : u.recordAfter x log = y := by
  rw [Subject.recordAfter]
  generalize momentsIn log = ms at trail
  induction trail with
  | nil => rfl
  | cons step _ ih =>
    rw [List.foldl_cons, ← ih]
    congr 1
    cases step with
    | registers _ recorded => exact recorded
    | strikes _ stroke =>
      cases stroke with
      | wrote _ _ recorded => exact recorded
      | _ => rfl

/-- Over any number of calls, cut off anywhere, what is noted of a run is a trail of steps from
nothing to its record. -/
theorem Journey.steps (valid : u.artifact.validate = .ok ()) {log : List (LogItem S)}
    (h : Journey u kept log x) : Trail (CallStep u kept) none (momentsIn log) x := by
  induction h with
  | start => exact .nil none
  | @call log x c request visits s count _ same reliable finds ih =>
    subst same
    obtain ⟨ms, y, grown, -, trail, -⟩ := c.call_steps reliable request visits finds
    have told := c.call_history reliable valid request visits finds
    have noted : ms = momentsIn (c.callLog request visits s) :=
      List.reverse_injective (List.append_cancel_right (grown.symm.trans told))
    obtain ⟨rest, whole⟩ := (List.take_prefix count (c.callLog request visits s)).filterMap
      LogItem.moment?
    rw [noted, momentsIn, ← whole] at trail
    obtain ⟨m, first, -⟩ := trail.split
    rw [recordAfter_of_steps first]
    have all : momentsIn (log ++ .called x :: (c.callLog request visits s).take count) =
        momentsIn log ++ momentsIn ((c.callLog request visits s).take count) :=
      momentsIn_append _ _
    rw [all]
    exact ih.append first

/-- Over any number of calls only outputs are recorded. -/
theorem Journey.namesOutputs (valid : u.artifact.validate = .ok ()) {log : List (LogItem S)}
    (h : Journey u kept log x) : ∀ y, x = some y → y.NamesOutputs u.artifact := by
  refine (h.steps valid).invariant (P := fun x => ∀ y, x = some y → y.NamesOutputs u.artifact)
    ?_ ?_
  · intro x m y named step
    exact step.outputs named
  · intro y none
    cases none

/-- Every program is started by the order of a record that names outputs only. -/
theorem Journey.exists_ordered (valid : u.artifact.validate = .ok ()) {log : List (LogItem S)}
    (h : Journey u kept log x) {command : Command} (launched : .launched command ∈ momentsIn log) :
    ∃ y : RunSnapshot, y.NamesOutputs u.artifact ∧ u.artifact.Orders y.ledger command := by
  obtain ⟨before, after, named, step⟩ := (h.steps valid).exists_step_from
    (P := fun x => ∀ y, x = some y → y.NamesOutputs u.artifact)
    (fun _ _ _ named step => step.outputs named) (fun y none => by cases none) launched
  cases step with
  | @strikes y _ _ _ stroke =>
    cases stroke with
    | launched ordered => exact ⟨y, named y rfl, ordered⟩

end Journeys

end Sweep
