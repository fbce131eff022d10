import Sweep.Proofs.Artifact.Validity
import Sweep.Proofs.Lists
import Sweep.Proofs.Run.Reading

/-!
# The course of a visit

A course relates the ledger that a part of the engine starts from to its deeds, its result and the
ledger that it leaves. There is one case for every way the part can go: what it finds recorded
decides between the cases, the outcome of a program and a request for termination are left open.
The engine follows these courses, whichever host it runs on.
-/

namespace Sweep

variable {S : Type}

namespace Ledger

def openSpace (l : Ledger) (space : String) : Ledger :=
  if l.spaces space = some .running then l else l.setSpace space .running

/-- A space that is completed is forgotten before it is visited again. -/
def clear (l : Ledger) (space : String) : Ledger :=
  if l.spaces space = some .completed then l.reset space else l

end Ledger

def TaskDefinition.outcome (t : TaskDefinition) (command : Command) :
    Except LaunchFault Completion → Except TaskError (List String)
  | .error fault => .error (.notStarted command.program fault)
  | .ok completion => completion.values t.outputData

namespace Completion

/-- There is a value for each output. -/
theorem length_of_values {completion : Completion} {outputs values : List String}
    (h : completion.values outputs = .ok values) : values.length = outputs.length := by
  rw [Completion.values] at h
  split at h
  · cases h
  split at h
  · next empty =>
    cases h
    rw [List.isEmpty_iff.1 empty]
  split at h
  · cases h
  · next line _ =>
    rw [valuesOfLine] at h
    split at h
    · cases h
    split at h
    · next same =>
      cases h
      exact same
    · cases h

end Completion

namespace Conduct

variable (c : Conduct S) (kept : S → Prop)

def commandOf (l : Ledger) (space : SpaceDefinition) (index : Nat) (set : ParameterSet)
    (t : TaskDefinition) : Except RunError Command := do
  let parameters ← parametersOf space index set t
  let inputs ← t.inputData.mapM (l.input space index t)
  (Command.ofTask t parameters inputs c.options.directory).mapError
    (.taskFailed space.spaceId index t.taskId)

/-- What carrying a command out can give, and the deeds that belong to it. -/
inductive CarriesOut (t : TaskDefinition) (command : Command) :
    List Deed → Except TaskError (List String) → Prop
  | shown : c.options.dryRun = true →
      CarriesOut t command [] (.ok (t.outputData.map fun _ => previewValue))
  | ran (s : S) : c.options.dryRun = false → kept s →
      CarriesOut t command [.launched command] (t.outcome command (c.host.launch command s).1)

section Parts

variable (space : SpaceDefinition) (index : Nat) (set : ParameterSet)

/-- What a task can produce, and the deeds that belong to it. -/
inductive Produces (l : Ledger) (t : TaskDefinition) :
    List Deed → Except RunError (List String) → Prop
  | noCommand {e : RunError} : c.commandOf l space index set t = .error e →
      Produces l t [] (.error e)
  | carriesOut {command : Command} {deeds : List Deed} {r : Except TaskError (List String)} :
      c.commandOf l space index set t = .ok command → c.CarriesOut kept t command deeds r →
      Produces l t deeds (r.mapError (.taskFailed space.spaceId index t.taskId))

/-- Values put one after the other. On a steady clock each is the latest of its name. -/
inductive Puts : List (String × String) → Ledger → Ledger → Prop
  | nil (l : Ledger) : Puts [] l l
  | cons {name value last : String} {rest : List (String × String)} {l l' : Ledger} :
      (c.host.Steady → last = value) →
      Puts rest (l.put space.spaceId index name value last) l' →
      Puts ((name, value) :: rest) l l'

inductive TaskCourse (t : TaskDefinition) (l : Ledger) :
    List Deed → Except RunError Unit → Ledger → Prop
  | completed {deeds : List Deed} {values : List String} {l' : Ledger} :
      c.Produces kept space index set (l.setTask space.spaceId index t.taskId .running) t deeds
        (.ok values) →
      c.Puts space index (t.outputData.zip values)
        (l.setTask space.spaceId index t.taskId .running) l' →
      TaskCourse t l
        (.marked ⟨space.spaceId, index, t.taskId⟩ .started :: deeds ++
          [.marked ⟨space.spaceId, index, t.taskId⟩ .completed])
        (.ok ()) (l'.setTask space.spaceId index t.taskId .completed)
  | failed {deeds : List Deed} {e : RunError} :
      c.Produces kept space index set (l.setTask space.spaceId index t.taskId .running) t deeds
        (.error e) →
      TaskCourse t l
        (.marked ⟨space.spaceId, index, t.taskId⟩ .started :: deeds ++
          [.marked ⟨space.spaceId, index, t.taskId⟩ .failed])
        (.error e)
        ((((l.setTask space.spaceId index t.taskId .running).setTask space.spaceId index t.taskId
          .failed).setSet space.spaceId index .failed).setSpace space.spaceId .failed)

inductive TasksCourse : List TaskDefinition → Ledger →
    List Deed → Except RunError Unit → Ledger → Prop
  | nil (l : Ledger) : TasksCourse [] l [] (.ok ()) l
  | failed {t : TaskDefinition} {rest : List TaskDefinition} {l l' : Ledger} {deeds : List Deed}
      {e : RunError} : c.TaskCourse kept space index set t l deeds (.error e) l' →
      TasksCourse (t :: rest) l deeds (.error e) l'
  | stopped {t : TaskDefinition} {rest : List TaskDefinition} {l l' : Ledger}
      {deeds : List Deed} : ¬c.host.Calm →
      c.TaskCourse kept space index set t l deeds (.ok ()) l' →
      TasksCourse (t :: rest) l deeds (.error (.terminated c.runId)) (l'.setStatus .terminated)
  | cons {t : TaskDefinition} {rest : List TaskDefinition} {l l' l'' : Ledger}
      {deeds deeds' : List Deed} {r : Except RunError Unit} :
      c.TaskCourse kept space index set t l deeds (.ok ()) l' →
      TasksCourse rest l' deeds' r l'' →
      TasksCourse (t :: rest) l (deeds ++ deeds') r l''

end Parts

inductive SetsCourse (space : SpaceDefinition) (tasks : List TaskDefinition) :
    List (ParameterSet × Nat) → Ledger → List Deed → Except RunError Unit → Ledger → Prop
  | nil (l : Ledger) : SetsCourse space tasks [] l [] (.ok ()) l
  | skipped {set : ParameterSet} {index : Nat} {rest : List (ParameterSet × Nat)}
      {l l' : Ledger} {deeds : List Deed} {r : Except RunError Unit} :
      l.sets (space.spaceId, index) = some .completed →
      SetsCourse space tasks rest l deeds r l' →
      SetsCourse space tasks ((set, index) :: rest) l deeds r l'
  | broken {set : ParameterSet} {index : Nat} {rest : List (ParameterSet × Nat)}
      {l l' : Ledger} {deeds : List Deed} {e : RunError} :
      l.sets (space.spaceId, index) ≠ some .completed →
      c.TasksCourse kept space index set tasks (l.setSet space.spaceId index .running) deeds
        (.error e) l' →
      SetsCourse space tasks ((set, index) :: rest) l deeds (.error e) l'
  | stopped {set : ParameterSet} {index : Nat} {rest : List (ParameterSet × Nat)}
      {l l' : Ledger} {deeds : List Deed} : ¬c.host.Calm →
      l.sets (space.spaceId, index) ≠ some .completed →
      c.TasksCourse kept space index set tasks (l.setSet space.spaceId index .running) deeds
        (.ok ()) l' →
      SetsCourse space tasks ((set, index) :: rest) l deeds (.error (.terminated c.runId))
        ((l'.setSet space.spaceId index .completed).setStatus .terminated)
  | cons {set : ParameterSet} {index : Nat} {rest : List (ParameterSet × Nat)}
      {l l' l'' : Ledger} {deeds deeds' : List Deed} {r : Except RunError Unit} :
      l.sets (space.spaceId, index) ≠ some .completed →
      c.TasksCourse kept space index set tasks (l.setSet space.spaceId index .running) deeds
        (.ok ()) l' →
      SetsCourse space tasks rest (l'.setSet space.spaceId index .completed) deeds' r l'' →
      SetsCourse space tasks ((set, index) :: rest) l (deeds ++ deeds') r l''

inductive VisitCourse (space : SpaceDefinition) (l : Ledger) :
    List Deed → Except RunError Unit → Ledger → Prop
  | unknownTask {e : RunError} : c.tasksOf space = .error e →
      VisitCourse space l [] (.error e) (l.openSpace space.spaceId)
  | broken {tasks : List TaskDefinition} {deeds : List Deed} {e : RunError} {l' : Ledger} :
      c.tasksOf space = .ok tasks →
      c.SetsCourse kept space tasks space.parameters.zipIdx (l.openSpace space.spaceId) deeds
        (.error e) l' →
      VisitCourse space l deeds (.error e) l'
  | completed {tasks : List TaskDefinition} {deeds : List Deed} {l' : Ledger} :
      c.tasksOf space = .ok tasks →
      c.SetsCourse kept space tasks space.parameters.zipIdx (l.openSpace space.spaceId) deeds
        (.ok ()) l' →
      VisitCourse space l deeds (.ok ()) (l'.setSpace space.spaceId .completed)

inductive EntryCourse (space : SpaceDefinition) (goesOn : Bool) (l : Ledger) :
    List Deed → Except RunError Unit → Ledger → Prop
  | skipped : goesOn = true → l.spaces space.spaceId = some .completed →
      EntryCourse space goesOn l [] (.ok ()) l
  | broken {deeds : List Deed} {e : RunError} {l' : Ledger} :
      (goesOn = true → l.spaces space.spaceId ≠ some .completed) →
      c.VisitCourse kept space (l.clear space.spaceId) deeds (.error e) l' →
      EntryCourse space goesOn l deeds (.error e) l'
  | stopped {deeds : List Deed} {l' : Ledger} : ¬c.host.Calm →
      (goesOn = true → l.spaces space.spaceId ≠ some .completed) →
      c.VisitCourse kept space (l.clear space.spaceId) deeds (.ok ()) l' →
      EntryCourse space goesOn l deeds (.error (.terminated c.runId)) (l'.setStatus .terminated)
  | completed {deeds : List Deed} {l' : Ledger} :
      (goesOn = true → l.spaces space.spaceId ≠ some .completed) →
      c.VisitCourse kept space (l.clear space.spaceId) deeds (.ok ()) l' →
      EntryCourse space goesOn l deeds (.ok ()) l'

/-- The activity follows a course: it adds the deeds and leaves the ledger of one. -/
def Follows {α : Type} (a : Activity S α) (v : Standing)
    (R : List Deed → Except RunError α → Ledger → Prop) : Prop :=
  c.Leads kept a v fun r w => ∃ deeds l, R deeds r l ∧ w = (v.withLedger l).after deeds

variable {c kept}

/-! ## Inputs and outputs -/

section Working

variable (reliable : c.host.Reliable c.runId kept)

include reliable

theorem leads_carryOut (t : TaskDefinition) (command : Command) (v : Standing) :
    c.Leads kept (c.carryOut t command) v fun r w =>
      ∃ deeds r', c.CarriesOut kept t command deeds r' ∧ r = .ok r' ∧ w = v.after deeds := by
  rw [carryOut]
  cases dry : c.options.dryRun
  · refine Leads.bind (leads_launch reliable command v) ?_ ?_
    · rintro e w ⟨⟨s, -, h⟩, -⟩
      cases h
    · rintro completion w ⟨⟨s, k, h⟩, rfl⟩
      cases h
      have ran : c.CarriesOut kept t command [.launched command]
          (t.outcome command (c.host.launch command s).1) := .ran s dry k
      cases launched : (c.host.launch command s).1 <;> rw [launched] at ran <;>
        exact Leads.pure ⟨_, _, ran, rfl, rfl⟩
  · refine Yields.bind (yields_note (.printed (command.preview t.taskId)) v) (Leads.pure ?_)
    exact ⟨[], _, .shown dry, rfl, rfl⟩

theorem leads_outputValues (space : SpaceDefinition) (index : Nat) (set : ParameterSet)
    (t : TaskDefinition) (v : Standing) :
    c.Leads kept (c.outputValues space index set t) v fun r w =>
      ∃ deeds, c.Produces kept space index set v.ledger t deeds r ∧ w = v.after deeds := by
  have inputs : c.Yields kept (t.inputData.mapM (c.inputValue space index t)) v
      (t.inputData.mapM (v.ledger.input space index t)) v :=
    yields_of_reads (fun l => t.inputData.mapM (l.input space index t)) fun _ =>
      Reads.mapM (reads_inputValue space index t) t.inputData
  have fails {e : RunError} (h : c.commandOf v.ledger space index set t = .error e) :
      ∃ deeds, c.Produces kept space index set v.ledger t deeds (.error e) ∧ v = v.after deeds :=
    ⟨[], .noCommand h, v.after_nil.symm⟩
  rw [outputValues]
  cases hp : parametersOf space index set t with
  | error e => exact Leads.throw (fails (by rw [commandOf, hp]; rfl))
  | ok parameters =>
    refine Yields.bind (x := parameters) Yields.pure ?_
    cases hi : t.inputData.mapM (v.ledger.input space index t) with
    | error e =>
      exact Yields.bind_error (hi ▸ inputs) (fails (by
        rw [commandOf, hp]
        show (t.inputData.mapM (v.ledger.input space index t) >>= _) = _
        rw [hi]
        rfl))
    | ok values =>
      refine Yields.bind (hi ▸ inputs) ?_
      have command : c.commandOf v.ledger space index set t =
          (Command.ofTask t parameters values c.options.directory).mapError
            (.taskFailed space.spaceId index t.taskId) := by
        rw [commandOf, hp]
        show (t.inputData.mapM (v.ledger.input space index t) >>= _) = _
        rw [hi]
        rfl
      rw [execute]
      cases hc : Command.ofTask t parameters values c.options.directory with
      | error e =>
        refine Yields.bind (x := .error e) Yields.pure (Leads.throw (fails ?_))
        rw [command, hc]
        rfl
      | ok cmd =>
        refine Leads.bind (leads_carryOut reliable t cmd v) ?_ ?_
        · rintro e w ⟨deeds, r', -, h, -⟩
          cases h
        rintro r w ⟨deeds, r', carried, h, rfl⟩
        cases h
        have produced : c.Produces kept space index set v.ledger t deeds
            (r.mapError (.taskFailed space.spaceId index t.taskId)) :=
          .carriesOut (by rw [command, hc]; rfl) carried
        cases r with
        | error e => exact Leads.throw ⟨deeds, produced, rfl⟩
        | ok values => exact Leads.pure ⟨deeds, produced, rfl⟩

theorem leads_recordValues (space : SpaceDefinition) (index : Nat) (t : TaskDefinition)
    (outputs : List (String × String)) (v : Standing) :
    c.Leads kept (c.recordValues space index t outputs) v fun r w =>
      r = .ok () ∧ ∃ l, c.Puts space index outputs v.ledger l ∧ w = v.withLedger l := by
  induction outputs generalizing v with
  | nil => exact Leads.pure ⟨rfl, v.ledger, .nil _, rfl⟩
  | cons output rest ih =>
    obtain ⟨name, value⟩ := output
    refine Leads.bind (leads_putMapping reliable space.spaceId index name value (some t.taskId) v)
      ?_ ?_
    · rintro e w ⟨h, -⟩
      cases h
    rintro - w ⟨-, last, newest, rfl⟩
    refine (ih _).mono ?_
    rintro r w ⟨rfl, l, puts, rfl⟩
    exact ⟨rfl, l, .cons newest puts, rfl⟩

end Working

/-! ## What a course leaves alone -/

section Frames

variable {space : SpaceDefinition} {index : Nat} {set : ParameterSet}

/-- To put values changes the values and nothing else. -/
theorem Puts.frame {outputs : List (String × String)} {l l' : Ledger}
    (h : c.Puts space index outputs l l') :
    l' = { l with values := l'.values, latest := l'.latest } := by
  induction h with
  | nil => rfl
  | cons newest rest ih =>
    rw [ih]
    rfl

/-- A task that is completed leaves the sets and the spaces as they were. -/
theorem TaskCourse.frame {t : TaskDefinition} {l l' : Ledger} {deeds : List Deed}
    (h : c.TaskCourse kept space index set t l deeds (.ok ()) l') :
    l' = { l with tasks := l'.tasks, values := l'.values, latest := l'.latest } := by
  cases h with
  | completed produced puts =>
    rw [puts.frame]
    rfl

theorem TasksCourse.frame {tasks : List TaskDefinition} {l l' : Ledger} {deeds : List Deed}
    (h : c.TasksCourse kept space index set tasks l deeds (.ok ()) l') :
    l' = { l with tasks := l'.tasks, values := l'.values, latest := l'.latest } := by
  generalize hr : (.ok () : Except RunError Unit) = r at h
  induction h with
  | nil => rfl
  | failed => cases hr
  | stopped => cases hr
  | cons first _ ih =>
    rw [ih hr, first.frame]

/-- Sets that are gone through leave the spaces as they were. -/
theorem SetsCourse.frame {tasks : List TaskDefinition} {sets : List (ParameterSet × Nat)}
    {l l' : Ledger} {deeds : List Deed}
    (h : c.SetsCourse kept space tasks sets l deeds (.ok ()) l') :
    l' = { l with
      sets := l'.sets, tasks := l'.tasks, values := l'.values, latest := l'.latest } := by
  generalize hr : (.ok () : Except RunError Unit) = r at h
  induction h with
  | nil => rfl
  | skipped _ _ ih => exact ih hr
  | broken => cases hr
  | stopped => cases hr
  | cons _ first _ ih =>
    rw [ih hr, first.frame]
    rfl

/-- Sets that are gone through leave the sets of other spaces as they were. -/
theorem SetsCourse.sets_other {tasks : List TaskDefinition} {sets : List (ParameterSet × Nat)}
    {l l' : Ledger} {deeds : List Deed} {other : String} (apart : other ≠ space.spaceId)
    (h : c.SetsCourse kept space tasks sets l deeds (.ok ()) l') (index : Nat) :
    l'.sets (other, index) = l.sets (other, index) := by
  have ne (i : Nat) : (other, index) ≠ (space.spaceId, i) := fun same =>
    apart (congrArg Prod.fst same)
  generalize hr : (.ok () : Except RunError Unit) = r at h
  induction h with
  | nil => rfl
  | skipped _ _ ih => exact ih hr
  | broken => cases hr
  | stopped => cases hr
  | cons _ first _ ih =>
    rw [ih hr, Ledger.setSet, first.frame]
    simp only [Ledger.setSet, Function.update_of_ne (ne _)]

end Frames

/-! ### The artifact that a run belongs to -/

section Ownership

variable {space : SpaceDefinition} {index : Nat} {set : ParameterSet}

theorem TaskCourse.hash_eq {t : TaskDefinition} {l l' : Ledger} {deeds : List Deed}
    {r : Except RunError Unit} (h : c.TaskCourse kept space index set t l deeds r l') :
    l'.hash = l.hash := by
  cases h with
  | completed produced puts =>
    rw [puts.frame]
    rfl
  | failed => rfl

theorem TasksCourse.hash_eq {tasks : List TaskDefinition} {l l' : Ledger} {deeds : List Deed}
    {r : Except RunError Unit} (h : c.TasksCourse kept space index set tasks l deeds r l') :
    l'.hash = l.hash := by
  induction h with
  | nil => rfl
  | failed first => exact first.hash_eq
  | stopped _ first => exact first.hash_eq
  | cons first _ ih => exact ih.trans first.hash_eq

theorem SetsCourse.hash_eq {tasks : List TaskDefinition} {sets : List (ParameterSet × Nat)}
    {l l' : Ledger} {deeds : List Deed} {r : Except RunError Unit}
    (h : c.SetsCourse kept space tasks sets l deeds r l') : l'.hash = l.hash := by
  induction h with
  | nil => rfl
  | skipped _ _ ih => exact ih
  | broken _ first => exact first.hash_eq
  | stopped _ _ first => exact first.hash_eq
  | cons _ first _ ih => exact ih.trans first.hash_eq

theorem openSpace_hash (l : Ledger) (space : String) : (l.openSpace space).hash = l.hash := by
  rw [Ledger.openSpace]
  split <;> rfl

theorem clear_hash (l : Ledger) (space : String) : (l.clear space).hash = l.hash := by
  rw [Ledger.clear]
  split <;> rfl

theorem VisitCourse.hash_eq {l l' : Ledger} {deeds : List Deed} {r : Except RunError Unit}
    (h : c.VisitCourse kept space l deeds r l') : l'.hash = l.hash := by
  cases h with
  | unknownTask => exact openSpace_hash l _
  | broken _ sets => exact sets.hash_eq.trans (openSpace_hash l _)
  | completed _ sets => exact sets.hash_eq.trans (openSpace_hash l _)

theorem EntryCourse.hash_eq {goesOn : Bool} {l l' : Ledger} {deeds : List Deed}
    {r : Except RunError Unit} (h : c.EntryCourse kept space goesOn l deeds r l') :
    l'.hash = l.hash := by
  cases h with
  | skipped => rfl
  | broken _ visit => exact visit.hash_eq.trans (clear_hash l _)
  | stopped _ _ visit => exact visit.hash_eq.trans (clear_hash l _)
  | completed _ visit => exact visit.hash_eq.trans (clear_hash l _)

end Ownership

/-! ## The tasks of a space -/

/-- The definitions of the tasks of a space are found by the identities of its order. -/
theorem tasksOf_forall₂ {space : SpaceDefinition} {tasks : List TaskDefinition}
    (h : c.tasksOf space = .ok tasks) :
    List.Forall₂ (fun id t => c.artifact.task? id = some t) space.tasksOrder tasks := by
  apply (mapM_eq_ok h).imp
  intro id t found
  split at found
  · next known =>
    cases found
    exact known
  · cases found

/-- The definitions of the tasks of a space carry the identities of its order. -/
theorem tasksOf_taskIds {space : SpaceDefinition} {tasks : List TaskDefinition}
    (h : c.tasksOf space = .ok tasks) : tasks.map (·.taskId) = space.tasksOrder := by
  have all := tasksOf_forall₂ h
  generalize space.tasksOrder = ids at all
  clear h
  induction all with
  | nil => rfl
  | cons found _ ih => rw [List.map_cons, Artifact.task?_taskId found, ih]

/-- Each of the tasks of a space is the one that its identity finds. -/
theorem task?_of_mem_tasksOf {space : SpaceDefinition} {tasks : List TaskDefinition}
    (h : c.tasksOf space = .ok tasks) {t : TaskDefinition} (mem : t ∈ tasks) :
    c.artifact.task? t.taskId = some t := by
  have all := tasksOf_forall₂ h
  generalize space.tasksOrder = ids at all
  clear h
  induction all with
  | nil => cases mem
  | cons found _ ih =>
    rcases List.mem_cons.1 mem with rfl | mem
    · rw [Artifact.task?_taskId found, found]
    · exact ih mem

/-! ## The engine follows the courses -/

section Following

variable (reliable : c.host.Reliable c.runId kept)

include reliable

theorem runTask_follows {space : SpaceDefinition} {index : Nat} {set : ParameterSet}
    {t : TaskDefinition} {v : Standing} (setKnown : (v.ledger.sets (space.spaceId, index)).isSome)
    (spaceKnown : (v.ledger.spaces space.spaceId).isSome) :
    c.Follows kept (c.runTask space index set t) v
      (c.TaskCourse kept space index set t v.ledger) := by
  refine Yields.bind (yields_startTask reliable space.spaceId index t.taskId v) ?_
  refine Yields.bind (yields_mark _ .started _) ?_
  refine Yields.bind (yields_emit _ _) ?_
  refine Leads.bind (Leads.attempt (Q := fun r w => ∃ r', r = .ok r' ∧ ∃ deeds,
    c.Produces kept space index set (v.ledger.setTask space.spaceId index t.taskId .running) t
      deeds r' ∧ w = (((v.withLedger (v.ledger.setTask space.spaceId index t.taskId .running)).after
        [.marked ⟨space.spaceId, index, t.taskId⟩ .started]).after deeds))
    ((leads_outputValues reliable space index set t _).mono
      fun r w ⟨deeds, produced, same⟩ => ⟨r, rfl, deeds, produced, same⟩)) ?_ ?_
  · rintro e w ⟨r', h, -⟩
    cases h
  rintro r w ⟨r', h, deeds, produced, rfl⟩
  cases h
  cases r with
  | error e =>
    refine Yields.bind (x := ()) (w := (v.withLedger ((((v.ledger.setTask space.spaceId index
      t.taskId .running).setTask space.spaceId index t.taskId .failed).setSet space.spaceId index
      .failed).setSpace space.spaceId .failed)).after
      (.marked ⟨space.spaceId, index, t.taskId⟩ .started :: deeds)) ?_ ?_
    · refine Yields.bind (yields_setTaskStatus reliable ?_) ?_
      · simp [Ledger.setTask]
      refine Yields.bind (yields_setSetStatus reliable ?_) ?_
      · simpa [Ledger.setTask] using setKnown
      refine Leads.mono (yields_setSpaceStatus reliable ?_) ?_
      · simpa [Ledger.setTask, Ledger.setSet] using spaceKnown
      rintro r w ⟨rfl, rfl⟩
      exact ⟨rfl, by simp⟩
    · refine Yields.bind (yields_mark _ .failed _) (Leads.throw ?_)
      exact ⟨_, _, .failed produced, by simp⟩
  | ok values =>
    refine Leads.bind (leads_recordValues reliable space index t (t.outputData.zip values) _) ?_ ?_
    · rintro e w ⟨h, -⟩
      cases h
    rintro - w ⟨-, l, puts, rfl⟩
    refine Yields.bind (yields_setTaskStatus reliable ?_) ?_
    · have frame := puts.frame
      simp only [Standing.withLedger_ledger]
      rw [frame]
      simp [Ledger.setTask]
    refine Yields.bind (yields_mark _ .completed _) ?_
    refine Leads.mono (yields_emit _ _) ?_
    rintro r w ⟨rfl, rfl⟩
    exact ⟨_, _, .completed produced puts, by simp⟩

theorem runTasks_follows {space : SpaceDefinition} {index : Nat} {set : ParameterSet}
    {total done : Nat} {tasks : List TaskDefinition} {v : Standing}
    (setKnown : (v.ledger.sets (space.spaceId, index)).isSome)
    (spaceKnown : (v.ledger.spaces space.spaceId).isSome) :
    c.Follows kept (c.runTasks space index set total done tasks) v
      (c.TasksCourse kept space index set tasks v.ledger) := by
  induction tasks generalizing v done with
  | nil => exact Leads.pure ⟨[], _, .nil _, by simp⟩
  | cons t rest ih =>
    refine Leads.bind (runTask_follows reliable setKnown spaceKnown) ?_ ?_
    · rintro e w ⟨deeds, l, first, rfl⟩
      exact ⟨deeds, l, .failed first, rfl⟩
    rintro ⟨⟩ w ⟨deeds, l, first, rfl⟩
    have frame := first.frame
    refine Yields.bind (yields_emit _ _) ?_
    refine Leads.bind (leads_checkTermination reliable _) ?_ ?_
    · rintro e w (⟨h, -⟩ | ⟨restless, h, rfl⟩)
      · cases h
      · cases h
        exact ⟨deeds, _, .stopped restless first, by simp⟩
    rintro ⟨⟩ w (⟨-, rfl⟩ | ⟨-, h, -⟩)
    · refine (ih (v := (v.withLedger l).after deeds) ?_ ?_).mono ?_
      · rw [Standing.after_ledger, Standing.withLedger_ledger, frame]
        exact setKnown
      · rw [Standing.after_ledger, Standing.withLedger_ledger, frame]
        exact spaceKnown
      rintro r w ⟨deeds', l', others, rfl⟩
      exact ⟨deeds ++ deeds', l', .cons first others, by simp⟩
    · cases h

theorem runSets_follows {space : SpaceDefinition} {tasks : List TaskDefinition}
    {completed : Nat} {sets : List (ParameterSet × Nat)} {v : Standing}
    (spaceKnown : (v.ledger.spaces space.spaceId).isSome) :
    c.Follows kept (c.runSets space tasks completed sets) v
      (c.SetsCourse kept space tasks sets v.ledger) := by
  induction sets generalizing v completed with
  | nil => exact Leads.pure ⟨[], _, .nil _, by simp⟩
  | cons head rest ih =>
    obtain ⟨set, index⟩ := head
    refine Yields.bind (yields_isSetCompleted space index v) ?_
    by_cases done : v.ledger.sets (space.spaceId, index) = some .completed
    · simp only [done, decide_true, if_true]
      refine (ih spaceKnown).mono ?_
      rintro r w ⟨deeds, l, others, rfl⟩
      exact ⟨deeds, l, .skipped done others, rfl⟩
    simp only [done, decide_false, Bool.false_eq_true, if_false]
    refine Yields.bind (yields_startSet reliable space.spaceId index set v) ?_
    refine Yields.bind (yields_emit _ _) ?_
    refine Leads.bind (runTasks_follows reliable ?_ ?_) ?_ ?_
    · simp [Ledger.setSet]
    · simpa [Ledger.setSet] using spaceKnown
    · rintro e w ⟨deeds, l, first, rfl⟩
      exact ⟨deeds, l, .broken done first, by simp⟩
    rintro ⟨⟩ w ⟨deeds, l, first, rfl⟩
    have frame := first.frame
    refine Yields.bind (yields_setSetStatus reliable ?_) ?_
    · rw [Standing.after_ledger, Standing.withLedger_ledger, frame]
      simp [Ledger.setSet]
    refine Yields.bind (yields_emit _ _) (Yields.bind (yields_emit _ _) ?_)
    refine Leads.bind (leads_checkTermination reliable _) ?_ ?_
    · rintro e w (⟨h, -⟩ | ⟨restless, h, rfl⟩)
      · cases h
      · cases h
        exact ⟨deeds, _, .stopped restless done first, by simp⟩
    rintro ⟨⟩ w (⟨-, rfl⟩ | ⟨-, h, -⟩)
    · refine (ih ?_).mono ?_
      · simp only [Standing.withLedger_ledger, Standing.after_ledger]
        rw [frame]
        simpa [Ledger.setSet] using spaceKnown
      rintro r w ⟨deeds', l', others, rfl⟩
      exact ⟨deeds ++ deeds', l', .cons done first others, by simp⟩
    · cases h

theorem visit_follows (space : SpaceDefinition) (v : Standing) :
    c.Follows kept (c.visit space) v (c.VisitCourse kept space v.ledger) := by
  -- Whether the space is started or not, the rest of the visit finds it running.
  have goesOn : c.Follows kept (do
      c.emit (.spaceStarted c.runId space.spaceId)
      let tasks ← c.tasksOf space
      c.runSets space tasks 0 space.parameters.zipIdx
      c.record (c.host.backend.setSpaceStatus c.runId space.spaceId .completed)
      c.emit (.spaceCompleted c.runId space.spaceId) : Activity S Unit)
      (v.withLedger (v.ledger.openSpace space.spaceId)) fun deeds r l =>
        c.VisitCourse kept space v.ledger deeds r l := by
    have spaceKnown : ((v.ledger.openSpace space.spaceId).spaces space.spaceId).isSome := by
      rw [Ledger.openSpace]
      split
      · next running => simp [running]
      · simp [Ledger.setSpace]
    refine Yields.bind (yields_emit _ _) ?_
    cases ht : c.tasksOf space with
    | error e => exact Leads.throw ⟨[], _, .unknownTask ht, by simp⟩
    | ok tasks =>
      refine Yields.bind (x := tasks) Yields.pure ?_
      refine Leads.bind (runSets_follows reliable spaceKnown) ?_ ?_
      · rintro e w ⟨deeds, l, sets, rfl⟩
        exact ⟨deeds, l, .broken ht sets, rfl⟩
      rintro ⟨⟩ w ⟨deeds, l, sets, rfl⟩
      refine Yields.bind (yields_setSpaceStatus reliable ?_) ?_
      · rw [Standing.after_ledger, Standing.withLedger_ledger, sets.frame]
        exact spaceKnown
      refine Leads.mono (yields_emit _ _) ?_
      rintro r w ⟨rfl, rfl⟩
      exact ⟨deeds, _, .completed ht sets, by simp⟩
  apply query_bind (·.space? space.spaceId)
  intro snapshot same
  have known : v.ledger.spaces space.spaceId =
      (snapshot.space? space.spaceId).map (·.status) := by
    rw [← same]
    rfl
  by_cases running : v.ledger.spaces space.spaceId = some .running
  · have found : ((snapshot.space? space.spaceId).all fun record =>
        record.status != .running) = false := by
      rw [running] at known
      obtain ⟨record, found, status⟩ := Option.map_eq_some_iff.1 known.symm
      simp [found, status]
    simp only [found, Bool.false_eq_true, if_false]
    rw [Ledger.openSpace, if_pos running] at goesOn
    exact goesOn
  · have found : ((snapshot.space? space.spaceId).all fun record =>
        record.status != .running) = true := by
      rw [known] at running
      cases found : snapshot.space? space.spaceId with
      | none => rfl
      | some record => simpa [found] using running
    simp only [found, if_true]
    rw [Ledger.openSpace, if_neg running] at goesOn
    exact Yields.bind (yields_startSpace reliable space.spaceId v) goesOn

theorem visitOnce_follows (space : SpaceDefinition) (goesOn : Bool) (v : Standing) :
    c.Follows kept (c.visitOnce space goesOn) v (c.EntryCourse kept space goesOn v.ledger) := by
  refine Yields.bind (yields_isSpaceCompleted space.spaceId v) ?_
  have visits (fresh : goesOn = true → v.ledger.spaces space.spaceId ≠ some .completed) :
      c.Follows kept (do c.visit space; c.checkTermination : Activity S Unit)
        (v.withLedger (v.ledger.clear space.spaceId))
        (c.EntryCourse kept space goesOn v.ledger) := by
    refine Leads.bind (visit_follows reliable space _) ?_ ?_
    · rintro e w ⟨deeds, l, visit, rfl⟩
      exact ⟨deeds, l, .broken fresh visit, rfl⟩
    rintro ⟨⟩ w ⟨deeds, l, visit, rfl⟩
    refine (leads_checkTermination reliable _).mono ?_
    rintro r w (⟨rfl, rfl⟩ | ⟨restless, rfl, rfl⟩)
    · exact ⟨deeds, l, .completed fresh visit, rfl⟩
    · exact ⟨deeds, _, .stopped restless fresh visit, rfl⟩
  by_cases completed : v.ledger.spaces space.spaceId = some .completed
  · simp only [completed, decide_true, Bool.true_and, if_true]
    cases goesOn
    · refine Yields.bind (yields_resetSpace reliable space.spaceId v) ?_
      have cleared : v.ledger.clear space.spaceId = v.ledger.reset space.spaceId := by
        rw [Ledger.clear, if_pos completed]
      rw [← cleared]
      exact visits (by simp)
    · exact Leads.pure ⟨[], _, .skipped rfl completed, by simp⟩
  · simp only [completed, decide_false, Bool.false_and, Bool.false_eq_true, if_false]
    have cleared : v.ledger.clear space.spaceId = v.ledger := by
      rw [Ledger.clear, if_neg completed]
    have same := visits fun _ => completed
    rw [cleared] at same
    exact same

end Following

end Conduct

end Sweep
