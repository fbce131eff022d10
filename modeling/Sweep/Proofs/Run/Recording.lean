import Sweep.Proofs.Run.Ledger
import Sweep.Proofs.Run.Upholding

/-!
# Completed means recorded

A parameter set is recorded as completed only when there is a value for every output of every task
of its space, and each value is the one of the last task that puts out its name. The values are
written before the set is completed; what a set is completed for stays, since a set that is executed
again is not completed meanwhile, and to forget the records of a space drops its sets.
-/

namespace Sweep

variable {S : Type}

namespace Artifact

def putsOut (a : Artifact) (name id : String) : Bool :=
  (a.task? id).any fun t => t.outputData.contains name

/-- The last task in the order of a space that puts out a data name. -/
def lastProducer? (a : Artifact) (space : SpaceDefinition) (name : String) : Option String :=
  (space.tasksOrder.filter (a.putsOut name)).getLast?

end Artifact

def lastOf? (tasks : List TaskDefinition) (name : String) : Option String :=
  (tasks.filter fun t => t.outputData.contains name).getLast?.map (·.taskId)

theorem lastOf?_cons (t : TaskDefinition) (rest : List TaskDefinition) (name : String) :
    lastOf? (t :: rest) name =
      (lastOf? rest name).or (if name ∈ t.outputData then some t.taskId else none) := by
  rw [lastOf?, lastOf?]
  by_cases declared : name ∈ t.outputData
  · rw [List.filter_cons, if_pos (by simpa using declared), if_pos declared, List.getLast?_cons]
    cases (rest.filter fun t => t.outputData.contains name).getLast? <;> rfl
  · rw [List.filter_cons, if_neg (by simpa using declared), if_neg declared, Option.or_none]

theorem Conduct.lastProducer?_eq {c : Conduct S} {space : SpaceDefinition}
    {tasks : List TaskDefinition} (known : c.tasksOf space = .ok tasks) (name : String) :
    c.artifact.lastProducer? space name = lastOf? tasks name := by
  rw [Artifact.lastProducer?, lastOf?, ← tasksOf_taskIds known, List.filter_map, List.getLast?_map]
  congr 2
  refine List.filter_congr fun t mem => ?_
  simp [Artifact.putsOut, task?_of_mem_tasksOf known mem]

namespace RunSnapshot

variable {x y z : RunSnapshot} {a : Artifact} {now : Timestamp}

/-- The task that produced what is recorded under a key: none if nothing is recorded there, and some
`none` if it is recorded without a task. -/
def producer? (x : RunSnapshot) (k : String × Nat × String) : Option (Option String) :=
  (x.mapping? k.1 k.2.1 k.2.2).map (·.taskId)

theorem producer?_putMapping (m : DataMapping) (k : String × Nat × String) :
    (x.putMapping m).producer? k =
      if k = (m.spaceId, m.index, m.name) then some m.taskId else x.producer? k := by
  rw [producer?, mapping?, putMapping]
  exact (find?_replace DataMapping.isAbout_iff (·.taskId) x.mappings m k).trans
    (Function.update_apply ..)

/-- In the record of a run every completed parameter set is one of its space, and each output of the
space is recorded for it by the last task that puts it out. -/
structure Recorded (a : Artifact) (x : RunSnapshot) : Prop where
  keyed : x.Keyed
  produced : ∀ {id index}, x.ledger.sets (id, index) = some .completed → ∃ space,
    a.space? id = some space ∧ index < space.parameters.length ∧
      ∀ name task, a.lastProducer? space name = some task →
        x.producer? (id, index, name) = some (some task)

namespace Recorded

theorem of_blank {hash : String} (blank : x.ledger = .blank hash) : x.Recorded a := by
  refine ⟨keyed_of_blank blank, fun {id index} completed => ?_⟩
  rw [blank] at completed
  cases completed

/-- A change may drop completed sets, but has to keep the values of the others. -/
theorem carry (h : x.Recorded a) (keyed : y.Keyed)
    (sets : ∀ {key}, y.ledger.sets key = some .completed → x.ledger.sets key = some .completed)
    (same : ∀ {id index}, y.ledger.sets (id, index) = some .completed →
      ∀ name, y.producer? (id, index, name) = x.producer? (id, index, name)) : y.Recorded a := by
  refine ⟨keyed, fun {id index} completed => ?_⟩
  obtain ⟨space, known, inside, produced⟩ := h.produced (sets completed)
  exact ⟨space, known, inside, fun name task last => by
    rw [same completed name, produced name task last]⟩

/-- A change of neither sets nor values. -/
theorem aside (h : x.Recorded a) (keyed : y.Keyed) (sets : y.ledger.sets = x.ledger.sets)
    (mappings : y.mappings = x.mappings) : y.Recorded a :=
  h.carry keyed (fun completed => sets ▸ completed) fun _ name => by
    rw [producer?, producer?, mapping?, mapping?, mappings]

theorem touch (h : x.Recorded a) : (x.touch now).Recorded a := h.aside h.keyed.touch rfl rfl

theorem startSet (h : x.Recorded a) (space : String) (index : Nat) (parameters : ParameterSet) :
    (x.startSet now space index parameters).Recorded a := by
  refine h.carry (h.keyed.startSet space index parameters) (fun {key} completed => ?_)
    fun _ _ => rfl
  rw [ledger_startSet, Ledger.setSet_sets] at completed
  split at completed
  · cases completed
  · exact completed

theorem resetSpace (h : x.Recorded a) (space : String) : (x.resetSpace space).Recorded a := by
  refine h.carry (h.keyed.resetSpace space) (fun {key} completed => ?_) fun _ _ => rfl
  rw [ledger_resetSpace] at completed
  simp only [Ledger.reset] at completed
  split at completed
  · cases completed
  · exact completed

/-- A value may be put in a set that is not completed. -/
theorem putMapping (h : x.Recorded a) {m : DataMapping}
    (open_ : x.ledger.sets (m.spaceId, m.index) ≠ some .completed) :
    (x.putMapping m).Recorded a := by
  have sets : (x.putMapping m).ledger.sets = x.ledger.sets := rfl
  refine h.carry (h.keyed.putMapping m) (fun completed => sets ▸ completed) ?_
  intro id index completed name
  rw [producer?_putMapping, if_neg]
  rintro ⟨⟩
  exact open_ completed

end Recorded

theorem setSetStatus_eq {space : String} {index : Nat} {status : UnitStatus}
    (changed : x.setSetStatus now space index status = .ok y) :
    y.ledger.sets = Function.update x.ledger.sets (space, index) (some status) ∧
      y.mappings = x.mappings ∧ y.run = x.run := by
  obtain ⟨sets, updated, rfl⟩ := exists_of_setSetStatus changed
  exact ⟨funext <| find?_updateFirst? (k := (space, index)) (g := (·.status))
    SetRecord.isAbout_iff updated (fun _ => rfl) fun _ => rfl, rfl, rfl⟩

theorem Recorded.failSet (h : x.Recorded a) {space : String} {index : Nat}
    (changed : x.setSetStatus now space index .failed = .ok y) : y.Recorded a := by
  obtain ⟨sets, mappings, -⟩ := setSetStatus_eq changed
  refine h.carry (h.keyed.setSetStatus changed) (fun {key} completed => ?_) fun _ name => by
    rw [producer?, producer?, mapping?, mapping?, mappings]
  rw [sets, Function.update_apply] at completed
  split at completed
  · cases completed
  · exact completed

/-- A set may be completed when its outputs are recorded. -/
theorem Recorded.completeSet (h : x.Recorded a) {space : SpaceDefinition} {index : Nat}
    (known : a.space? space.spaceId = some space) (inside : index < space.parameters.length)
    (produced : ∀ name task, a.lastProducer? space name = some task →
      x.producer? (space.spaceId, index, name) = some (some task))
    (changed : x.setSetStatus now space.spaceId index .completed = .ok y) : y.Recorded a := by
  obtain ⟨sets, mappings, -⟩ := setSetStatus_eq changed
  have same (k : String × Nat × String) : y.producer? k = x.producer? k := by
    rw [producer?, producer?, mapping?, mapping?, mappings]
  refine ⟨h.keyed.setSetStatus changed, fun {id other} completed => ?_⟩
  rw [sets, Function.update_apply] at completed
  split at completed
  · next key =>
    cases key
    exact ⟨space, known, inside, fun name task last => by rw [same, produced name task last]⟩
  · obtain ⟨space', known', inside', produced'⟩ := h.produced completed
    exact ⟨space', known', inside', fun name task last => by rw [same, produced' name task last]⟩

/-! ## Filling a parameter set -/

/-- A part of a parameter set that is carried out changes no set, and of the values in the set
those that are given to a task. -/
structure Fills (space : String) (index : Nat) (producer : String → Option String)
    (x y : RunSnapshot) : Prop where
  sets : y.ledger.sets = x.ledger.sets
  produced : ∀ name, y.producer? (space, index, name) =
    ((producer name).map some).or (x.producer? (space, index, name))

namespace Fills

variable {space : String} {index : Nat} {p q : String → Option String}

theorem aside (sets : y.ledger.sets = x.ledger.sets) (mappings : y.mappings = x.mappings) :
    Fills space index (fun _ => none) x y := by
  refine ⟨sets, fun name => ?_⟩
  rw [producer?, producer?, mapping?, mapping?, mappings]
  rfl

theorem trans (first : Fills space index p x y) (second : Fills space index q y z) :
    Fills space index (fun name => (q name).or (p name)) x z := by
  refine ⟨second.sets.trans first.sets, fun name => ?_⟩
  rw [second.produced, first.produced, ← Option.or_assoc, Option.map_or]

theorem put (m : DataMapping) {task : String} (by_ : m.taskId = some task) :
    Fills m.spaceId m.index (fun name => if name = m.name then some task else none) x
      ((x.putMapping m).touch now) := by
  refine ⟨rfl, fun name => ?_⟩
  have shown : ((x.putMapping m).touch now).producer? (m.spaceId, m.index, name) = _ :=
    producer?_putMapping m (m.spaceId, m.index, name)
  rw [shown, by_]
  by_cases same : name = m.name <;> simp [same]

theorem congr (h : Fills space index p x y) (same : ∀ name, p name = q name) :
    Fills space index q x y :=
  ⟨h.sets, fun name => same name ▸ h.produced name⟩

end Fills

end RunSnapshot

namespace Conduct

open RunSnapshot

/-- Whatever an activity comes to, it writes only records that have the outputs of their completed
sets. -/
abbrev Accounts {α : Type} (c : Conduct S) (kept : S → Prop) (a : Activity S α) (x : RunSnapshot)
    (R : α → RunSnapshot → Prop) : Prop :=
  c.Upholds kept (Recorded c.artifact) (fun _ _ => True) a x R

variable {c : Conduct S} {kept : S → Prop} {x : RunSnapshot}

section Visiting

variable (reliable : c.host.Reliable c.runId kept)

include reliable

/-- A change of neither sets nor values is upheld. -/
theorem accounts_aside {operation : RepositoryM S Unit}
    (change : Timestamp → RunSnapshot → Except RecordKey RunSnapshot)
    (modifies : ∀ now s, operation now s = c.host.backend.modify c.runId change now s)
    (changes : ∀ now y, change now x = .ok y → y.run.runId = x.run.runId ∧
      (x.Keyed → y.Keyed) ∧ y.ledger.sets = x.ledger.sets ∧ y.mappings = x.mappings) :
    c.Accounts kept (c.record operation) x fun _ y =>
      y.ledger.sets = x.ledger.sets ∧ y.mappings = x.mappings :=
  upholds_record reliable change modifies (fun now y changed recorded => by
    obtain ⟨named, keyed, sets, mappings⟩ := changes now y changed
    exact ⟨named, (recorded.aside (keyed recorded.keyed) sets mappings).touch, sets, mappings⟩)
    fun _ _ _ => trivial

theorem accounts_setRunStatus (status : RunStatus) (error : Option String) :
    c.Accounts kept
      (c.record (c.host.backend.setRunStatus c.runId status error)) x fun _ _ => True := by
  refine upholds_update reliable (fun now x => x.setStatus now status error) (fun _ => rfl)
    fun now recorded => ⟨?_, trivial⟩
  exact (recorded.aside (recorded.keyed.setStatus status error) rfl rfl).touch

theorem accounts_setTaskStatus (space : String) (index : Nat) (task : String) (status : UnitStatus)
    (error : Option String) :
    c.Accounts kept
      (c.record (c.host.backend.setTaskStatus c.runId space index task status error)) x
      fun _ y => y.ledger.sets = x.ledger.sets ∧ y.mappings = x.mappings := by
  refine accounts_aside reliable _ (fun _ _ => rfl) fun now y changed => ?_
  refine ⟨?_, fun keyed => keyed.setTaskStatus changed, ?_⟩ <;>
  · rw [RunSnapshot.setTaskStatus] at changed
    split at changed <;> cases changed
    first | rfl | exact ⟨rfl, rfl⟩

theorem accounts_setSpaceStatus (space : String) (status : UnitStatus) :
    c.Accounts kept
      (c.record (c.host.backend.setSpaceStatus c.runId space status)) x
      fun _ y => y.ledger.sets = x.ledger.sets ∧ y.mappings = x.mappings := by
  refine accounts_aside reliable _ (fun _ _ => rfl) fun now y changed => ?_
  refine ⟨?_, fun keyed => keyed.setSpaceStatus changed, ?_⟩ <;>
  · rw [RunSnapshot.setSpaceStatus] at changed
    split at changed <;> cases changed
    first | rfl | exact ⟨rfl, rfl⟩

theorem accounts_checkTermination :
    c.Accounts kept c.checkTermination x fun _ y => y = x := by
  intro s
  have asked : c.checkTermination s = (if s.terminating then do
        c.record (c.host.backend.setRunStatus c.runId .terminated none)
        throw (.terminated c.runId)
      else pure () : Activity S Unit) s := rfl
  have either : c.Accounts kept (if s.terminating then do
        c.record (c.host.backend.setRunStatus c.runId .terminated none)
        throw (.terminated c.runId)
      else pure () : Activity S Unit) x fun _ y => y = x := by
    split
    · exact (accounts_setRunStatus reliable _ _).bind fun _ _ _ => Upholds.throw trivial
    · exact Upholds.pure rfl
  rw [asked]
  exact either s

/-- The values of a task fill the set that it runs in. -/
theorem accounts_recordValues (space : SpaceDefinition) (index : Nat) (t : TaskDefinition)
    (outputs : List (String × String))
    (open_ : x.ledger.sets (space.spaceId, index) ≠ some .completed) :
    c.Accounts kept (c.recordValues space index t outputs) x fun _ y =>
      Fills space.spaceId index
        (fun name => if name ∈ outputs.map (·.1) then some t.taskId else none) x y := by
  induction outputs generalizing x with
  | nil => exact Upholds.pure ((Fills.aside rfl rfl).congr fun _ => by simp)
  | cons output rest ih =>
    obtain ⟨name, value⟩ := output
    let mapping (now : Timestamp) : DataMapping :=
      { spaceId := space.spaceId, index, name, value, taskId := some t.taskId, recordedAt := now }
    have puts : c.Accounts kept
        (c.record fun now => c.host.backend.putMapping c.runId (mapping now) now) x fun _ y =>
          Fills space.spaceId index (fun n => if n = name then some t.taskId else none) x y := by
      refine upholds_record reliable (fun now x => .ok (x.putMapping (mapping now)))
        (fun _ _ => rfl) ?_ nofun
      rintro now _ ⟨⟩ recorded
      exact ⟨rfl, (recorded.putMapping open_).touch, Fills.put (mapping now) rfl⟩
    refine puts.bind fun _ y filled => ?_
    refine (ih (by rw [filled.sets]; exact open_)).mono fun _ z filled' => ?_
    refine (filled.trans filled').congr fun n => ?_
    rw [List.map_cons]
    by_cases later : n ∈ rest.map (·.1)
    · rw [if_pos later, if_pos (List.mem_cons_of_mem name later), Option.some_or]
    · rw [if_neg later, Option.none_or]
      simp only [List.mem_cons, later, or_false]

/-- A failure is recorded at all levels, and none of it completes anything. -/
theorem accounts_recordFailure (space : SpaceDefinition) (index : Nat) (t : TaskDefinition)
    (e : RunError) :
    c.Accounts kept (c.recordFailure space index t e) x fun _ _ => True := by
  refine (accounts_setTaskStatus reliable _ _ _ _ _).bind fun _ _ _ => ?_
  refine (upholds_record (R := fun _ _ => True) reliable _ (fun _ _ => rfl)
    (fun now w changed recorded => ?_) fun _ _ _ => trivial).bind fun _ _ _ => ?_
  · exact ⟨by rw [(setSetStatus_eq changed).2.2], (recorded.failSet changed).touch, trivial⟩
  · exact (accounts_setSpaceStatus reliable _ _).mono fun _ _ _ => trivial

/-- A task that is completed fills its set with all that it puts out. -/
theorem accounts_runTask (space : SpaceDefinition) (index : Nat) (set : ParameterSet)
    (t : TaskDefinition) (open_ : x.ledger.sets (space.spaceId, index) ≠ some .completed) :
    c.Accounts kept (c.runTask space index set t) x fun _ y =>
      Fills space.spaceId index (fun name => if name ∈ t.outputData then some t.taskId else none)
        x y := by
  rw [runTask]
  have starts : c.Accounts kept
      (c.record (c.host.backend.startTask c.runId space.spaceId index t.taskId)) x fun _ y =>
        y.ledger.sets = x.ledger.sets ∧ y.mappings = x.mappings := by
    refine accounts_aside reliable
      (fun now x => .ok (x.startTask now space.spaceId index t.taskId)) (fun _ _ => rfl) ?_
    rintro now _ ⟨⟩
    exact ⟨rfl, fun keyed => keyed.startTask _ _ _, rfl, rfl⟩
  refine starts.bind ?_
  rintro _ y ⟨sets, mappings⟩
  refine Upholds.bind (Upholds.mark _ _) ?_
  rintro _ _ rfl
  refine Upholds.bind (Upholds.emit _) ?_
  rintro _ _ rfl
  refine Upholds.bind (Upholds.attempt (F := fun _ _ => True)
    (upholds_outputValues reliable space index set t fun _ _ => trivial)) ?_
  rintro (e | values) z ⟨produced, -⟩
  · refine (accounts_recordFailure reliable space index t e).bind fun _ _ _ => ?_
    exact Upholds.bind (Upholds.mark _ _) fun _ _ _ => Upholds.throw trivial
  · obtain ⟨length, rfl⟩ := produced values rfl
    have named : (t.outputData.zip values).map (·.1) = t.outputData :=
      List.map_fst_zip (Nat.le_of_eq length.symm)
    refine (accounts_recordValues reliable space index t (t.outputData.zip values)
      (by rw [sets]; exact open_)).bind fun _ w filled => ?_
    rw [named] at filled
    refine (accounts_setTaskStatus reliable _ _ _ _ _).bind ?_
    rintro _ w' ⟨sets', mappings'⟩
    refine Upholds.bind (Upholds.mark _ _) ?_
    rintro _ _ rfl
    refine (Upholds.emit _).mono ?_
    rintro _ _ rfl
    exact (((Fills.aside sets mappings).trans filled).trans (Fills.aside sets' mappings')).congr
      fun name => by simp

/-- The tasks that are carried out fill their set, each name by the last that puts it out. -/
theorem accounts_runTasks (space : SpaceDefinition) (index : Nat) (set : ParameterSet)
    (total done : Nat) (tasks : List TaskDefinition)
    (open_ : x.ledger.sets (space.spaceId, index) ≠ some .completed) :
    c.Accounts kept (c.runTasks space index set total done tasks) x
      fun _ y => Fills space.spaceId index (lastOf? tasks) x y := by
  induction tasks generalizing x done with
  | nil => exact Upholds.pure (Fills.aside rfl rfl)
  | cons t rest ih =>
    refine (accounts_runTask reliable space index set t open_).bind fun _ y filled => ?_
    refine Upholds.bind (Upholds.emit _) ?_
    rintro _ _ rfl
    refine (accounts_checkTermination reliable).bind ?_
    rintro _ _ rfl
    refine (ih (done + 1) (by rw [filled.sets]; exact open_)).mono fun _ z filled' => ?_
    exact (filled.trans filled').congr fun name => (lastOf?_cons t rest name).symm

/-- The parameter sets that are gone through are completed with their outputs recorded. -/
theorem accounts_runSets {space : SpaceDefinition}
    (found : c.artifact.space? space.spaceId = some space) {tasks : List TaskDefinition}
    (known : c.tasksOf space = .ok tasks) (completed : Nat) (sets : List (ParameterSet × Nat))
    (inside : ∀ p ∈ sets, p.2 < space.parameters.length) :
    c.Accounts kept (c.runSets space tasks completed sets) x
      fun _ _ => True := by
  induction sets generalizing x completed with
  | nil => exact Upholds.pure trivial
  | cons first rest ih =>
    obtain ⟨set, index⟩ := first
    have later (completed : Nat) (y : RunSnapshot) := ih (x := y) completed fun p mem =>
      inside p (List.mem_cons_of_mem _ mem)
    rw [runSets]
    refine Upholds.bind (Upholds.of_reads (reads_isSetCompleted space index) fun _ _ => trivial) ?_
    rintro (_ | _) y ⟨-, rfl⟩
    · simp only [Bool.false_eq_true, if_false]
      have starts : c.Accounts kept
          (c.record (c.host.backend.startSet c.runId space.spaceId index set)) y fun _ z =>
            z.ledger.sets (space.spaceId, index) ≠ some .completed := by
        refine upholds_update reliable (fun now x => x.startSet now space.spaceId index set)
          (fun _ => rfl) fun now recorded => ⟨(recorded.startSet _ _ _).touch, ?_⟩
        rw [ledger_touch, ledger_startSet, Ledger.setSet_sets, if_pos rfl]
        nofun
      refine starts.bind fun _ z open_ => ?_
      refine Upholds.bind (Upholds.emit _) ?_
      rintro _ _ rfl
      refine (accounts_runTasks reliable space index set _ _ tasks open_).bind fun _ z filled => ?_
      refine (upholds_record (R := fun _ _ => True) reliable _ (fun _ _ => rfl)
        (fun now w changed recorded => ⟨by rw [(setSetStatus_eq changed).2.2], ?_, trivial⟩)
        fun _ _ _ => trivial).bind fun _ w _ => ?_
      · refine (recorded.completeSet found (inside _ List.mem_cons_self) ?_ changed).touch
        intro name task last
        rw [filled.produced, ← lastProducer?_eq known, last]
        rfl
      refine Upholds.bind (Upholds.emit _) fun _ _ _ => ?_
      refine Upholds.bind (Upholds.emit _) fun _ _ _ => ?_
      exact (accounts_checkTermination reliable).bind fun _ _ _ => later _ _
    · simp only [if_true]
      exact later _ _

/-- A visit completes its sets with their outputs recorded. -/
theorem accounts_visit {space : SpaceDefinition}
    (found : c.artifact.space? space.spaceId = some space) :
    c.Accounts kept (c.visit space) x fun _ _ => True := by
  have starts (y : RunSnapshot) : c.Accounts kept
      (c.record (c.host.backend.startSpace c.runId space.spaceId)) y fun _ _ => True := by
    refine upholds_update reliable (fun now x => x.startSpace now space.spaceId) (fun _ => rfl)
      fun now recorded => ⟨?_, trivial⟩
    exact (recorded.aside (recorded.keyed.startSpace _) rfl rfl).touch
  have goesOn (y : RunSnapshot) : c.Accounts kept (do
      c.emit (.spaceStarted c.runId space.spaceId)
      let tasks ← c.tasksOf space
      c.runSets space tasks 0 space.parameters.zipIdx
      c.record (c.host.backend.setSpaceStatus c.runId space.spaceId .completed)
      c.emit (.spaceCompleted c.runId space.spaceId)) y fun _ _ => True := by
    refine Upholds.bind (Upholds.emit _) fun _ z _ => ?_
    cases known : c.tasksOf space with
    | error e => exact Upholds.throw trivial
    | ok tasks =>
      refine Upholds.bind (R := fun found _ => found = tasks) (Upholds.pure rfl) ?_
      rintro _ w rfl
      refine (accounts_runSets reliable found known 0 _ fun p mem => ?_).bind fun _ _ _ => ?_
      · simpa using List.snd_lt_of_mem_zipIdx mem
      refine (accounts_setSpaceStatus reliable _ _).bind fun _ _ _ => ?_
      exact (Upholds.emit _).mono fun _ _ _ => trivial
  rw [visit]
  refine Upholds.bind
    (Upholds.of_reads (reads_query (·.space? space.spaceId)) fun _ _ => trivial) ?_
  rintro record _ ⟨-, rfl⟩
  simp only
  split
  · exact (starts _).bind fun _ _ _ => goesOn _
  · exact goesOn _

theorem accounts_visitOnce {space : SpaceDefinition}
    (found : c.artifact.space? space.spaceId = some space) (goesOn : Bool) :
    c.Accounts kept (c.visitOnce space goesOn) x fun _ _ => True := by
  have visits (y : RunSnapshot) : c.Accounts kept (do
      c.visit space
      c.checkTermination) y fun _ _ => True :=
    (accounts_visit reliable found).bind fun _ _ _ =>
      (accounts_checkTermination reliable).mono fun _ _ _ => trivial
  rw [visitOnce]
  refine Upholds.bind
    (Upholds.of_reads (reads_isSpaceCompleted space.spaceId) fun _ _ => trivial) ?_
  rintro completed y ⟨-, rfl⟩
  simp only
  split
  · exact Upholds.pure trivial
  · split
    · have resets : c.Accounts kept
          (c.record (c.host.backend.resetSpace c.runId space.spaceId)) y fun _ _ => True :=
        upholds_update reliable (fun _ x => x.resetSpace space.spaceId) (fun _ => rfl)
          fun _ recorded => ⟨(recorded.resetSpace _).touch, trivial⟩
      exact resets.bind fun _ _ _ => visits _
    · exact visits _

theorem accounts_traverse (visits : Nat) (current : String) (goesOn : Bool) :
    c.Accounts kept (c.traverse visits current goesOn) x
      fun _ _ => True := by
  have enters (space : String) (y : RunSnapshot) : c.Accounts kept
      (c.record (c.host.backend.enter c.runId space)) y fun _ _ => True := by
    refine upholds_update reliable (fun now x => x.enter now space) (fun _ => rfl)
      fun now recorded => ⟨?_, trivial⟩
    exact (recorded.aside (recorded.keyed.enter space) rfl rfl).touch
  induction visits generalizing x current goesOn with
  | zero =>
    rw [traverse]
    split
    · exact (enters _ _).bind fun _ _ _ => Upholds.pure trivial
    · exact Upholds.pure trivial
  | succ visits ih =>
    rw [traverse]
    split
    · exact (enters _ _).bind fun _ _ _ => Upholds.pure trivial
    · cases found : c.artifact.space? current with
      | none => exact Upholds.throw trivial
      | some space =>
        have own : space.spaceId = current := Artifact.space?_spaceId found
        refine (enters _ _).bind fun _ _ _ => ?_
        refine (accounts_visitOnce reliable (own ▸ found) goesOn).bind fun _ _ _ => ?_
        exact (upholds_next current fun _ _ _ => trivial).bind fun _ _ _ => ih _ _

/-- Whatever a run that is carried out writes completes sets only with their outputs recorded. -/
theorem accounts_drive (visits : Nat) (resumed : Bool) :
    c.Accounts kept (c.drive visits resumed) x fun _ _ => True := by
  have way (y : RunSnapshot) : c.Accounts kept (do
      c.traverse visits (← c.firstSpace resumed) resumed : Activity S Bool) y fun _ _ => True :=
    (Upholds.of_reads (reads_firstSpace resumed) fun _ _ => trivial).bind fun _ _ _ =>
      accounts_traverse reliable visits _ resumed
  have concludes (r : Except RunError Bool) (y : RunSnapshot) :
      c.Accounts kept (c.conclude resumed r) y fun _ _ => True := by
    rcases r with e | _ | _ <;> rw [conclude.eq_def]
    · simp only
      split
      · exact (accounts_setRunStatus reliable _ _).bind fun _ _ _ =>
          (Upholds.emit _).bind fun _ _ _ => Upholds.throw trivial
      · exact Upholds.throw trivial
    · exact Upholds.pure trivial
    · refine (accounts_setRunStatus reliable _ _).bind fun _ _ _ => ?_
      have moves (z : RunSnapshot) : c.Accounts kept
          (c.record (c.host.backend.setRunPosition c.runId none none none)) z fun _ _ => True := by
        refine upholds_update reliable (fun _ x => x.setPosition none none none) (fun _ => rfl)
          fun now recorded => ⟨?_, trivial⟩
        exact (recorded.aside (recorded.keyed.setPosition none none none) rfl rfl).touch
      refine (moves _).bind fun _ _ _ => ?_
      exact (Upholds.of_reads (reads_summary resumed true) fun _ _ => trivial).bind
        fun _ _ _ => Upholds.pure trivial
  exact (accounts_setRunStatus reliable _ _).bind fun _ _ _ =>
    (Upholds.attempt (way _)).bind fun _ _ _ => concludes _ _

/-- So does whatever a call writes. -/
theorem recorded_of_wrote (valid : c.artifact.validate = .ok ()) (request : Request) (visits : Nat)
    {s : Session S} {found : Option RunSnapshot} (finds : c.Finds kept s found)
    (recorded : ∀ y, found = some y → y.Recorded c.artifact) {store : S}
    (wrote : .wrote store ∈ momentsIn (c.callLog request visits s)) :
    ∃ z, c.subject.recordIn store = some z ∧ z.Recorded c.artifact := by
  by_cases rests : request.Rests c.artifact found
  · rw [(call_rests valid visits finds rests).1] at wrote
    cases wrote
  · obtain ⟨first, y, s', opening, -, -, sees, -, log⟩ :=
      call_drives reliable request visits finds rests
    obtain ⟨⟨_, tours⟩, -⟩ := drive_tours reliable valid visits found.isSome sees opening.nowhere
    rw [log, momentsIn_append, List.mem_append] at wrote
    have opened : y.Recorded c.artifact ∧ ∀ store, .wrote store ∈ momentsIn first →
        c.subject.recordIn store = some y := by
      cases opening with
      | recorded => exact ⟨recorded y rfl, nofun⟩
      | registered found blank =>
        refine ⟨.of_blank blank, fun store mem => ?_⟩
        cases List.mem_singleton.1 mem
        exact found
    rcases wrote with early | late
    · exact ⟨y, opened.2 store early, opened.1⟩
    · obtain ⟨ms, _, grown, -, all, -⟩ :=
        accounts_drive reliable visits found.isSome s' sees opened.1
      have same : ms = momentsIn (c.driveLog visits found.isSome s') :=
        List.reverse_injective (List.append_cancel_right (grown.symm.trans tours.history))
      exact all store (same ▸ late)

end Visiting

end Conduct

/-! ## Over a journey -/

/-- The record that is left after a log is the one before it, or one that was written. -/
theorem Subject.of_recordAfter {u : Subject S} {P : RunSnapshot → Prop} {x : Option RunSnapshot}
    {log : List (LogItem S)} (before : ∀ y, x = some y → P y)
    (written : ∀ store, .wrote store ∈ momentsIn log → ∃ z, u.recordIn store = some z ∧ P z) :
    ∀ y, u.recordAfter x log = some y → P y := by
  rw [recordAfter]
  generalize momentsIn log = ms at written
  induction ms generalizing x with
  | nil => exact before
  | cons m rest ih =>
    rw [List.foldl_cons]
    refine ih ?_ fun store mem => written store (List.mem_cons_of_mem m mem)
    cases m with
    | wrote store =>
      obtain ⟨z, found, p⟩ := written store List.mem_cons_self
      intro y same
      cases found.symm.trans same
      exact p
    | _ => exact before

/-- At every moment of a journey what is recorded as completed has its outputs recorded. -/
theorem Journey.recorded {u : Subject S} {kept : S → Prop} (valid : u.artifact.validate = .ok ())
    {log : List (LogItem S)} {x : Option RunSnapshot} (h : Journey u kept log x) :
    ∀ y, x = some y → y.Recorded u.artifact := by
  induction h with
  | start => rintro y ⟨⟩
  | @call log x c request visits s count _ same reliable finds ih =>
    subst same
    have written (store : S)
        (wrote : .wrote store ∈ momentsIn ((c.callLog request visits s).take count)) :
        ∃ z, c.subject.recordIn store = some z ∧ z.Recorded c.artifact := by
      have among : Moment.wrote store ∈ momentsIn (c.callLog request visits s) :=
        ((List.take_sublist count _).filterMap LogItem.moment?).mem wrote
      exact Conduct.recorded_of_wrote reliable valid request visits finds ih among
    exact Subject.of_recordAfter ih written

end Sweep
