import Mathlib.Data.List.Basic
import Sweep.Proofs.Run.NestedLoops

/-!
# What the engine may do at a moment

Whatever the engine does while it visits a space is one of a few moves, and for each move there is
something that it may rely on: a parameter set is only recorded as completed right after all of its
tasks were carried out, a space only when all of its sets are completed, an event is only told when
the record bears it out. A step is a moment of a session together with what it relies on.

Between two sights of a session there is a trail of steps. A trail leads through a labelled
relation, from one state to another by the steps whose labels it lists, and what every step
preserves is preserved along a trail, also where it is cut short.

Nothing is assumed here of the record that a session begins with. So what follows from the steps
alone holds from whatever record a run goes on.
-/

namespace Sweep

/-! ## Trails -/

variable {σ τ ι κ : Type}

/-- Steps of a labelled relation, one after the other. -/
inductive Trail (R : σ → ι → σ → Prop) : σ → List ι → σ → Prop
  | nil (a : σ) : Trail R a [] a
  | cons {a b c : σ} {i : ι} {is : List ι} : R a i b → Trail R b is c → Trail R a (i :: is) c

namespace Trail

variable {R : σ → ι → σ → Prop} {a b c : σ} {is js : List ι}

theorem single {i : ι} (step : R a i b) : Trail R a [i] b := .cons step (.nil b)

theorem append (first : Trail R a is b) (second : Trail R b js c) : Trail R a (is ++ js) c := by
  induction first with
  | nil => exact second
  | cons step _ ih => exact .cons step (ih second)

/-- A trail may be left and taken up again at any place. -/
theorem split (h : Trail R a (is ++ js) b) : ∃ m, Trail R a is m ∧ Trail R m js b := by
  induction is generalizing a with
  | nil => exact ⟨a, .nil a, h⟩
  | cons i rest ih =>
    cases h with
    | cons step later =>
      obtain ⟨m, first, second⟩ := ih later
      exact ⟨m, .cons step first, second⟩

/-- At any place of a trail there is a step. -/
theorem step_at {i : ι} (h : Trail R a (is ++ i :: js) b) :
    ∃ m n, Trail R a is m ∧ R m i n := by
  obtain ⟨m, first, later⟩ := h.split
  cases later with
  | cons step _ => exact ⟨m, _, first, step⟩

/-- A trail that is cut short is a trail. -/
theorem take (h : Trail R a is b) (count : Nat) : ∃ m, Trail R a (is.take count) m := by
  induction h generalizing count with
  | nil a => exact ⟨a, by simpa using Trail.nil a⟩
  | @cons a _ _ _ _ step _ ih =>
    cases count with
    | zero => exact ⟨a, .nil a⟩
    | succ count =>
      obtain ⟨m, rest⟩ := ih count
      exact ⟨m, .cons step rest⟩

/-- What holds of the labels so far and the state holds on, if every step preserves it. -/
theorem preserves {P : List ι → σ → Prop} (h : Trail R a is b)
    (step : ∀ log a i b, P log a → R a i b → P (log ++ [i]) b) {log : List ι} (start : P log a) :
    P (log ++ is) b := by
  induction h generalizing log with
  | nil => simpa using start
  | cons first _ ih =>
    have later := ih (step _ _ _ _ start first)
    rwa [List.append_assoc] at later

/-- An invariant of the states alone. -/
theorem invariant {P : σ → Prop} (h : Trail R a is b) (step : ∀ a i b, P a → R a i b → P b)
    (start : P a) : P b := by
  induction h with
  | nil => exact start
  | cons first _ ih => exact ih (step _ _ _ start first)

/-- Every label of a trail is the label of a step, from a state that has what every step
preserves. -/
theorem exists_step_from {P : σ → Prop} (h : Trail R a is b)
    (step : ∀ a i b, P a → R a i b → P b) (start : P a) {i : ι} (mem : i ∈ is) :
    ∃ x y, P x ∧ R x i y := by
  induction h with
  | nil => cases mem
  | cons first _ ih =>
    rcases List.mem_cons.1 mem with rfl | later
    · exact ⟨_, _, start, first⟩
    · exact ih (step _ _ _ start first) later

theorem exists_step (h : Trail R a is b) {i : ι} (mem : i ∈ is) : ∃ x y, R x i y := by
  obtain ⟨x, y, -, step⟩ :=
    h.exists_step_from (P := fun _ => True) (fun _ _ _ _ _ => trivial) trivial mem
  exact ⟨x, y, step⟩

/-- A trail that stays where it is. -/
theorem loop (step : ∀ i ∈ is, R a i a) : Trail R a is a := by
  induction is with
  | nil => exact .nil a
  | cons i rest ih =>
    exact .cons (step i List.mem_cons_self) (ih fun j mem => step j (List.mem_cons_of_mem _ mem))

/-- A map of states and labels that keeps the steps keeps the trails. -/
theorem map {Q : τ → κ → τ → Prop} {f : σ → τ} {g : ι → κ} (h : Trail R a is b)
    (step : ∀ a i b, R a i b → Q (f a) (g i) (f b)) : Trail Q (f a) (is.map g) (f b) := by
  induction h with
  | nil => exact .nil _
  | cons first _ ih => exact .cons (step _ _ _ first) ih

end Trail

/-! ## The steps of a session -/

variable {S α β : Type}

/-- What stays the same from call to call of a run. -/
structure Subject (S : Type) where
  backend : Backend S
  artifact : Artifact
  runId : String

def Conduct.subject (c : Conduct S) : Subject S := ⟨c.host.backend, c.artifact, c.runId⟩

def Subject.recordIn (u : Subject S) (store : S) : Option RunSnapshot :=
  (u.backend.load u.runId store).toOption.join

def SpaceDefinition.keys (space : SpaceDefinition) (index : Nat) : List TaskKey :=
  space.tasksOrder.map fun task => ⟨space.spaceId, index, task⟩

/-- The marks of tasks that are carried out one after the other. -/
def marksOf (keys : List TaskKey) : List (TaskKey × TaskMark) :=
  keys.flatMap fun key => [(key, .started), (key, .completed)]

/-- Whether a record shows what an event tells. -/
def RunSnapshot.BearsOut (x : RunSnapshot) (a : Artifact) : ProgressEvent → Prop
  | .spaceStarted _ space => x.ledger.spaces space = some .running
  | .spaceCompleted _ space => x.ledger.spaces space = some .completed
  | .setStarted _ space index => x.ledger.sets (space, index) = some .running
  | .setCompleted _ space index => x.ledger.sets (space, index) = some .completed
  | .taskStarted _ space index task =>
    x.ledger.tasks (space, index, task) = some .running ∧
      x.run.currentSpace = some space ∧ x.run.currentSet = some index ∧
      x.run.currentTask = some task
  | .taskCompleted _ space index task =>
    x.ledger.tasks (space, index, task) = some .completed ∧
      ∃ t, a.task? task = some t ∧
        ∀ name ∈ t.outputData, (x.ledger.values (space, index, name)).isSome
  | .inputRequired _ space _ => x.ledger.control = some space
  | .progress .. => True
  | .error _ message => x.run.status = .failed ∧ x.run.error = some message

namespace Ledger

variable (l : Ledger)

/-- The run is in a space, and the space is running. -/
def Visits (space : String) : Prop :=
  l.control = some space ∧ l.spaces space = some .running

def WorksOn (space : String) (index : Nat) : Prop :=
  l.Visits space ∧ l.sets (space, index) = some .running

variable {l} in
theorem Visits.not_completed {space : String} (h : l.Visits space) :
    l.spaces space ≠ some .completed := by
  simp [h.2]

theorem setSpace_spaces (space : String) (status : UnitStatus) (other : String) :
    (l.setSpace space status).spaces other =
      if other = space then some status else l.spaces other :=
  Function.update_apply ..

theorem put_values (space : String) (index : Nat) (name value last : String)
    (key : String × Nat × String) : (l.put space index name value last).values key =
      if key = (space, index, name) then some value else l.values key :=
  Function.update_apply ..

theorem setSet_sets (space : String) (index : Nat) (status : UnitStatus) (key : String × Nat) :
    (l.setSet space index status).sets key =
      if key = (space, index) then some status else l.sets key :=
  Function.update_apply ..

end Ledger

/-- The changes of the record within a visit and at the ends of a call, each under the condition
that the engine keeps to. The marks are those of the visit so far. -/
inductive Move (a : Artifact) (marks : List (TaskKey × TaskMark)) (l : Ledger) : Ledger → Prop
  /-- How the run stands. It is only completed at the end. -/
  | stands (status : RunStatus) : (status = .completed → l.control = some endMark) →
      Move a marks l (l.setStatus status)
  /-- The position of the run, which is no part of the ledger. -/
  | moves : Move a marks l l
  | opensSpace {space : String} : l.control = some space → l.spaces space ≠ some .completed →
      Move a marks l (l.setSpace space .running)
  | breaksSpace {space : String} : l.Visits space → Move a marks l (l.setSpace space .failed)
  | closesSpace {space : SpaceDefinition} : a.space? space.spaceId = some space →
      l.Visits space.spaceId →
      (∀ index < space.parameters.length, l.sets (space.spaceId, index) = some .completed) →
      Move a marks l (l.setSpace space.spaceId .completed)
  | opensSet {space : String} {index : Nat} : l.Visits space →
      l.sets (space, index) ≠ some .completed → Move a marks l (l.setSet space index .running)
  | breaksSet {space : String} {index : Nat} : l.WorksOn space index →
      Move a marks l (l.setSet space index .failed)
  | closesSet {space : SpaceDefinition} {index : Nat} : a.space? space.spaceId = some space →
      l.WorksOn space.spaceId index → marksOf (space.keys index) <:+ marks →
      Move a marks l (l.setSet space.spaceId index .completed)
  | setsTask {space : String} {index : Nat} (task : String) (status : UnitStatus) :
      l.WorksOn space index → Move a marks l (l.setTask space index task status)
  | puts {space : String} {index : Nat} (name value last : String) : l.WorksOn space index →
      Move a marks l (l.put space index name value last)

namespace Move

variable {a : Artifact} {marks : List (TaskKey × TaskMark)} {l l' : Ledger}

/-- Within a visit the run stays in its space. -/
theorem control_eq (h : Move a marks l l') : l'.control = l.control := by
  cases h <;> rfl

theorem hash_eq (h : Move a marks l l') : l'.hash = l.hash := by
  cases h <;> rfl

/-- What is recorded of the other spaces is left alone. -/
theorem apart (h : Move a marks l l') {space : String} (other : l.control ≠ some space) :
    l'.spaces space = l.spaces space ∧ ∀ index, l'.sets (space, index) = l.sets (space, index) := by
  have ne {s : String} (inside : l.control = some s) : space ≠ s := by
    rintro rfl
    exact other inside
  cases h with
  | stands | moves | setsTask | puts => exact ⟨rfl, fun _ => rfl⟩
  | opensSpace inside => exact ⟨Function.update_of_ne (ne inside) _ _, fun _ => rfl⟩
  | breaksSpace inside | closesSpace _ inside =>
    exact ⟨Function.update_of_ne (ne inside.1) _ _, fun _ => rfl⟩
  | opensSet inside =>
    exact ⟨rfl, fun _ => Function.update_of_ne (fun h => ne inside.1 (congrArg Prod.fst h)) _ _⟩
  | breaksSet inside | closesSet _ inside =>
    exact ⟨rfl, fun _ => Function.update_of_ne (fun h => ne inside.1.1 (congrArg Prod.fst h)) _ _⟩

/-- Completed sets stay completed. -/
theorem sets_completed (h : Move a marks l l') {key : String × Nat}
    (completed : l.sets key = some .completed) : l'.sets key = some .completed := by
  cases h with
  | stands | moves | setsTask | puts | opensSpace | breaksSpace | closesSpace => exact completed
  | opensSet _ open_ =>
    rw [Ledger.setSet_sets, if_neg (by rintro rfl; exact open_ completed), completed]
  | breaksSet inside =>
    rw [Ledger.setSet_sets, if_neg (by rintro rfl; simp [inside.2] at completed), completed]
  | closesSet => rw [Ledger.setSet_sets, completed, ite_self]

/-- A set becomes completed only after all of its tasks were carried out. -/
theorem of_sets_completed (h : Move a marks l l') {id : String} {index : Nat}
    (completed : l'.sets (id, index) = some .completed) :
    l.sets (id, index) = some .completed ∨ ∃ space, a.space? id = some space ∧
      l.control = some id ∧ marksOf (space.keys index) <:+ marks := by
  cases h with
  | stands | moves | setsTask | puts | opensSpace | breaksSpace | closesSpace =>
    exact .inl completed
  | opensSet | breaksSet =>
    rw [Ledger.setSet_sets] at completed
    split at completed
    · cases completed
    · exact .inl completed
  | closesSet known inside carriedOut =>
    rw [Ledger.setSet_sets] at completed
    split at completed
    · next same =>
      cases same
      exact .inr ⟨_, known, inside.1.1, carriedOut⟩
    · exact .inl completed

/-- A completed space stays completed. -/
theorem spaces_completed (h : Move a marks l l') {space : String}
    (completed : l.spaces space = some .completed) : l'.spaces space = some .completed := by
  cases h with
  | stands | moves | setsTask | puts | opensSet | breaksSet | closesSet => exact completed
  | opensSpace _ open_ =>
    rw [Ledger.setSpace_spaces, if_neg (by rintro rfl; exact open_ completed), completed]
  | breaksSpace inside =>
    rw [Ledger.setSpace_spaces, if_neg (by rintro rfl; simp [inside.2] at completed), completed]
  | closesSpace => rw [Ledger.setSpace_spaces, completed, ite_self]

/-- A space becomes completed only when all of its sets are. -/
theorem of_spaces_completed (h : Move a marks l l') {id : String}
    (completed : l'.spaces id = some .completed) :
    l.spaces id = some .completed ∨ ∃ space, a.space? id = some space ∧ l.control = some id ∧
      ∀ index < space.parameters.length, l'.sets (id, index) = some .completed := by
  cases h with
  | stands | moves | setsTask | puts | opensSet | breaksSet | closesSet => exact .inl completed
  | opensSpace | breaksSpace =>
    rw [Ledger.setSpace_spaces] at completed
    split at completed
    · cases completed
    · exact .inl completed
  | closesSpace known inside all =>
    rw [Ledger.setSpace_spaces] at completed
    split at completed
    · next same =>
      cases same
      exact .inr ⟨_, known, inside.1, all⟩
    · exact .inl completed

end Move

/-- What is seen of a session: the record of the run, and the marks of the visit that it is in. -/
structure Sight where
  record : RunSnapshot
  marks : List (TaskKey × TaskMark) := []

namespace Sight

variable (v : Sight)

abbrev ledger : Ledger := v.record.ledger

def withRecord (record : RunSnapshot) : Sight := { v with record }

def after (marks : List (TaskKey × TaskMark)) : Sight := { v with marks := v.marks ++ marks }

@[simp] theorem withRecord_record (x : RunSnapshot) : (v.withRecord x).record = x := rfl

@[simp] theorem withRecord_ledger (x : RunSnapshot) : (v.withRecord x).ledger = x.ledger := rfl

@[simp] theorem withRecord_marks (x : RunSnapshot) : (v.withRecord x).marks = v.marks := rfl

@[simp] theorem after_record (marks : List (TaskKey × TaskMark)) :
    (v.after marks).record = v.record := rfl

@[simp] theorem after_ledger (marks : List (TaskKey × TaskMark)) :
    (v.after marks).ledger = v.ledger := rfl

@[simp] theorem after_marks (marks : List (TaskKey × TaskMark)) :
    (v.after marks).marks = v.marks ++ marks := rfl

end Sight

/-- From one sight to the next by a moment. -/
inductive Step (u : Subject S) (v : Sight) : Moment S → Sight → Prop
  | wrote {store : S} {x : RunSnapshot} : u.recordIn store = some x →
      Move u.artifact v.marks v.ledger x.ledger → Step u v (.wrote store) (v.withRecord x)
  | told {e : ProgressEvent} {store : S} : u.recordIn store = some v.record →
      e.runId = u.runId → v.record.BearsOut u.artifact e → Step u v (.told e store) v
  | printed (text : String) : Step u v (.printed text) v
  | asked (prompt : String) : Step u v (.asked prompt) v
  | launched (command : Command) : Step u v (.launched command) v
  | marked {e : TimelineEvent} : v.ledger.control = some e.key.space →
      v.ledger.spaces e.key.space ≠ some .completed →
      Step u v (.marked e) (v.after [(e.key, e.mark)])

end Sweep
