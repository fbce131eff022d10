import Sweep.Proofs.Compile.InitialInputs

/-!
# What the check of the data reports

The check of the flow of data reports each violation once and nothing else. The tasks of a space are
gone through in their order, and what a task puts out is available to the tasks behind it, also if
an input of the task itself was not. So the report of a space can be read off the positions of its
tasks: an input is missing at a position if it is neither declared nor put out before that position.
Behind the missing inputs of all spaces follow, space by space and sorted, the initial inputs that
have no value.
-/

namespace Sweep

namespace SpacePlan

/-- An input is available to the task at a position of a plan: it is declared, or a task before that
position puts it out. -/
def Available (p : SpacePlan) (experimentData : List DataSlot) (position : Nat)
    (input : String) : Prop :=
  (∃ slot ∈ experimentData ++ p.workflowData ++ p.spaceData, slot.name = input) ∨
    ∃ u ∈ p.tasks.take position, input ∈ u.outputs

instance (p : SpacePlan) (experimentData : List DataSlot) (position : Nat) (input : String) :
    Decidable (p.Available experimentData position input) :=
  inferInstanceAs (Decidable (_ ∨ _))

/-- Some data slot gives a value to a name. -/
def IsValued (data : List DataSlot) (name : String) : Prop :=
  ∃ slot ∈ data, slot.name = name ∧ slot.value.isSome

instance (data : List DataSlot) (name : String) : Decidable (IsValued data name) :=
  inferInstanceAs (Decidable (∃ slot ∈ data, _))

/-- The violations among the inputs of a plan: each occurrence of an input that is not available,
task by task and in the order in which a task lists its inputs. -/
def unavailable (p : SpacePlan) (experimentData : List DataSlot) : List CompileError :=
  p.tasks.zipIdx.flatMap fun (t, position) =>
    (t.inputs.filter fun input => ¬p.Available experimentData position input).map
      (.missingInput p.name t.id)

/-- The violations among some initial inputs: those without a value, plan by plan. -/
def unvalued (plans : List SpacePlan) (experimentData : List DataSlot) (initial : List String) :
    List CompileError :=
  plans.flatMap fun p =>
    (initial.filter fun name => ¬(IsValued p.spaceData name ∨ IsValued experimentData name)).map
      (.unsatisfiedInitialInput p.name)

/-! ## Positions in place of an accumulator -/

/-- The names that were gathered up to a task are those available at the start and those that the
tasks before it put out. -/
theorem missingInputs_eq (space : String) (available : List String) (tasks : List ResolvedTask) :
    missingInputs space available tasks = tasks.zipIdx.flatMap fun (t, position) =>
      (t.inputs.filter fun input =>
        ¬(input ∈ available ∨ ∃ u ∈ tasks.take position, input ∈ u.outputs)).map
          (.missingInput space t.id) := by
  induction tasks generalizing available with
  | nil => rfl
  | cons t rest ih =>
    rw [missingInputs, ih, List.zipIdx_cons', List.flatMap_cons, List.flatMap_map]
    congr 1
    · simp
    · refine List.flatMap_congr fun x _ => ?_
      -- What the first task puts out counts as put out before each later position.
      simp only [Prod.map, id_eq, List.take_succ_cons, List.mem_append, List.mem_cons,
        exists_eq_or_imp, or_assoc]

theorem dataErrors_eq (p : SpacePlan) (experimentData : List DataSlot) :
    p.dataErrors experimentData = p.unavailable experimentData := by
  rw [dataErrors, missingInputs_eq, unavailable]
  simp only [Available, declaredData, List.mem_map]
  congr!

theorem hasValue_iff {data : List DataSlot} {name : String} :
    hasValue data name = true ↔ IsValued data name := by
  simp [hasValue, IsValued]

theorem initialInputErrors_eq (plans : List SpacePlan) (experimentData : List DataSlot) :
    initialInputErrors plans experimentData =
      unvalued plans experimentData (initialInputs plans) := by
  simp only [initialInputErrors, unvalued, ← hasValue_iff, not_or, Bool.decide_and,
    Bool.not_eq_true, Bool.decide_eq_false]

/-! ## Nothing to report -/

theorem unavailable_eq_nil_iff {p : SpacePlan} {experimentData : List DataSlot} :
    p.unavailable experimentData = [] ↔ ∀ position t, p.tasks[position]? = some t →
      ∀ input ∈ t.inputs, p.Available experimentData position input := by
  simp only [unavailable, List.flatMap_eq_nil_iff, List.map_eq_nil_iff, List.filter_eq_nil_iff,
    Prod.forall, List.mk_mem_zipIdx_iff_getElem?, decide_eq_true_eq, not_not]
  exact forall_comm

theorem unvalued_eq_nil_iff {plans : List SpacePlan} {experimentData : List DataSlot}
    {initial : List String} :
    unvalued plans experimentData initial = [] ↔ ∀ name ∈ initial, ∀ p ∈ plans,
      IsValued p.spaceData name ∨ IsValued experimentData name := by
  simp only [unvalued, List.flatMap_eq_nil_iff, List.map_eq_nil_iff, List.filter_eq_nil_iff,
    decide_eq_true_eq, not_not]
  exact ⟨fun fine name mem p plan => fine p plan name mem,
    fun fine p plan name mem => fine name mem p plan⟩

end SpacePlan

namespace CompileFailure

theorem errors_of_check {errors : List CompileError} {failure : CompileFailure}
    (failed : check errors = .error failure) : failure.errors = errors := by
  cases errors with
  | nil => cases failed
  | cons first rest =>
    cases failed
    rfl

end CompileFailure

namespace Compile

open SpacePlan

/-- The check of the data succeeds exactly if every input is available to its task and every initial
input has a value in every space. If it fails, it reports all violations, each once, and nothing
else. -/
theorem checkData_reports (plans : List SpacePlan) (experimentData : List DataSlot) :
    (checkData plans experimentData = .ok () ↔
      (∀ p ∈ plans, ∀ position t, p.tasks[position]? = some t →
        ∀ input ∈ t.inputs, p.Available experimentData position input) ∧
      ∀ name, IsInitial plans name →
        ∀ p ∈ plans, IsValued p.spaceData name ∨ IsValued experimentData name) ∧
    ∀ failure, checkData plans experimentData = .error failure →
      ∃ initial : List String, initial.Pairwise (· < ·) ∧
        (∀ name, name ∈ initial ↔ IsInitial plans name) ∧
        failure.errors = plans.flatMap (·.unavailable experimentData) ++
          unvalued plans experimentData initial := by
  have report : checkData plans experimentData = CompileFailure.check
      (plans.flatMap (·.unavailable experimentData) ++
        unvalued plans experimentData (initialInputs plans)) := by
    simp only [checkData, dataErrors_eq, initialInputErrors_eq]
  constructor
  · rw [report, CompileFailure.check_eq_ok_iff, List.append_eq_nil_iff, List.flatMap_eq_nil_iff,
      unvalued_eq_nil_iff]
    simp only [unavailable_eq_nil_iff, isInitial_iff]
  · intro failure failed
    rw [report] at failed
    exact ⟨initialInputs plans, pairwise_sortDistinct _, fun _ => isInitial_iff.symm,
      CompileFailure.errors_of_check failed⟩

/-- Two tasks of a space of which the first lists an input twice that nothing puts out, and the
second needs what the first puts out and what only the other space does. -/
def starved : List SpacePlan :=
  [{ name := "A", workflow := "W", workflowData := [], spaceData := [], parameterSets := []
     tasks := [passing "make" ["x", "x"] ["y"], passing "use" ["y", "z"] []] },
   { name := "B", workflow := "W", workflowData := [], spaceData := [⟨"w", some "1"⟩]
     parameterSets := [], tasks := [passing "late" ["w"] ["z"]] }]
where
  /-- A task with the given inputs and outputs. -/
  passing (name : String) (inputs outputs : List String) : ResolvedTask :=
    { id := "W:" ++ name, name, workflow := "W", declaredIn := "W", depth := 0, space := ""
      implementation := "./t.sh", dynamicParameters := [], staticParameters := .empty
      inputs, outputs }

/-- The input that occurs twice is missing twice, the output of the task that lacks it counts, and
the initial inputs follow space by space. -/
theorem checkData_reports_starved :
    checkData starved [⟨"w", none⟩] =
      .error ⟨.missingInput "A" "W:make" "x",
        [.missingInput "A" "W:make" "x", .missingInput "A" "W:use" "z",
         .unsatisfiedInitialInput "A" "w", .unsatisfiedInitialInput "A" "x",
         .unsatisfiedInitialInput "B" "x"]⟩ ∧
    ∃ initial : List String, initial.Pairwise (· < ·) ∧
      (∀ name, name ∈ initial ↔ IsInitial starved name) ∧ initial ≠ [] ∧
      ∃ failure, checkData starved [⟨"w", none⟩] = .error failure ∧
        failure.errors = starved.flatMap (·.unavailable [⟨"w", none⟩]) ++
          unvalued starved [⟨"w", none⟩] initial := by
  have failed : checkData starved [⟨"w", none⟩] = .error ⟨_, _⟩ := rfl
  obtain ⟨initial, sorted, exact, report⟩ := (checkData_reports starved _).2 _ failed
  refine ⟨rfl, initial, sorted, exact, ?_, _, failed, report⟩
  rintro rfl
  exact absurd ((exact "x").2 (isInitial_iff.2 (by decide +kernel))) List.not_mem_nil

end Compile

end Sweep
