import Sweep.Proofs.Compile.DataFlow
import Sweep.Proofs.Compile.DeclaredOrder
import Sweep.Proofs.Run.Strokes

/-!
# Initial inputs

An input that some task of an experiment consumes and none puts out has to be declared with a value,
by every space or by the experiment. The value that was given last counts, and that of the space
before that of the experiment. No task ever records a value under such a name, so this is the value
that every task of the space is given, whatever was carried out before.
-/

namespace Sweep

/-! ## Declared values -/

/-- The value that was given last for a name among some data slots. -/
def lastValue (data : List DataSlot) (name : String) : Option String :=
  ((data.filter fun slot => slot.name == name).filterMap (·.value)).getLast?

def Space.declaredValue (s : Space) (e : Experiment) (name : String) : Option String :=
  (lastValue s.data name).or (lastValue e.data name)

theorem lastValue_append (data data' : List DataSlot) (name : String) :
    lastValue (data ++ data') name = (lastValue data' name).or (lastValue data name) := by
  rw [lastValue, List.filter_append, List.filterMap_append, List.getLast?_append]
  rfl

namespace Compile

/-- A space starts with what is declared for it. -/
theorem get?_inputValues (e : Experiment) (s : Space) (name : String) :
    (inputValues e.data s.data).get? name = s.declaredValue e name := by
  rw [Space.declaredValue, ← lastValue_append, inputValues, Table.get?_ofList]
  induction e.data ++ s.data using List.reverseRecOn with
  | nil => rfl
  | append_singleton rest slot ih =>
    rw [lastValue_append, ← ih, List.filterMap_append, List.reverse_append, List.find?_append,
      Option.map_or]
    congr 1
    obtain ⟨other, value⟩ := slot
    by_cases same : other = name
    · cases value <;> simp [lastValue, same]
    · cases value <;> simp [lastValue, same]

/-! ## Names that are never put out -/

/-- A name is that of an initial input: some task consumes it, and none puts it out. -/
structure IsInitial (plans : List SpacePlan) (name : String) : Prop where
  consumed : ∃ t ∈ plans.flatMap (·.tasks), name ∈ t.inputs
  unproduced : ¬∃ t ∈ plans.flatMap (·.tasks), name ∈ t.outputs

theorem isInitial_iff {plans : List SpacePlan} {name : String} :
    IsInitial plans name ↔ name ∈ SpacePlan.initialInputs plans := by
  rw [SpacePlan.mem_initialInputs]
  constructor
  · intro initial
    exact ⟨initial.consumed, initial.unproduced⟩
  · rintro ⟨consumed, unproduced⟩
    exact ⟨consumed, unproduced⟩

/-- What a task is given for its inputs is for each initial input what is declared. -/
def GivesDeclared (e : Experiment) (plans : List SpacePlan) (s : Space) (t : TaskDefinition)
    (given : List String) : Prop :=
  List.Forall₂ (fun input value => IsInitial plans input → s.declaredValue e input = some value)
    t.inputData given

variable {e : Experiment} {workflows : List Workflow} {plans : List SpacePlan} {a : Artifact}

/-- A space of an artifact stems from one of the experiment: it starts with what is declared there,
and for every initial input something is. -/
structure StemsFrom (e : Experiment) (plans : List SpacePlan) (space : SpaceDefinition)
    (s : Space) : Prop where
  name : s.name = space.spaceId
  inputData : ∀ name, space.inputData.get? name = s.declaredValue e name
  initial : ∀ name, IsInitial plans name → ∃ value, space.inputData.get? name = some value

/-- Every space of an artifact stems from one of the experiment. -/
theorem Stages.exists_stem (h : Stages e workflows plans a) {space : SpaceDefinition}
    (mem : space ∈ a.spaces) : ∃ s ∈ e.spaces, StemsFrom e plans space s := by
  rw [h.spaces_eq] at mem
  obtain ⟨p, plan, rfl⟩ := List.mem_map.1 mem
  obtain ⟨s, among, w, made⟩ := h.exists_planOf plan
  obtain ⟨-, valued⟩ := SpacePlan.checked_of_checkData h.data
  refine ⟨s, among, made.name.symm, ?_, ?_⟩
  · intro name
    rw [spaceDefinition, made.spaceData, get?_inputValues]
  · intro name initial
    apply Option.ne_none_iff_exists'.1
    intro none
    have bound := SpacePlan.hasValue_of_checked valued plan (isInitial_iff.1 initial)
    obtain ⟨inSpace, inExperiment⟩ := get?_inputValues_eq_none.1 none
    rw [inSpace, inExperiment] at bound
    simp at bound

/-- What no task of an experiment puts out is not an output of the artifact. -/
theorem Stages.not_outputs (h : Stages e workflows plans a) {name : String}
    (initial : IsInitial plans name) : ¬a.Outputs name := by
  rintro ⟨d, defined, out⟩
  obtain ⟨t, planned, implements⟩ := h.exists_implemented defined
  rw [implements.outputData] at out
  exact initial.unproduced ⟨t, planned, out⟩

end Compile

/-! ## What a task is given -/

namespace RunSnapshot.NamesOutputs

variable {a : Artifact} {x : RunSnapshot} {space : SpaceDefinition} {index : Nat}
  {t : TaskDefinition} {name : String}

theorem values_eq_none (named : x.NamesOutputs a) (never : ¬a.Outputs name) (space : String)
    (index : Nat) : x.ledger.values (space, index, name) = none := by
  show (x.mapping? space index name).map (·.value) = none
  rw [Option.map_eq_none_iff]
  apply List.find?_eq_none.2
  intro m mem about
  have same := (DataMapping.isAbout_iff (space, index, name) m).1 about
  apply never
  cases same
  exact named m mem

/-- An input that is never put out has the value that the space starts with. -/
theorem input_eq (named : x.NamesOutputs a) (never : ¬a.Outputs name) {value : String}
    (initial : space.inputData.get? name = some value) :
    x.ledger.input space index t name = .ok value := by
  rw [Ledger.input, named.values_eq_none never, initial]

end RunSnapshot.NamesOutputs

namespace Compile

variable {e : Experiment} {workflows : List Workflow} {plans : List SpacePlan} {a : Artifact}

/-- From a record that names outputs only, every task is given what is declared. -/
theorem Stages.givesDeclared (h : Stages e workflows plans a) {s : Space} {space : SpaceDefinition}
    (stems : StemsFrom e plans space s) {x : RunSnapshot} (named : x.NamesOutputs a) {index : Nat}
    {set : ParameterSet} {t : TaskDefinition} {parameters : ParameterSet} {given : List String}
    (prepared : x.ledger.prepared space index set t = .ok (parameters, given)) :
    GivesDeclared e plans s t given := by
  obtain ⟨-, looked⟩ := Ledger.of_prepared prepared
  refine (mapM_eq_ok looked).imp ?_
  intro input value found initial
  obtain ⟨declared, starts⟩ := stems.initial input initial
  rw [named.input_eq (h.not_outputs initial) starts] at found
  cases found
  exact (stems.inputData input).symm.trans starts

/-- In a session, the tasks of a space are served with what is declared: each initial input has its
declared value, and a task that is prepared is given these values. -/
structure Serves {S : Type} (e : Experiment) (plans : List SpacePlan) (s : Space) (c : Conduct S)
    (space : SpaceDefinition) (session : Session S) : Prop where
  looked : ∀ index t name, IsInitial plans name → ∃ value, s.declaredValue e name = some value ∧
    (c.inputValue space index t name session).1 = .ok value
  prepared : ∀ index set t parameters given,
    (c.prepare space index set t session).1 = .ok (parameters, given) →
    GivesDeclared e plans s t given

theorem Stages.serves (h : Stages e workflows plans a) {S : Type} {c : Conduct S} {s : Space}
    {space : SpaceDefinition} (stems : StemsFrom e plans space s) {x : RunSnapshot}
    (named : x.NamesOutputs a) {session : Session S}
    (loads : c.host.backend.load c.runId session.store = .ok (some x)) :
    Serves e plans s c space session := by
  constructor
  · intro index t name initial
    obtain ⟨value, starts⟩ := stems.initial name initial
    obtain ⟨n, looked⟩ := Conduct.reads_inputValue space index t name session loads
    refine ⟨value, (stems.inputData name).symm.trans starts, ?_⟩
    rw [looked]
    exact named.input_eq (h.not_outputs initial) starts
  · intro index set t parameters given prepared
    have reads : c.Reads x (c.prepare space index set t) _ := Conduct.reads_prepare
    obtain ⟨n, eval⟩ := reads session loads
    rw [eval] at prepared
    exact h.givesDeclared stems named prepared

/-- In an experiment that compiles, every space starts with the value that is declared for each
initial input, by the space if it gives one and else by the experiment. This is the value that a
task is prepared with at any time in the history of a run, and every program is started with such
values only. -/
theorem initialInputs_declared {out : Compilation} {warnings : List CompileWarning}
    (compiled : compile e workflows = .ok out)
    (planned : planSpaces e workflows = .ok (plans, warnings)) {S : Type} {u : Subject S}
    (artifact : u.artifact = out.artifact) {kept : S → Prop} {log : List (LogItem S)}
    {x : Option RunSnapshot} (journey : Journey u kept log x) :
    (∀ space ∈ out.artifact.spaces, ∃ s ∈ e.spaces, StemsFrom e plans space s ∧
      ∀ (c : Conduct S) (session : Session S) (y : RunSnapshot), x = some y →
        c.host.backend.load c.runId session.store = .ok (some y) →
        Serves e plans s c space session) ∧
    ∀ command, .launched command ∈ momentsIn log →
      ∃ space ∈ out.artifact.spaces, ∃ s ∈ e.spaces, StemsFrom e plans space s ∧
        ∃ t ∈ out.artifact.tasks.flatten, t.taskId ∈ space.tasksOrder ∧
          ∃ parameters given directory, Command.ofTask t parameters given directory = .ok command ∧
            GivesDeclared e plans s t given := by
  have h := stages compiled planned
  have valid : u.artifact.validate = .ok () := artifact ▸ validate_of_compile compiled
  constructor
  · intro space mem
    obtain ⟨s, among, stems⟩ := h.exists_stem mem
    refine ⟨s, among, stems, ?_⟩
    intro c session y here loads
    have named : y.NamesOutputs out.artifact := artifact ▸ journey.namesOutputs valid y here
    exact h.serves stems named loads
  · intro command launched
    obtain ⟨y, named, ordered⟩ := journey.exists_ordered valid launched
    rw [artifact] at named ordered
    cases ordered with
    | @of space set index t parameters given directory _ mem _ defined listed prepared made =>
      obtain ⟨s, among, stems⟩ := h.exists_stem mem
      exact ⟨space, mem, s, among, stems, t, defined, listed, parameters, given, directory, made,
        h.givesDeclared stems named prepared⟩

/-- Two spaces of a task with an initial input, to which the experiment gives a value twice and the
second space another one. -/
def overridden : Experiment :=
  { name := "E"
    spaces :=
      [{ name := "A", workflow := "W" },
       { name := "B", workflow := "W", data := [⟨"x", some "3"⟩, ⟨"x", none⟩] }]
    data := [⟨"x", some "1"⟩, ⟨"x", some "2"⟩] }

/-- The workflow of the two spaces. -/
def consuming : Workflow :=
  { name := "W"
    tasks := [{ name := "t", workflow := "W", implementation := some "./t.sh", inputs := ["x"] }] }

/-- The arguments of the programs that were started. -/
def argumentsIn {S : Type} (log : List (LogItem S)) : List (List String) :=
  (momentsIn log).filterMap fun
    | .launched command => some command.arguments
    | _ => none

open Conduct in
/-- The task of the first space is given the later value of the experiment, that of the second space
the value of the space. -/
theorem initialInputs_declared_overridden : ∃ out plans warnings log x,
    compile overridden [consuming] = .ok out ∧
      planSpaces overridden [consuming] = .ok (plans, warnings) ∧ IsInitial plans "x" ∧
      Journey (runOf out.artifact).subject (fun _ => True) log x ∧
      argumentsIn log = [["\"2\""], ["\"3\""]] ∧
      ∀ space ∈ out.artifact.spaces,
        space.inputData.get? "x" = some (if space.spaceId = "A" then "2" else "3") := by
  obtain ⟨⟨plans, warnings⟩, planned, found⟩ :=
    exists_ok (r := planSpaces overridden [consuming])
      (p := fun found => "x" ∈ SpacePlan.initialInputs found.1 ∧
        (compile overridden [consuming]).toOption.any fun out =>
          argumentsIn ((runOf out.artifact).callLog .run 3 onEmptyTable) =
            [["\"2\""], ["\"3\""]])
      (by decide +kernel)
  obtain ⟨initial, found⟩ := found
  obtain ⟨out, compiled, launched⟩ := exists_ok found
  have finds : (runOf out.artifact).Finds (fun _ => True) onEmptyTable none :=
    ⟨trivial, rfl, fun _ h => nomatch h⟩
  have journey := Journey.start.whole (runOf out.artifact) .run 3 onEmptyTable rfl
    (Host.inMemory_reliable _ _ _) finds
  obtain ⟨starts, -⟩ := initialInputs_declared compiled planned rfl journey
  refine ⟨out, plans, warnings, _, _, compiled, planned, isInitial_iff.2 initial, journey, launched,
    ?_⟩
  intro space mem
  obtain ⟨s, among, stems, -⟩ := starts space mem
  rw [stems.inputData, ← stems.name]
  simp only [overridden, List.mem_cons, List.not_mem_nil, or_false] at among
  rcases among with rfl | rfl
  · decide
  · decide

end Compile

end Sweep
