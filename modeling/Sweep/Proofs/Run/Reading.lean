import Sweep.Proofs.Run.Standing

/-!
# Looking at the record

Much of what the engine does only looks at the record of the run: what comes out is a function of
the record, and of the session nothing changes but how often the clock was read. Mostly the ledger
of the record is enough to know the answer.
-/

namespace Sweep

variable {S α β : Type}

/-- The value of an input of a task: the one recorded in the set, else the initial value of the
space, else the one recorded last anywhere. -/
def Ledger.input (l : Ledger) (space : SpaceDefinition) (index : Nat) (t : TaskDefinition)
    (name : String) : Except RunError String :=
  match l.values (space.spaceId, index, name) with
  | some value => .ok value
  | none =>
    match space.inputData.get? name with
    | some value => .ok value
    | none =>
      match l.latest name with
      | some value => .ok value
      | none => .error (.missingInput space.spaceId index t.taskId name)

namespace Conduct

variable (c : Conduct S)

def outputsOn (l : Ledger) (space : String) (index : Nat) (values : Table String)
    (outputs : List String) : Table String :=
  outputs.foldl (fun values output =>
    match l.values (space, index, output) with
    | some value => values.insert (resultKey output index) value
    | none => values) values

def setsOn (l : Ledger) (space : String) (outputs : List String) (values : Table String)
    (indices : List Nat) : Table String :=
  indices.foldl (fun values index =>
    if l.sets (space, index) = some .completed then outputsOn l space index values outputs
    else values) values

def spaceOn (l : Ledger) (space : SpaceDefinition) : Except RunError (Table String) :=
  match space.lastTask? with
  | none => .ok ∅
  | some last =>
    match c.artifact.task? last with
    | none => .error (.unknownTask space.spaceId last)
    | some t => .ok (setsOn l space.spaceId t.outputData ∅ (List.range space.parameters.length))

def resultsOn (l : Ledger) : Except RunError Results :=
  c.artifact.spaces.foldlM (fun results space => do
    return results.insert space.spaceId (← c.spaceOn l space)) ∅

/-- The space that a run begins with. -/
def firstOn (resumed : Bool) (l : Ledger) : String :=
  match l.control with
  | some space => if resumed then space else c.artifact.control.start
  | none => c.artifact.control.start

/-- An activity only looks at a record: it has this result, and only reads the clock. -/
def Reads (x : RunSnapshot) (a : Activity S α) (r : Except RunError α) : Prop :=
  ∀ s, c.host.backend.load c.runId s.store = .ok (some x) →
    ∃ count, a s = (r, { s with readings := s.readings + count })

variable {c} {kept : S → Prop} {x : RunSnapshot}

/-! ## Rules of composition -/

namespace Reads

theorem pure {y : α} : c.Reads x (pure y) (.ok y) := fun _ _ => ⟨0, rfl⟩

theorem throw {e : RunError} : c.Reads x (throw e : Activity S α) (.error e) := fun _ _ => ⟨0, rfl⟩

theorem bind {a : Activity S α} {f : α → Activity S β} {y : α} {r : Except RunError β}
    (first : c.Reads x a (.ok y)) (goesOn : c.Reads x (f y) r) : c.Reads x (a >>= f) r := by
  intro s loads
  obtain ⟨n, eval⟩ := first s loads
  obtain ⟨m, eval'⟩ := goesOn { s with readings := s.readings + n } loads
  refine ⟨n + m, ?_⟩
  rw [bind_eval, eval]
  simp only [eval', Nat.add_assoc]

theorem bind_error {a : Activity S α} {f : α → Activity S β} {e : RunError}
    (first : c.Reads x a (.error e)) : c.Reads x (a >>= f) (.error e) := by
  intro s loads
  obtain ⟨n, eval⟩ := first s loads
  refine ⟨n, ?_⟩
  rw [bind_eval, eval]

/-- An activity that reads its parts reads the whole. -/
theorem mapM {f : α → Activity S β} {g : α → Except RunError β}
    (each : ∀ y, c.Reads x (f y) (g y)) (ys : List α) : c.Reads x (ys.mapM f) (ys.mapM g) := by
  induction ys with
  | nil => exact pure
  | cons y rest ih =>
    simp only [List.mapM_cons]
    have first := each y
    cases hy : g y with
    | error e => exact bind_error (hy ▸ first)
    | ok z =>
      refine bind (hy ▸ first) ?_
      cases hrest : rest.mapM g with
      | error e => exact bind_error (hrest ▸ ih)
      | ok zs => exact bind (hrest ▸ ih) pure

end Reads

/-! ## Questions -/

/-- An operation that only loads the record gives what it finds in it. -/
theorem reads_query_of {operation : RepositoryM S α} {y : α}
    (found : ∀ now s, c.host.backend.load c.runId s = .ok (some x) →
      operation now s = (.ok y, s)) : c.Reads x (c.query operation) (.ok y) := by
  intro s loads
  refine ⟨1, ?_⟩
  rw [query_eval, found _ _ loads]
  rfl

/-- A question about the record is answered from it. -/
theorem reads_query (f : RunSnapshot → α) :
    c.Reads x (c.query do return f (← c.host.backend.snapshot c.runId)) (.ok (f x)) :=
  reads_query_of fun now s loads => by
    rw [operation_bind_eval, snapshot_eval loads]
    rfl

theorem reads_run? : c.Reads x (c.query (c.host.backend.run? c.runId)) (.ok (some x.run)) :=
  reads_query_of fun now s loads => by
    have load : c.host.backend.loadSnapshot c.runId now s = (.ok (some x), s) := by
      rw [← loads]
      rfl
    rw [Backend.run?, operation_bind_eval, load]
    rfl

theorem reads_inputValue (space : SpaceDefinition) (index : Nat) (t : TaskDefinition)
    (name : String) :
    c.Reads x (c.inputValue space index t name) (x.ledger.input space index t name) := by
  refine (reads_query (·.mapping? space.spaceId index name)).bind ?_
  have found : x.ledger.values (space.spaceId, index, name) =
      (x.mapping? space.spaceId index name).map (·.value) := rfl
  rw [Ledger.input, found]
  cases x.mapping? space.spaceId index name with
  | some m => exact Reads.pure
  | none =>
    cases space.inputData.get? name with
    | some value => exact Reads.pure
    | none =>
      refine (reads_query (·.latestMapping? name)).bind ?_
      have found : x.ledger.latest name = (x.latestMapping? name).map (·.value) := rfl
      simp only [Option.map_none, found]
      cases x.latestMapping? name with
      | some m => exact Reads.pure
      | none => exact Reads.throw

theorem reads_isSetCompleted (space : SpaceDefinition) (index : Nat) :
    c.Reads x (c.isSetCompleted space index)
      (.ok (decide (x.ledger.sets (space.spaceId, index) = some .completed))) := by
  refine (reads_query (·.set? space.spaceId index)).bind ?_
  have known : x.ledger.sets (space.spaceId, index) =
      (x.set? space.spaceId index).map (·.status) := rfl
  rw [known]
  cases x.set? space.spaceId index with
  | none => exact Reads.pure
  | some record =>
    simp only [Option.map_some, Option.some.injEq]
    exact Reads.pure

theorem reads_isSpaceCompleted (space : String) :
    c.Reads x (c.isSpaceCompleted space)
      (.ok (decide (x.ledger.spaces space = some .completed))) := by
  refine (reads_query (·.space? space)).bind ?_
  have known : x.ledger.spaces space = (x.space? space).map (·.status) := rfl
  rw [known]
  cases x.space? space with
  | none => exact Reads.pure
  | some record =>
    simp only [Option.map_some, Option.some.injEq]
    exact Reads.pure

theorem reads_firstSpace (resumed : Bool) :
    c.Reads x (c.firstSpace resumed) (.ok (c.firstOn resumed x.ledger)) := by
  refine (reads_query (·.control)).bind ?_
  have known : x.ledger.control = x.control.map (·.space) := rfl
  rw [firstOn, known]
  cases x.control with
  | none => exact Reads.pure
  | some state => cases resumed <;> exact Reads.pure

/-! ## Results -/

theorem reads_collectOutputs (space : String) (index : Nat) (values : Table String)
    (outputs : List String) :
    c.Reads x (c.collectOutputs space index values outputs)
      (.ok (outputsOn x.ledger space index values outputs)) := by
  induction outputs generalizing values with
  | nil => exact Reads.pure
  | cons output rest ih =>
    refine (reads_query (·.mapping? space index output)).bind ?_
    have known : x.ledger.values (space, index, output) =
        (x.mapping? space index output).map (·.value) := rfl
    rw [outputsOn, List.foldl_cons, known]
    cases x.mapping? space index output with
    | none => exact ih values
    | some m => exact ih _

theorem reads_collectSets (space : String) (outputs : List String) (values : Table String)
    (indices : List Nat) :
    c.Reads x (c.collectSets space outputs values indices)
      (.ok (setsOn x.ledger space outputs values indices)) := by
  induction indices generalizing values with
  | nil => exact Reads.pure
  | cons index rest ih =>
    refine (reads_query (·.set? space index)).bind ?_
    have known : x.ledger.sets (space, index) = (x.set? space index).map (·.status) := rfl
    have decided : ((x.set? space index).any fun r => r.status == .completed) =
        decide (x.ledger.sets (space, index) = some .completed) := by
      rw [Bool.eq_iff_iff, known]
      cases x.set? space index <;> simp
    rw [setsOn, List.foldl_cons, decided]
    by_cases completed : x.ledger.sets (space, index) = some .completed
    · simp only [completed, decide_true, if_true]
      exact (reads_collectOutputs space index values outputs).bind (ih _)
    · simp only [completed, decide_false, Bool.false_eq_true, if_false]
      exact ih values

theorem reads_collectSpace (space : SpaceDefinition) :
    c.Reads x (c.collectSpace space) (c.spaceOn x.ledger space) := by
  rw [collectSpace, spaceOn]
  cases space.lastTask? with
  | none => exact Reads.pure
  | some last =>
    simp only
    cases c.artifact.task? last with
    | none => exact Reads.throw
    | some t => exact reads_collectSets _ _ _ _

theorem reads_results : c.Reads x c.results (c.resultsOn x.ledger) := by
  have collects (results : Results) (spaces : List SpaceDefinition) :
      c.Reads x (c.collectSpaces results spaces)
        (spaces.foldlM (fun results space => do
          return results.insert space.spaceId (← c.spaceOn x.ledger space)) results) := by
    induction spaces generalizing results with
    | nil => exact Reads.pure
    | cons space rest ih =>
      have first : c.Reads x (c.collectSpace space) (c.spaceOn x.ledger space) :=
        reads_collectSpace space
      rw [List.foldlM_cons]
      cases h : c.spaceOn x.ledger space with
      | error e => exact Reads.bind_error (h ▸ first)
      | ok values => exact Reads.bind (h ▸ first) (ih _)
  exact collects ∅ c.artifact.spaces

/-- A summary tells the results of the record and how the run stands. -/
theorem reads_summary (resumed executed : Bool) :
    c.Reads x (c.summary resumed executed) ((c.resultsOn x.ledger).map fun results =>
      ⟨c.runId, x.run.status, results, x.taskCounts none, resumed, executed⟩) := by
  refine reads_run?.bind ?_
  have collected : c.Reads x c.results (c.resultsOn x.ledger) := reads_results
  cases h : c.resultsOn x.ledger with
  | error e => exact Reads.bind_error (h ▸ collected)
  | ok results =>
    exact Reads.bind (h ▸ collected) ((reads_query (·.taskCounts none)).bind Reads.pure)

/-! ## Standings -/

/-- To read the clock keeps what is kept. -/
theorem Keeps.later {s : Session S} (keeps : c.Keeps kept s x) (count : Nat) :
    c.Keeps kept { s with readings := s.readings + count } x := by
  refine ⟨keeps.kept, keeps.loads, keeps.named, ?_, keeps.calm⟩
  intro steady m mem k later
  exact keeps.ahead steady m mem k (Nat.le_trans (Nat.le_add_right _ _) later)

/-- An activity that only looks at the record leads where it stands, to what any record of the
ledger gives. -/
theorem leads_of_reads {a : Activity S α} {v : Standing} {Q : Except RunError α → Standing → Prop}
    (reads : ∀ x : RunSnapshot, x.ledger = v.ledger → ∃ r, c.Reads x a r ∧ Q r v) :
    c.Leads kept a v Q := by
  rintro s ⟨x, keeps, rfl⟩
  obtain ⟨r, read, q⟩ := reads x rfl
  obtain ⟨n, eval⟩ := read s keeps.loads
  rw [eval]
  exact ⟨_, ⟨x, keeps.later n, rfl⟩, q⟩

theorem yields_of_reads {a : Activity S α} {v : Standing} (f : Ledger → Except RunError α)
    (reads : ∀ x : RunSnapshot, c.Reads x a (f x.ledger)) :
    c.Yields kept a v (f v.ledger) v :=
  leads_of_reads fun x same => ⟨_, same ▸ reads x, rfl, rfl⟩

theorem yields_isSetCompleted (space : SpaceDefinition) (index : Nat) (v : Standing) :
    c.Yields kept (c.isSetCompleted space index) v
      (.ok (decide (v.ledger.sets (space.spaceId, index) = some .completed))) v :=
  yields_of_reads (fun l => .ok (decide (l.sets (space.spaceId, index) = some .completed)))
    fun _ => reads_isSetCompleted space index

theorem yields_isSpaceCompleted (space : String) (v : Standing) :
    c.Yields kept (c.isSpaceCompleted space) v
      (.ok (decide (v.ledger.spaces space = some .completed))) v :=
  yields_of_reads (fun l => .ok (decide (l.spaces space = some .completed)))
    fun _ => reads_isSpaceCompleted space

theorem yields_firstSpace (resumed : Bool) (v : Standing) :
    c.Yields kept (c.firstSpace resumed) v (.ok (c.firstOn resumed v.ledger)) v :=
  yields_of_reads (fun l => .ok (c.firstOn resumed l)) fun _ => reads_firstSpace resumed

/-- An activity goes on with the answer that some snapshot of the ledger gives. -/
theorem query_bind (f : RunSnapshot → α) {next : α → Activity S β} {v : Standing}
    {Q : Except RunError β → Standing → Prop}
    (answered : ∀ x : RunSnapshot, x.ledger = v.ledger → c.Leads kept (next (f x)) v Q) :
    c.Leads kept ((c.query do return f (← c.host.backend.snapshot c.runId)) >>= next) v Q := by
  refine Leads.bind (R := fun r w => w = v ∧ ∃ x : RunSnapshot,
      x.ledger = v.ledger ∧ r = .ok (f x))
    (leads_of_reads fun x same => ⟨_, reads_query f, rfl, x, same, rfl⟩) ?_ ?_
  · rintro e w ⟨-, x, -, h⟩
    cases h
  · rintro y w ⟨rfl, x, same, h⟩
    cases h
    exact answered x same

end Conduct

end Sweep
