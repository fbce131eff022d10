import Sweep.Proofs.Lists
import Sweep.Proofs.Run.Reading
import Sweep.Run.SpaceVisit

/-!
# Preparing a task

Before a task is carried out in a parameter set it is prepared: its parameters are put together, and
then the values of its inputs are looked up. The parameters are a matter of the set alone, whatever
is recorded, and looking up never complains of a parameter. So whether a task lacks a parameter does
not depend on when it is prepared.
-/

namespace Sweep

def RunError.IsMissingParameter (e : RunError) : Prop :=
  ∃ space index task parameter, e = .missingParameter space index task parameter

def Ledger.prepared (l : Ledger) (space : SpaceDefinition) (index : Nat) (set : ParameterSet)
    (t : TaskDefinition) : Except RunError (ParameterSet × List String) := do
  let parameters ← Conduct.parametersOf space index set t
  let inputs ← t.inputData.mapM (l.input space index t)
  return (parameters, inputs)

theorem Ledger.of_prepared {l : Ledger} {space : SpaceDefinition} {index : Nat} {set : ParameterSet}
    {t : TaskDefinition} {parameters : ParameterSet} {inputs : List String}
    (prepared : l.prepared space index set t = .ok (parameters, inputs)) :
    Conduct.parametersOf space index set t = .ok parameters ∧
      t.inputData.mapM (l.input space index t) = .ok inputs := by
  obtain ⟨_, put, prepared⟩ := exists_of_bind_ok prepared
  obtain ⟨_, looked, prepared⟩ := exists_of_bind_ok prepared
  cases prepared
  exact ⟨put, looked⟩

namespace Conduct

variable {S : Type} (c : Conduct S) (space : SpaceDefinition) (index : Nat) (set : ParameterSet)
  (t : TaskDefinition)

def prepare : Activity S (ParameterSet × List String) := do
  let parameters ← parametersOf space index set t
  let inputs ← t.inputData.mapM (c.inputValue space index t)
  return (parameters, inputs)

/-- A task is prepared and then executed. -/
theorem outputValues_eq_prepare : c.outputValues space index set t =
    c.prepare space index set t >>= fun prepared =>
      c.execute t prepared.1 prepared.2 >>= fun
        | .ok values => return values
        | .error e => throw (.taskFailed space.spaceId index t.taskId e) := by
  rw [outputValues, prepare, bind_assoc]
  refine congrArg _ (funext fun parameters => ?_)
  rw [bind_assoc]
  refine congrArg _ (funext fun inputs => ?_)
  refine Eq.trans ?_ (pure_bind (parameters, inputs) _).symm
  exact congrArg _ (funext fun executed => by cases executed <;> rfl)

/-- Preparing a task in a session fails for want of a parameter. -/
def LacksParameter (s : Session S) : Prop :=
  ∃ e, (c.prepare space index set t s).1 = .error e ∧ e.IsMissingParameter

variable {c space index set t}

/-! ## Parameters -/

/-- Parameters cannot be put together exactly if the set lacks one of the unbound ones. -/
theorem parametersOf_eq_error_iff :
    (∃ e, parametersOf space index set t = .error e) ↔
      ∃ name ∈ t.dynamicParameters, set.get? name = none := by
  rw [parametersOf]
  generalize t.staticParameters = bound
  generalize t.dynamicParameters = names
  induction names generalizing bound with
  | nil =>
    constructor
    · rintro ⟨e, failed⟩
      cases failed
    · rintro ⟨name, none, -⟩
      cases none
  | cons name rest ih =>
    rw [List.foldlM_cons]
    cases found : set.get? name with
    | none =>
      constructor
      · intro _
        exact ⟨name, List.mem_cons_self, found⟩
      · intro _
        exact ⟨_, rfl⟩
    | some value =>
      refine (ih (bound.insert name value)).trans ?_
      simp [found]

/-- It is a missing parameter that they are not put together for. -/
theorem isMissingParameter_of_parametersOf {e : RunError}
    (failed : parametersOf space index set t = .error e) : e.IsMissingParameter := by
  obtain ⟨name, -, parameters, missing⟩ := exists_of_foldlM_error failed
  split at missing
  · cases missing
  · cases missing
    exact ⟨_, _, _, _, rfl⟩

/-! ## Inputs -/

variable {α β : Type} {s : Session S} {e : RunError}

/-- What fails in two parts fails in the first, or in the second. -/
theorem error_of_bind {a : Activity S α} {f : α → Activity S β}
    (failed : ((a >>= f) s).1 = .error e) :
    (a s).1 = .error e ∨ ∃ x s', (f x s').1 = .error e := by
  rw [bind_eval] at failed
  generalize a s = first at failed ⊢
  obtain ⟨r, s'⟩ := first
  cases r with
  | error e' =>
    cases failed
    exact .inl rfl
  | ok x => exact .inr ⟨x, s', failed⟩

theorem error_of_mapM {f : α → Activity S β} {xs : List α}
    (failed : (xs.mapM f s).1 = .error e) : ∃ x s', (f x s').1 = .error e := by
  induction xs generalizing s with
  | nil => cases failed
  | cons x rest ih =>
    rw [List.mapM_cons] at failed
    rcases error_of_bind failed with first | ⟨y, s', failed⟩
    · exact ⟨x, s, first⟩
    · rcases error_of_bind failed with later | ⟨ys, s'', failed⟩
      · exact ih later
      · cases failed

/-- A question to the repository fails as the repository does. -/
theorem error_of_query {operation : RepositoryM S α} (failed : (c.query operation s).1 = .error e) :
    ∃ cause, e = .repository cause := by
  rw [query_eval] at failed
  generalize (operation (c.host.clock s.readings) s.store).1 = r at failed
  cases r with
  | error cause =>
    cases failed
    exact ⟨cause, rfl⟩
  | ok x => cases failed

/-- Looking up the value of an input does not fail for want of a parameter. -/
theorem not_isMissingParameter_of_inputValue {name : String}
    (failed : (c.inputValue space index t name s).1 = .error e) : ¬ e.IsMissingParameter := by
  rintro ⟨_, _, _, _, rfl⟩
  rcases error_of_bind failed with asked | ⟨recorded, s', failed⟩
  · obtain ⟨cause, other⟩ := error_of_query asked
    cases other
  cases recorded with
  | some m => cases failed
  | none =>
    dsimp only at failed
    generalize space.inputData.get? name = initial at failed
    cases initial with
    | some value => cases failed
    | none =>
      rcases error_of_bind failed with asked | ⟨latest, s'', failed⟩
      · obtain ⟨cause, other⟩ := error_of_query asked
        cases other
      cases latest with
      | some m => cases failed
      | none => cases failed

/-- To prepare a task is to look at the record. -/
theorem reads_prepare {x : RunSnapshot} :
    c.Reads x (c.prepare space index set t) (x.ledger.prepared space index set t) := by
  rw [prepare, Ledger.prepared]
  cases parametersOf space index set t with
  | error e => exact Reads.bind_error Reads.throw
  | ok parameters =>
    refine Reads.bind Reads.pure ?_
    have looked := Reads.mapM (fun name => reads_inputValue (c := c) (x := x) space index t name)
      t.inputData
    cases found : t.inputData.mapM (x.ledger.input space index t) with
    | error e => exact Reads.bind_error (found ▸ looked)
    | ok inputs => exact Reads.bind (found ▸ looked) Reads.pure

/-! ## Both -/

/-- A task lacks a parameter in a session exactly if the set does not bind one of its unbound
ones. -/
theorem lacksParameter_iff :
    c.LacksParameter space index set t s ↔ ∃ name ∈ t.dynamicParameters, set.get? name = none := by
  have unbound : (∃ e, parametersOf space index set t = .error e) ↔
      ∃ name ∈ t.dynamicParameters, set.get? name = none := parametersOf_eq_error_iff
  rw [← unbound]
  constructor
  · rintro ⟨e, failed, missing⟩
    cases put : parametersOf space index set t with
    | error e' => exact ⟨e', rfl⟩
    | ok parameters =>
      rw [prepare, put] at failed
      rcases error_of_bind failed with none | ⟨_, s', failed⟩
      · cases none
      · rcases error_of_bind failed with looked | ⟨_, s'', failed⟩
        · obtain ⟨name, s'', looked⟩ := error_of_mapM looked
          exact absurd missing (not_isMissingParameter_of_inputValue looked)
        · cases failed
  · rintro ⟨e, failed⟩
    refine ⟨e, ?_, isMissingParameter_of_parametersOf failed⟩
    rw [prepare, failed]
    rfl

end Conduct

end Sweep
