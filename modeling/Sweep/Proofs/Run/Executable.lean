import Sweep.Proofs.Compile.DataFlow
import Sweep.Proofs.Compile.Validity
import Sweep.Proofs.Run.Journey

/-!
# Valid artifacts can be executed

A call of a run looks up names of two kinds: those that its artifact contains, which are defined if
the artifact is valid, and the space that is recorded, which the run itself has put there. So on its
own records it never meets a name that is not defined. A compiled artifact is valid, and its
conditions can be read, so that no choice of the next space fails because of its condition.
-/

namespace Sweep

variable {S α β : Type}

/-- An error about a space or a task that the artifact does not define. -/
inductive RunError.IsUnknownName : RunError → Prop
  | space (space : String) : IsUnknownName (.unknownSpace space)
  | task (space task : String) : IsUnknownName (.unknownTask space task)

/-- An error about a condition that cannot be read. -/
inductive RunError.IsCondition : RunError → Prop
  | invalid (space text : String) (cause : ConditionError) :
      IsCondition (.invalidCondition space text cause)

namespace Conduct

variable {c : Conduct S} {kept : S → Prop}

/-! ## Results -/

/-- An activity that only fails because of the repository. -/
def FailsInRepository (a : Activity S α) : Prop :=
  ∀ s e, (a s).1 = .error e → ∃ cause, e = .repository cause

namespace FailsInRepository

theorem pure (x : α) : FailsInRepository (pure x : Activity S α) := nofun

theorem bind {a : Activity S α} {f : α → Activity S β} (first : FailsInRepository a)
    (goesOn : ∀ x, FailsInRepository (f x)) : FailsInRepository (a >>= f) := by
  intro s e failed
  rw [bind_eval] at failed
  rcases h : a s with ⟨_ | x, s'⟩ <;> rw [h] at failed
  · cases failed
    exact first s _ (by rw [h])
  · exact goesOn x s' e failed

theorem query (operation : RepositoryM S α) : FailsInRepository (c.query operation) := by
  intro s e failed
  rw [query_eval] at failed
  cases found : (operation (c.host.clock s.readings) s.store).1 <;> rw [found] at failed <;>
    cases failed
  exact ⟨_, rfl⟩

end FailsInRepository

theorem collectOutputs_fails (space : String) (index : Nat) (values : Table String)
    (outputs : List String) : FailsInRepository (c.collectOutputs space index values outputs) := by
  induction outputs generalizing values with
  | nil => exact .pure values
  | cons output rest ih =>
    refine (FailsInRepository.query _).bind fun found => ?_
    cases found with
    | some m => exact ih _
    | none => exact ih values

theorem collectSets_fails (space : String) (outputs : List String) (values : Table String)
    (indices : List Nat) : FailsInRepository (c.collectSets space outputs values indices) := by
  induction indices generalizing values with
  | nil => exact .pure values
  | cons index rest ih =>
    refine (FailsInRepository.query _).bind fun found => ?_
    split
    · exact (collectOutputs_fails space index values outputs).bind ih
    · exact ih values

/-- The results of a valid artifact are looked up under defined names. -/
theorem results_fails (valid : c.artifact.validate = .ok ()) : FailsInRepository c.results := by
  have collects (results : Results) (spaces : List SpaceDefinition)
      (among : spaces ⊆ c.artifact.spaces) :
      FailsInRepository (c.collectSpaces results spaces) := by
    induction spaces generalizing results with
    | nil => exact .pure results
    | cons space rest ih =>
      have first : FailsInRepository (c.collectSpace space) := by
        rw [collectSpace.eq_def]
        cases last : space.lastTask? with
        | none => exact .pure _
        | some task =>
          obtain ⟨t, known⟩ := Option.isSome_iff_exists.1 ((Artifact.validate_eq_ok.1 valid).1 space
            (among List.mem_cons_self) task (List.mem_of_getLast? last))
          simp only [known]
          exact collectSets_fails _ _ _ _
      exact first.bind fun values => ih _ fun _ mem => among (List.mem_cons_of_mem _ mem)
  exact collects ∅ c.artifact.spaces (List.Subset.refl _)

/-! ## Calls -/

/-- The space that a run in order begins or goes on with is declared, or it is the end. -/
theorem declared_firstOn (valid : c.artifact.validate = .ok ()) {l : Ledger}
    (sound : Sound c.artifact l) (resumed : Bool) :
    c.firstOn resumed l = endMark ∨ (c.artifact.space? (c.firstOn resumed l)).isSome := by
  have start := (Artifact.validate_eq_ok.1 valid).2.1
  rw [firstOn]
  cases control : l.control with
  | none => exact .inr start
  | some space =>
    cases resumed with
    | false => exact .inr start
    | true => exact sound.known space control

/-- What a call on a record in order may end with: a failure of a task, a request for termination, a
choice that cannot be made, or the refusal of the record. -/
theorem error_of_call (reliable : c.host.Reliable c.runId kept)
    (valid : c.artifact.validate = .ok ()) (request : Request) (visits : Nat) {s : Session S}
    {x : Option RunSnapshot} (finds : c.Finds kept s x)
    (sound : ∀ y, x = some y → Sound c.artifact y.ledger) {e : RunError}
    (failed : (c.call request visits s).1 = .error e) :
    c.Stops e ∨ e = .runNotFound c.runId ∨
      ∃ runId expected actual, e = .artifactMismatch runId expected actual := by
  by_cases rests : request.Rests c.artifact x
  · exact .inr ((call_rests valid visits finds rests).2.2 e failed)
  · obtain ⟨first, y, s', opening, -, -, sees, drives, -⟩ :=
      call_drives reliable request visits finds rests
    have sound := opening.sound sound
    rw [drives] at failed
    obtain ⟨-, stops, -⟩ := drive_tours reliable valid visits x.isSome sees opening.nowhere
    rcases stops e failed with stops | ⟨-, notEnd, unknown⟩
    · exact .inl stops
    · rcases declared_firstOn valid sound x.isSome with atEnd | declared
      · exact absurd atEnd notEnd
      · simp [unknown] at declared

theorem Stops.not_unknownName {e : RunError} (h : c.Stops e) : ¬e.IsUnknownName := by
  rintro (⟨space⟩ | ⟨space, task⟩) <;>
    obtain ⟨key, named⟩ | terminated | ⟨_, _, _, chosen⟩ := h
  all_goals first
    | cases named
    | cases terminated
    | cases noChoice_of_nextOn chosen

theorem Stops.not_condition {e : RunError} (h : c.Stops e)
    (readable : ∀ t ∈ c.artifact.control.transitions, ∀ text, t.condition = some text →
      ∃ condition, Condition.parse text = .ok condition) : ¬e.IsCondition := by
  rintro ⟨space, text, cause⟩
  obtain ⟨key, named⟩ | terminated | ⟨_, _, _, chosen⟩ := h
  · cases named
  · cases terminated
  · cases noChoice_of_nextOn chosen with
    | invalid mem conditional unread =>
      obtain ⟨condition, read⟩ := readable _ mem _ conditional
      cases read.symm.trans unread

end Conduct

/-- What is compiled is valid. On records that a run of a valid artifact has left itself, no call
and no question for results meets a name that is not defined; and if the artifact was compiled, no
call meets a condition that cannot be read. -/
theorem executable_of_validate :
    (∀ e workflows out, compile e workflows = .ok out → out.artifact.validate = .ok ()) ∧
    ∀ {S : Type} (c : Conduct S) (kept : S → Prop) (log : List (LogItem S))
      (x : Option RunSnapshot) (s : Session S), c.artifact.validate = .ok () →
      Journey c.subject kept log x → c.host.Reliable c.runId kept → c.Finds kept s x →
      (∀ request visits e, (c.call request visits s).1 = .error e → ¬e.IsUnknownName) ∧
      (∀ e, (c.results s).1 = .error e → ¬e.IsUnknownName) ∧
      ∀ experiment workflows out, compile experiment workflows = .ok out →
        c.artifact = out.artifact →
          ∀ request visits e, (c.call request visits s).1 = .error e → ¬e.IsCondition := by
  refine ⟨fun _ _ _ => Compile.validate_of_compile, ?_⟩
  intro S c kept log x s valid journey reliable finds
  have stops (request visits e) (failed : (c.call request visits s).1 = .error e) :=
    c.error_of_call reliable valid request visits finds (journey.sound valid) failed
  refine ⟨fun request visits e failed => ?_, fun e failed => ?_, ?_⟩
  · rcases stops request visits e failed with stops | rfl | ⟨_, _, _, rfl⟩
    · exact stops.not_unknownName
    · nofun
    · nofun
  · obtain ⟨cause, rfl⟩ := Conduct.results_fails valid s e failed
    nofun
  · intro experiment workflows out compiled same request visits e failed
    rcases stops request visits e failed with stops | rfl | ⟨_, _, _, rfl⟩
    · refine stops.not_condition fun t mem => ?_
      rw [same] at mem
      exact ((Compile.proper_of_compile compiled).transitions t mem).condition
    · nofun
    · nofun

open Compile Conduct in
theorem executable_of_validate_awaiting : ∃ out e,
    compile awaiting awaitingWorkflows = .ok out ∧ out.artifact.validate = .ok () ∧
      ((dryRunOf out.artifact).call .run 3 onEmptyTable).1 = .error e ∧
      ¬e.IsUnknownName ∧ ¬e.IsCondition ∧
      ∀ e, ((dryRunOf out.artifact).results onEmptyTable).1 = .error e → ¬e.IsUnknownName := by
  obtain ⟨out, compiled, ended⟩ := exists_ok (r := compile awaiting awaitingWorkflows)
    (p := fun out => (errorOf? ((dryRunOf out.artifact).call .run 3 onEmptyTable).1).isSome)
    (by decide +kernel)
  obtain ⟨e, failed⟩ := Option.isSome_iff_exists.1 ended
  have failed := errorOf?_eq_some.1 failed
  have finds : (dryRunOf out.artifact).Finds (fun _ => True) onEmptyTable none :=
    ⟨trivial, rfl, fun _ h => nomatch h⟩
  have valid := executable_of_validate.1 _ _ _ compiled
  obtain ⟨names, results, conditions⟩ := executable_of_validate.2 (dryRunOf out.artifact) _ _ _ _
    valid .start (Host.inMemory_reliable _ _ _) finds
  exact ⟨out, e, compiled, valid, failed, names _ _ _ failed,
    conditions _ _ _ compiled rfl _ _ _ failed, results⟩

end Sweep
