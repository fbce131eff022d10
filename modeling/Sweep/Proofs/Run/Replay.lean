import Sweep.Proofs.Run.WholeCourse

/-!
# A run as a function of what it remembers

When what a program does is a function of its command and the clock is steady, the course of an
undisturbed run is determined by what is remembered at its beginning: the values, the latest value
of each name, and which sets and spaces are completed. The functions here compute that course, with
the deeds that belong to it, and every course of the engine that is not stopped computes the same.
-/

namespace Sweep

variable {S : Type}

/-- What the rest of a run depends on. -/
@[ext] structure Memory where
  values : String × Nat × String → Option String
  latest : String → Option String
  /-- The sets that are completed. -/
  sets : String × Nat → Bool
  /-- The spaces that are completed. -/
  spaces : String → Bool

namespace Memory

variable (m : Memory)

def put (space : String) (index : Nat) (name value : String) : Memory :=
  { m with
    values := Function.update m.values (space, index, name) (some value)
    latest := Function.update m.latest name (some value) }

/-- Puts values one after the other. -/
def putAll (space : String) (index : Nat) (outputs : List (String × String)) : Memory :=
  outputs.foldl (fun m output => m.put space index output.1 output.2) m

def setDone (space : String) (index : Nat) (isDone : Bool) : Memory :=
  { m with sets := Function.update m.sets (space, index) isDone }

def spaceDone (space : String) (isDone : Bool) : Memory :=
  { m with spaces := Function.update m.spaces space isDone }

def clear (space : String) : Memory :=
  if m.spaces space then
    { m with
      sets := fun k => if k.1 = space then false else m.sets k
      spaces := Function.update m.spaces space false }
  else m

def ledger : Ledger := { Ledger.blank "" with values := m.values, latest := m.latest }

end Memory

namespace Ledger

variable (l : Ledger)

/-- What a run remembers by its ledger. -/
def memory : Memory where
  values := l.values
  latest := l.latest
  sets k := decide (l.sets k = some .completed)
  spaces x := decide (l.spaces x = some .completed)

@[simp] theorem memory_setStatus (status : RunStatus) : (l.setStatus status).memory = l.memory :=
  rfl

@[simp] theorem memory_enter (space : String) : (l.enter space).memory = l.memory := rfl

@[simp] theorem memory_setTask (space : String) (index : Nat) (task : String)
    (status : UnitStatus) : (l.setTask space index task status).memory = l.memory := rfl

@[simp] theorem memory_put (space : String) (index : Nat) (name value : String) :
    (l.put space index name value value).memory = l.memory.put space index name value := rfl

@[simp] theorem memory_setSet (space : String) (index : Nat) (status : UnitStatus) :
    (l.setSet space index status).memory =
      l.memory.setDone space index (decide (status = .completed)) := by
  refine Memory.ext rfl rfl (funext ?_) rfl
  intro k
  simp only [memory, setSet, Memory.setDone, Function.update_apply]
  split <;> simp

@[simp] theorem memory_setSpace (space : String) (status : UnitStatus) :
    (l.setSpace space status).memory =
      l.memory.spaceDone space (decide (status = .completed)) := by
  refine Memory.ext rfl rfl rfl (funext ?_)
  intro x
  simp only [memory, setSpace, Memory.spaceDone, Function.update_apply]
  split <;> simp

/-- A set that is not completed does not become so by being started. -/
theorem memory_startSet {space : String} {index : Nat}
    (notDone : l.sets (space, index) ≠ some .completed) :
    (l.setSet space index .running).memory = l.memory := by
  rw [memory_setSet]
  refine Memory.ext rfl rfl (funext ?_) rfl
  intro k
  simp only [memory, Memory.setDone, Function.update_apply]
  split
  · next same => simp [same, notDone]
  · rfl

theorem memory_openSpace {space : String} (notDone : l.spaces space ≠ some .completed) :
    (l.openSpace space).memory = l.memory := by
  rw [openSpace]
  split
  · rfl
  · rw [memory_setSpace]
    refine Memory.ext rfl rfl rfl (funext ?_)
    intro x
    simp only [memory, Memory.spaceDone, Function.update_apply]
    split
    · next same => simp [same, notDone]
    · rfl

theorem memory_clear (space : String) : (l.clear space).memory = l.memory.clear space := by
  by_cases done : l.spaces space = some .completed
  · rw [clear, if_pos done, Memory.clear, if_pos (by simp [memory, done])]
    refine Memory.ext rfl rfl (funext ?_) (funext ?_)
    · intro k
      simp only [memory, reset]
      split <;> simp
    · intro x
      simp only [memory, reset, Function.update_apply]
      split <;> simp
  · rw [clear, if_neg done, Memory.clear, if_neg (by simp [memory, done])]

end Ledger

/-- A result together with the deeds that lead to it. -/
abbrev Logged (α : Type) := List Deed × Except RunError α

namespace Logged

variable {α β γ : Type}

/-- Goes on after a result, unless it is an error. -/
def andThen (x : Logged α) (f : α → Logged β) : Logged β :=
  match x with
  | (log, .ok a) => (log ++ (f a).1, (f a).2)
  | (log, .error e) => (log, .error e)

@[simp] theorem ok_andThen (log : List Deed) (a : α) (f : α → Logged β) :
    andThen (log, .ok a) f = (log ++ (f a).1, (f a).2) := rfl

@[simp] theorem error_andThen (log : List Deed) (e : RunError) (f : α → Logged β) :
    andThen (log, .error e) f = (log, .error e) := rfl

theorem andThen_assoc (x : Logged α) (f : α → Logged β) (g : β → Logged γ) :
    andThen (andThen x f) g = andThen x fun a => andThen (f a) g := by
  obtain ⟨log, e | a⟩ := x
  · rfl
  · simp only [ok_andThen]
    obtain ⟨log', e | b⟩ := f a <;> simp

@[simp] theorem andThen_ok (x : Logged α) : (andThen x fun a => ([], .ok a)) = x := by
  obtain ⟨log, e | a⟩ := x <;> simp

end Logged

namespace Conduct

variable (c : Conduct S) (programs : Command → Except LaunchFault Completion)

def produce (space : SpaceDefinition) (index : Nat) (set : ParameterSet) (t : TaskDefinition)
    (m : Memory) : Logged (List String) :=
  match c.commandOf m.ledger space index set t with
  | .error e => ([], .error e)
  | .ok command =>
    if c.options.dryRun then ([], .ok (t.outputData.map fun _ => previewValue))
    else
      ([.launched command], (t.outcome command (programs command)).mapError
        (.taskFailed space.spaceId index t.taskId))

def replayTask (space : SpaceDefinition) (index : Nat) (set : ParameterSet) (t : TaskDefinition)
    (m : Memory) : Logged Memory :=
  let key : TaskKey := ⟨space.spaceId, index, t.taskId⟩
  match c.produce programs space index set t m with
  | (log, .ok values) =>
    (.marked key .started :: log ++ [.marked key .completed],
      .ok (m.putAll space.spaceId index (t.outputData.zip values)))
  | (log, .error e) => (.marked key .started :: log ++ [.marked key .failed], .error e)

/-- Carries tasks out one after the other. -/
def replayTasks (space : SpaceDefinition) (index : Nat) (set : ParameterSet) :
    List TaskDefinition → Memory → Logged Memory
  | [], m => ([], .ok m)
  | t :: rest, m =>
    (c.replayTask programs space index set t m).andThen (replayTasks space index set rest)

/-- Goes through the sets that are not completed. -/
def replaySets (space : SpaceDefinition) (tasks : List TaskDefinition) :
    List (ParameterSet × Nat) → Memory → Logged Memory
  | [], m => ([], .ok m)
  | (set, index) :: rest, m =>
    if m.sets (space.spaceId, index) then replaySets space tasks rest m
    else
      (c.replayTasks programs space index set tasks m).andThen fun m =>
        replaySets space tasks rest (m.setDone space.spaceId index true)

def replayVisit (space : SpaceDefinition) (m : Memory) : Logged Memory :=
  match c.tasksOf space with
  | .error e => ([], .error e)
  | .ok tasks =>
    (c.replaySets programs space tasks space.parameters.zipIdx m).andThen fun m =>
      ([], .ok (m.spaceDone space.spaceId true))

/-- Visits a space that has been entered, unless the run goes on from after its visit. -/
def replayEntry (space : SpaceDefinition) (goesOn : Bool) (m : Memory) : Logged Memory :=
  if m.spaces space.spaceId && goesOn then ([], .ok m)
  else c.replayVisit programs space (m.clear space.spaceId)

def replay : Nat → String → Bool → Memory → Answers → Logged (Bool × Memory × Answers)
  | visits, current, goesOn, m, answers =>
    if current = endMark then ([], .ok (true, m, answers))
    else
      match visits with
      | 0 => ([], .ok (false, m, answers))
      | visits + 1 =>
        match c.artifact.space? current with
        | none => ([], .error (.unknownSpace current))
        | some space =>
          (c.replayEntry programs space goesOn m).andThen fun m =>
            match c.nextOn current answers with
            | (.ok next, left) => replay visits next false m left
            | (.error e, _) => ([], .error e)

variable {c programs} {kept : S → Prop}

section Following

variable (repeatable : ∀ command s, kept s → (c.host.launch command s).1 = programs command)
  (steady : c.host.Steady)

include repeatable in
theorem Produces.eq {space : SpaceDefinition} {index : Nat} {set : ParameterSet}
    {t : TaskDefinition} {l : Ledger} {deeds : List Deed} {r : Except RunError (List String)}
    (h : c.Produces kept space index set l t deeds r) :
    c.produce programs space index set t l.memory = (deeds, r) := by
  have same : c.commandOf l.memory.ledger space index set t = c.commandOf l space index set t :=
    rfl
  cases h with
  | noCommand none => rw [produce, same, none]
  | carriesOut command carried =>
    cases carried with
    | shown dry =>
      simp only [produce, same, command, dry, if_true]
      rfl
    | ran s wet known =>
      simp only [produce, same, command, wet, Bool.false_eq_true, if_false, repeatable _ s known]

include steady in
theorem Puts.memory_eq {space : SpaceDefinition} {index : Nat} {outputs : List (String × String)}
    {l l' : Ledger} (h : c.Puts space index outputs l l') :
    l'.memory = l.memory.putAll space.spaceId index outputs := by
  induction h with
  | nil => rfl
  | cons newest _ ih =>
    rw [ih, newest steady, Ledger.memory_put]
    rfl

include repeatable steady

theorem TaskCourse.eq {space : SpaceDefinition} {index : Nat} {set : ParameterSet}
    {t : TaskDefinition} {l l' : Ledger} {deeds : List Deed} {r : Except RunError Unit}
    (h : c.TaskCourse kept space index set t l deeds r l') :
    c.replayTask programs space index set t l.memory = (deeds, r.map fun _ => l'.memory) := by
  cases h with
  | completed produced puts =>
    have values := produced.eq repeatable
    rw [Ledger.memory_setTask] at values
    simp only [replayTask, values, Except.map, Ledger.memory_setTask, puts.memory_eq steady]
  | failed produced =>
    have values := produced.eq repeatable
    rw [Ledger.memory_setTask] at values
    simp only [replayTask, values, Except.map]

/-- Tasks that are not stopped do what their replay does. -/
theorem TasksCourse.eq {space : SpaceDefinition} {index : Nat} {set : ParameterSet}
    {tasks : List TaskDefinition} {l l' : Ledger} {deeds : List Deed} {r : Except RunError Unit}
    (h : c.TasksCourse kept space index set tasks l deeds r l')
    (undisturbed : r ≠ .error (.terminated c.runId)) :
    c.replayTasks programs space index set tasks l.memory =
      (deeds, r.map fun _ => l'.memory) := by
  induction h with
  | nil => rfl
  | failed first => rw [replayTasks, first.eq repeatable steady]; rfl
  | stopped => exact absurd rfl undisturbed
  | cons first _ ih =>
    rw [replayTasks, first.eq repeatable steady]
    simp only [Except.map, Logged.ok_andThen, ih undisturbed]

theorem SetsCourse.eq {space : SpaceDefinition} {tasks : List TaskDefinition}
    {sets : List (ParameterSet × Nat)} {l l' : Ledger} {deeds : List Deed}
    {r : Except RunError Unit} (h : c.SetsCourse kept space tasks sets l deeds r l')
    (undisturbed : r ≠ .error (.terminated c.runId)) :
    c.replaySets programs space tasks sets l.memory = (deeds, r.map fun _ => l'.memory) := by
  induction h with
  | nil => rfl
  | skipped done _ ih =>
    rw [replaySets, if_pos (by simp [Ledger.memory, done])]
    exact ih undisturbed
  | broken notDone first =>
    have tasks := first.eq repeatable steady undisturbed
    rw [Ledger.memory_startSet _ notDone] at tasks
    rw [replaySets, if_neg (by simp [Ledger.memory, notDone]), tasks]
    rfl
  | stopped => exact absurd rfl undisturbed
  | cons notDone first _ ih =>
    have tasks := first.eq repeatable steady (by simp)
    rw [Ledger.memory_startSet _ notDone] at tasks
    have others := ih undisturbed
    simp only [Ledger.memory_setSet, decide_true] at others
    rw [replaySets, if_neg (by simp [Ledger.memory, notDone]), tasks]
    simp only [Except.map, Logged.ok_andThen]
    rw [others]
    rfl

theorem VisitCourse.eq {space : SpaceDefinition} {l l' : Ledger} {deeds : List Deed}
    {r : Except RunError Unit} (h : c.VisitCourse kept space l deeds r l')
    (notDone : l.spaces space.spaceId ≠ some .completed)
    (undisturbed : r ≠ .error (.terminated c.runId)) :
    c.replayVisit programs space l.memory = (deeds, r.map fun _ => l'.memory) := by
  cases h with
  | unknownTask unknown => simp only [replayVisit, unknown, Except.map]
  | broken known sets =>
    have all := sets.eq repeatable steady undisturbed
    rw [Ledger.memory_openSpace _ notDone] at all
    simp only [replayVisit, known, all, Except.map, Logged.error_andThen]
  | completed known sets =>
    have all := sets.eq repeatable steady undisturbed
    rw [Ledger.memory_openSpace _ notDone] at all
    simp only [replayVisit, known, all, Except.map, Logged.ok_andThen, List.append_nil,
      Ledger.memory_setSpace, decide_true]

omit repeatable steady in
theorem clear_notDone (l : Ledger) (space : String) :
    (l.clear space).spaces space ≠ some .completed := by
  rw [Ledger.clear]
  split
  · simp [Ledger.reset]
  · assumption

theorem EntryCourse.eq {space : SpaceDefinition} {goesOn : Bool} {l l' : Ledger}
    {deeds : List Deed} {r : Except RunError Unit}
    (h : c.EntryCourse kept space goesOn l deeds r l')
    (undisturbed : r ≠ .error (.terminated c.runId)) :
    c.replayEntry programs space goesOn l.memory = (deeds, r.map fun _ => l'.memory) := by
  have enters (fresh : goesOn = true → l.spaces space.spaceId ≠ some .completed) :
      c.replayEntry programs space goesOn l.memory =
        c.replayVisit programs space (l.clear space.spaceId).memory := by
    rw [replayEntry, Ledger.memory_clear, if_neg]
    intro both
    obtain ⟨done, goes⟩ := Bool.and_eq_true_iff.1 both
    exact fresh goes (by simpa [Ledger.memory] using done)
  cases h with
  | skipped goes done =>
    rw [replayEntry, if_pos (by simp [Ledger.memory, done, goes])]
    rfl
  | broken fresh visit =>
    rw [enters fresh]
    exact visit.eq repeatable steady (clear_notDone l _) undisturbed
  | stopped => exact absurd rfl undisturbed
  | completed fresh visit =>
    rw [enters fresh]
    exact visit.eq repeatable steady (clear_notDone l _) undisturbed

/-- A run that is not stopped does what its replay does. -/
theorem TraverseCourse.eq {visits : Nat} {current : String} {goesOn : Bool} {l l' : Ledger}
    {answers left : Answers} {deeds : List Deed} {r : Except RunError Bool}
    (h : c.TraverseCourse kept visits current goesOn l answers deeds r l' left)
    (undisturbed : r ≠ .error (.terminated c.runId)) :
    c.replay programs visits current goesOn l.memory answers =
      (deeds, r.map fun reached => (reached, l'.memory, left)) := by
  induction h with
  | finished visits => cases visits <;> simp [replay, Except.map]
  | exhausted _ _ _ notEnd => simp [replay, notEnd, Except.map]
  | unknownSpace _ _ _ _ notEnd unknown => simp [replay, notEnd, unknown, Except.map]
  | broken _ _ notEnd found entry =>
    have first := entry.eq repeatable steady (by simpa using undisturbed)
    rw [Ledger.memory_enter] at first
    simp only [replay, notEnd, if_false, found, first, Except.map, Logged.error_andThen]
  | stuck _ notEnd found entry chosen =>
    have first := entry.eq repeatable steady (by simp)
    rw [Ledger.memory_enter] at first
    simp only [replay, notEnd, if_false, found, first, Except.map, Logged.ok_andThen, chosen,
      List.append_nil]
  | step notEnd found entry chosen _ ih =>
    have first := entry.eq repeatable steady (by simp)
    rw [Ledger.memory_enter] at first
    simp only [replay, notEnd, if_false, found, first, Except.map, Logged.ok_andThen, chosen]
    rw [ih undisturbed]
    rfl

end Following

/-- A replay that comes to an end is the same if more visits are allowed. -/
theorem replay_mono {visits more : Nat} {current : String} {goesOn : Bool} {m m' : Memory}
    {answers left : Answers} {log : List Deed} (le : visits ≤ more)
    (h : c.replay programs visits current goesOn m answers = (log, .ok (true, m', left))) :
    c.replay programs more current goesOn m answers = (log, .ok (true, m', left)) := by
  induction visits generalizing more current goesOn m answers log with
  | zero =>
    rw [replay] at h
    split at h
    · next ended =>
      cases h
      cases more <;> simp [replay, ended]
    · cases h
  | succ visits ih =>
    obtain ⟨more, rfl⟩ : ∃ k, more = k + 1 := ⟨more - 1, by omega⟩
    rw [replay] at h ⊢
    split
    · next ended => rwa [if_pos ended] at h
    next notEnd =>
    rw [if_neg notEnd] at h
    cases found : c.artifact.space? current with
    | none =>
      rw [found] at h
      cases h
    | some space =>
      rw [found] at h
      simp only at h ⊢
      rcases entered : c.replayEntry programs space goesOn m with ⟨log', e | m₁⟩ <;>
        rw [entered] at h
      · cases h
      simp only [Logged.ok_andThen] at h ⊢
      rcases chosen : c.nextOn current answers with ⟨e | next, left'⟩ <;> rw [chosen] at h
      · cases h
      simp only [Prod.mk.injEq] at h ⊢
      have rest : c.replay programs visits next false m₁ left' =
          ((c.replay programs visits next false m₁ left').1, .ok (true, m', left)) :=
        Prod.ext rfl h.2
      rw [ih (by omega : visits ≤ more) rest]
      exact ⟨h.1, rfl⟩

end Conduct

end Sweep
