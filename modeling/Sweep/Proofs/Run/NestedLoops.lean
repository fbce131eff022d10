import Sweep.Proofs.Run.Launching
import Sweep.Proofs.Run.WholeCourse

/-!
# A run as nested loops

A run that starts afresh and is left alone is a loop over the spaces that the answers lead to, with
a loop over the indices of the sets inside it and a loop over the tasks inside that, and it breaks
off at the first task that fails. It decides by what it finds recorded, so the proof has to know
what that is: wherever the run comes to a space, every space is either completed or without any
record. A completed space is forgotten before it is visited again, so each visit finds none of its
sets completed and goes through all of them.
-/

namespace Sweep

variable {S : Type}

def startedIn (marks : List (TaskKey × TaskMark)) : List TaskKey :=
  (marks.filter fun m => m.2 = .started).map (·.1)

def SpaceDefinition.starts (space : SpaceDefinition) : List TaskKey :=
  (List.range space.parameters.length).flatMap fun index =>
    space.tasksOrder.map fun task => ⟨space.spaceId, index, task⟩

/-- The spaces that are visited from a space on: after each the next one is chosen, until the end
is chosen or no choice can be made, or the number of visits is used up. -/
def Conduct.itinerary (c : Conduct S) : Nat → String → Session S → List SpaceDefinition
  | 0, _, _ => []
  | visits + 1, current, s =>
    if current = endMark then []
    else
      match c.artifact.space? current with
      | none => []
      | some space =>
        space ::
          match c.next current s with
          | (.ok next, s') => itinerary c visits next s'
          | (.error _, _) => []

/-- Tasks are carried out one after the other as planned: each is started when the one before it is
completed, and nothing is started after one that fails. -/
inductive InOrder : List TaskKey → List (TaskKey × TaskMark) → Option TaskKey → Prop
  | done : InOrder [] [] none
  | fails (key : TaskKey) (rest : List TaskKey) :
      InOrder (key :: rest) [(key, .started), (key, .failed)] (some key)
  | completes (key : TaskKey) {rest : List TaskKey} {marks : List (TaskKey × TaskMark)}
      {failed : Option TaskKey} : InOrder rest marks failed →
      InOrder (key :: rest) ((key, .started) :: (key, .completed) :: marks) failed

namespace InOrder

theorem append {plan plan' : List TaskKey} {marks marks' : List (TaskKey × TaskMark)}
    {failed : Option TaskKey} (first : InOrder plan marks none)
    (second : InOrder plan' marks' failed) : InOrder (plan ++ plan') (marks ++ marks') failed := by
  generalize hn : (none : Option TaskKey) = n at first
  induction first with
  | done => exact second
  | fails => cases hn
  | completes key _ ih => exact .completes key (ih hn)

/-- What is planned after a failure does not matter. -/
theorem append_failed {plan plan' : List TaskKey} {marks : List (TaskKey × TaskMark)}
    {key : TaskKey} (first : InOrder plan marks (some key)) :
    InOrder (plan ++ plan') marks (some key) := by
  generalize hk : some key = k at first
  induction first with
  | done => cases hk
  | fails key rest => exact .fails key _
  | completes key' _ ih => exact .completes key' (ih hk)

/-- The tasks started are those planned: all of them, or those up to the one that fails. -/
theorem started_eq {plan : List TaskKey} {marks : List (TaskKey × TaskMark)}
    {failed : Option TaskKey} (h : InOrder plan marks failed) :
    ∃ count, startedIn marks = plan.take count ∧ (failed = none → count = plan.length) ∧
      ∀ key, failed = some key → ∃ before, plan.take count = before ++ [key] := by
  induction h with
  | done => exact ⟨0, rfl, fun _ => rfl, fun _ h => nomatch h⟩
  | fails key rest =>
    refine ⟨1, rfl, fun h => (nomatch h), ?_⟩
    rintro _ ⟨⟩
    exact ⟨[], rfl⟩
  | completes key rest ih =>
    obtain ⟨count, started, all, cut⟩ := ih
    refine ⟨count + 1, ?_, fun h => by rw [all h, List.length_cons], ?_⟩
    · rw [List.take_succ_cons, ← started]
      rfl
    · intro last h
      obtain ⟨before, shape⟩ := cut last h
      exact ⟨key :: before, by rw [List.take_succ_cons, shape, List.cons_append]⟩

/-- The last mark is that of an end. -/
theorem getLast?_ne {plan : List TaskKey} {marks : List (TaskKey × TaskMark)}
    {failed : Option TaskKey} (h : InOrder plan marks failed) (key : TaskKey) :
    marks.getLast? ≠ some (key, .started) := by
  induction h with
  | done => nofun
  | fails => simp
  | @completes _ _ marks _ _ ih =>
    cases marks with
    | nil => simp
    | cons m rest => simpa using ih

end InOrder

namespace Conduct

variable {c : Conduct S} {kept : S → Prop}

section Parts

variable {space : SpaceDefinition} {index : Nat} {set : ParameterSet}

/-- Carrying a task out marks nothing by itself. -/
theorem Produces.marks {l : Ledger} {t : TaskDefinition} {deeds : List Deed}
    {r : Except RunError (List String)} (h : c.Produces kept space index set l t deeds r) :
    deeds.filterMap Deed.mark? = [] := by
  cases h with
  | noCommand none => rfl
  | carriesOut command carried => cases carried <;> rfl

/-! ## Tasks and sets -/

/-- A task is started, and then it is completed or the course ends with its failure. -/
theorem TaskCourse.inOrder {t : TaskDefinition} {l l' : Ledger} {deeds : List Deed}
    {r : Except RunError Unit} (h : c.TaskCourse kept space index set t l deeds r l') :
    InOrder [⟨space.spaceId, index, t.taskId⟩] (deeds.filterMap Deed.mark?) (failedTask r) := by
  cases h with
  | completed produced puts =>
    simp only [List.filterMap_cons, List.filterMap_append, produced.marks, List.filterMap_nil,
      Deed.mark?, List.cons_append, List.nil_append]
    exact .completes _ .done
  | failed produced =>
    simp only [List.filterMap_cons, List.filterMap_append, produced.marks, List.filterMap_nil,
      Deed.mark?, List.cons_append, List.nil_append, failedTask, produced.task?_eq]
    exact .fails _ []

/-- An error of tasks is the failure of one of them, if nobody asks for termination. -/
theorem TasksCourse.task_failed {tasks : List TaskDefinition} {l l' : Ledger} {deeds : List Deed}
    {e : RunError} (calm : c.host.Calm)
    (h : c.TasksCourse kept space index set tasks l deeds (.error e) l') :
    ∃ key, e.task? = some key := by
  generalize hr : (.error e : Except RunError Unit) = r at h
  induction h with
  | nil => cases hr
  | failed first =>
    cases hr
    cases first with
    | failed produced => exact ⟨_, produced.task?_eq⟩
  | stopped restless => exact absurd calm restless
  | cons _ _ ih => exact ih hr

theorem TasksCourse.inOrder {tasks : List TaskDefinition} {l l' : Ledger} {deeds : List Deed}
    {r : Except RunError Unit} (calm : c.host.Calm)
    (h : c.TasksCourse kept space index set tasks l deeds r l') :
    InOrder (tasks.map fun t => ⟨space.spaceId, index, t.taskId⟩) (deeds.filterMap Deed.mark?)
      (failedTask r) := by
  induction h with
  | nil => exact .done
  | failed first =>
    have only := first.inOrder
    have alone : c.TasksCourse kept space index set [_] _ _ _ _ := .failed first
    obtain ⟨key, failed⟩ := alone.task_failed calm
    rw [failedTask, failed] at only ⊢
    exact only.append_failed
  | stopped restless => exact absurd calm restless
  | cons first _ ih =>
    rw [List.filterMap_append, List.map_cons]
    exact InOrder.append first.inOrder ih

end Parts

/-- Sets of which none is completed are gone through one after the other. -/
theorem SetsCourse.inOrder {space : SpaceDefinition} {tasks : List TaskDefinition}
    {sets : List (ParameterSet × Nat)} {l l' : Ledger} {deeds : List Deed}
    {r : Except RunError Unit} (calm : c.host.Calm)
    (h : c.SetsCourse kept space tasks sets l deeds r l') (distinct : (sets.map (·.2)).Nodup)
    (fresh : ∀ p ∈ sets, l.sets (space.spaceId, p.2) ≠ some .completed) :
    InOrder (sets.flatMap fun p => tasks.map fun t => ⟨space.spaceId, p.2, t.taskId⟩)
      (deeds.filterMap Deed.mark?) (failedTask r) := by
  induction h with
  | nil => exact .done
  | skipped completed => exact absurd completed (fresh _ List.mem_cons_self)
  | broken _ first =>
    have only := first.inOrder calm
    obtain ⟨key, failed⟩ := first.task_failed calm
    rw [failedTask, failed] at only ⊢
    exact only.append_failed
  | stopped restless => exact absurd calm restless
  | @cons set index rest l l' _ _ _ _ _ first _ ih =>
    rw [List.filterMap_append, List.flatMap_cons]
    simp only [List.map_cons, List.nodup_cons] at distinct
    refine (first.inOrder calm).append (ih distinct.2 ?_)
    intro p mem
    have other : (space.spaceId, p.2) ≠ (space.spaceId, index) := fun same =>
      distinct.1 (List.mem_map.2 ⟨p, mem, congrArg Prod.snd same⟩)
    rw [Ledger.setSet, first.frame]
    simp only [Ledger.setSet, Function.update_of_ne other]
    exact fresh p (List.mem_cons_of_mem _ mem)

/-- An error of sets is the failure of one of their tasks, if nobody asks for termination. -/
theorem SetsCourse.task_failed {space : SpaceDefinition} {tasks : List TaskDefinition}
    {sets : List (ParameterSet × Nat)} {l l' : Ledger} {deeds : List Deed} {e : RunError}
    (calm : c.host.Calm) (h : c.SetsCourse kept space tasks sets l deeds (.error e) l') :
    ∃ key, e.task? = some key := by
  generalize hr : (.error e : Except RunError Unit) = r at h
  induction h with
  | nil => cases hr
  | skipped _ _ ih => exact ih hr
  | broken _ first =>
    cases hr
    exact first.task_failed calm
  | stopped restless => exact absurd calm restless
  | cons _ _ _ ih => exact ih hr

/-! ## Visits -/

/-- Every space is completed, or nothing is recorded of it. -/
def Settled (l : Ledger) : Prop :=
  ∀ space, l.spaces space = some .completed ∨
    l.spaces space = none ∧ ∀ index, l.sets (space, index) = none

/-- A visit of a space without records goes through all of its sets. -/
theorem VisitCourse.inOrder {space : SpaceDefinition} {tasks : List TaskDefinition}
    {l l' : Ledger} {deeds : List Deed} {r : Except RunError Unit} (calm : c.host.Calm)
    (known : c.tasksOf space = .ok tasks) (h : c.VisitCourse kept space l deeds r l')
    (fresh : ∀ index, l.sets (space.spaceId, index) = none) :
    InOrder space.starts (deeds.filterMap Deed.mark?) (failedTask r) := by
  have opened (index : Nat) : (l.openSpace space.spaceId).sets (space.spaceId, index) = none := by
    rw [Ledger.openSpace]
    split <;> exact fresh index
  have plan : (space.parameters.zipIdx.flatMap fun p =>
      tasks.map fun t => (⟨space.spaceId, p.2, t.taskId⟩ : TaskKey)) = space.starts := by
    rw [flatMap_zipIdx space.parameters fun index =>
      tasks.map fun t => (⟨space.spaceId, index, t.taskId⟩ : TaskKey), SpaceDefinition.starts,
      ← tasksOf_taskIds known]
    simp only [List.map_map, Function.comp_def]
  have distinct : (space.parameters.zipIdx.map (·.2)).Nodup := by
    rw [List.zipIdx_map_snd]
    exact List.nodup_range'
  cases h with
  | unknownTask unknown =>
    rw [known] at unknown
    cases unknown
  | broken known' sets | completed known' sets =>
    rw [known] at known'
    cases known'
    rw [← plan]
    exact sets.inOrder calm distinct fun p _ completed => by simp [opened] at completed

/-- A visit that is completed settles its space and leaves the others as they were. -/
theorem VisitCourse.settled {space : SpaceDefinition} {l l' : Ledger} {deeds : List Deed}
    (h : c.VisitCourse kept space l deeds (.ok ()) l')
    (others : ∀ other, other ≠ space.spaceId → l.spaces other = some .completed ∨
      l.spaces other = none ∧ ∀ index, l.sets (other, index) = none) : Settled l' := by
  cases h with
  | completed known sets =>
    intro other
    by_cases same : other = space.spaceId
    · subst same
      exact .inl (by simp [Ledger.setSpace])
    · have spaces : ∀ m : Ledger, (m.openSpace space.spaceId).spaces other = m.spaces other := by
        intro m
        rw [Ledger.openSpace]
        split
        · rfl
        · simp [Ledger.setSpace, Function.update_of_ne same]
      have kept : ∀ m : Ledger, (m.openSpace space.spaceId).sets = m.sets := by
        intro m
        rw [Ledger.openSpace]
        split <;> rfl
      have before := others other same
      rw [← spaces l, ← kept l] at before
      simp only [Ledger.setSpace, Function.update_of_ne same, sets.sets_other same]
      rw [sets.frame]
      exact before

/-- Coming to a space when all is settled, the run goes through all of its sets, and all is settled
again afterwards. -/
theorem EntryCourse.inOrder {space : SpaceDefinition} {tasks : List TaskDefinition}
    {l l' : Ledger} {deeds : List Deed} {r : Except RunError Unit} (calm : c.host.Calm)
    (known : c.tasksOf space = .ok tasks) (h : c.EntryCourse kept space false l deeds r l')
    (settled : Settled l) :
    InOrder space.starts (deeds.filterMap Deed.mark?) (failedTask r) ∧
      (r = .ok () → Settled l') := by
  have fresh (index : Nat) : (l.clear space.spaceId).sets (space.spaceId, index) = none := by
    rw [Ledger.clear]
    split
    · simp [Ledger.reset]
    · next open_ =>
      rcases settled space.spaceId with completed | ⟨-, none⟩
      · exact absurd completed open_
      · exact none index
  have others (other : String) (apart : other ≠ space.spaceId) :
      (l.clear space.spaceId).spaces other = some .completed ∨
        (l.clear space.spaceId).spaces other = none ∧
          ∀ index, (l.clear space.spaceId).sets (other, index) = none := by
    rw [Ledger.clear]
    split
    · simpa [Ledger.reset, Function.update_of_ne apart, apart] using settled other
    · exact settled other
  cases h with
  | skipped goesOn => cases goesOn
  | broken _ visit =>
    refine ⟨visit.inOrder calm known fresh, ?_⟩
    rintro ⟨⟩
  | stopped restless => exact absurd calm restless
  | completed _ visit => exact ⟨visit.inOrder calm known fresh, fun _ => visit.settled others⟩

theorem EntryCourse.task_failed {space : SpaceDefinition} {tasks : List TaskDefinition}
    {goesOn : Bool} {l l' : Ledger} {deeds : List Deed} {e : RunError} (calm : c.host.Calm)
    (known : c.tasksOf space = .ok tasks)
    (h : c.EntryCourse kept space goesOn l deeds (.error e) l') : ∃ key, e.task? = some key := by
  cases h with
  | stopped restless => exact absurd calm restless
  | broken _ visit =>
    cases visit with
    | unknownTask unknown =>
      rw [known] at unknown
      cases unknown
    | broken _ sets => exact sets.task_failed calm

/-! ## The whole run -/

/-- In a valid artifact the tasks of a space are defined. -/
theorem tasksOf_of_validate (valid : c.artifact.validate = .ok ()) {id : String}
    {space : SpaceDefinition} (found : c.artifact.space? id = some space) :
    ∃ tasks, c.tasksOf space = .ok tasks := by
  cases h : c.tasksOf space with
  | ok tasks => exact ⟨tasks, rfl⟩
  | error e =>
    obtain ⟨task, mem, unknown⟩ := exists_of_mapM_error h
    obtain ⟨t, known⟩ := Artifact.task?_of_validate valid found task mem
    rw [known] at unknown
    cases unknown

/-- The spaces visited, by the answers that are left instead of a session. -/
def itineraryOn (c : Conduct S) : Nat → String → Answers → List SpaceDefinition
  | 0, _, _ => []
  | visits + 1, current, answers =>
    if current = endMark then []
    else
      match c.artifact.space? current with
      | none => []
      | some space =>
        space ::
          match c.nextOn current answers with
          | (.ok next, left) => itineraryOn c visits next left
          | (.error _, _) => []

theorem itinerary_eq (visits : Nat) (current : String) (s : Session S) :
    c.itinerary visits current s = c.itineraryOn visits current s.answers := by
  induction visits generalizing current s with
  | zero => rfl
  | succ visits ih =>
    rw [itinerary, itineraryOn]
    obtain ⟨s', chosen, answers, -⟩ := next_eval (c := c) current s
    rw [chosen]
    rcases hn : c.nextOn current s.answers with ⟨e | next, left⟩
    · rfl
    · rw [hn] at answers
      simp only [ih, answers]

/-- From a space on, when all is settled, the run goes through the spaces that it comes to. -/
theorem TraverseCourse.inOrder {visits : Nat} {current : String} {l l' : Ledger}
    {answers left : Answers} {deeds : List Deed} {r : Except RunError Bool} (calm : c.host.Calm)
    (valid : c.artifact.validate = .ok ()) (settled : Settled l)
    (h : c.TraverseCourse kept visits current false l answers deeds r l' left) :
    InOrder ((c.itineraryOn visits current answers).flatMap (·.starts))
      (deeds.filterMap Deed.mark?) (failedTask r) := by
  generalize fresh : false = goesOn at h
  induction h with
  | finished visits =>
    cases visits <;> exact .done
  | exhausted => exact .done
  | unknownSpace visits goesOn l answers notEnd unknown =>
    rw [itineraryOn, if_neg notEnd, unknown]
    exact .done
  | broken visits answers notEnd found entry =>
    subst fresh
    obtain ⟨tasks, known⟩ := tasksOf_of_validate valid found
    have first := (entry.inOrder calm known settled).1
    obtain ⟨key, failed⟩ := entry.task_failed calm known
    rw [itineraryOn, if_neg notEnd, found, failedTask, failed]
    rw [failedTask, failed] at first
    exact first.append_failed
  | stuck visits notEnd found entry chosen =>
    subst fresh
    obtain ⟨tasks, known⟩ := tasksOf_of_validate valid found
    have first := (entry.inOrder calm known settled).1
    rw [itineraryOn, if_neg notEnd, found, chosen, failedTask, (error_of_nextOn chosen).1]
    simpa [failedTask] using first
  | step notEnd found entry chosen _ ih =>
    subst fresh
    obtain ⟨tasks, known⟩ := tasksOf_of_validate valid found
    obtain ⟨inOrder, settles⟩ := entry.inOrder calm known settled
    rw [itineraryOn, if_neg notEnd, found, chosen, List.filterMap_append]
    exact inOrder.append (ih (settles rfl) rfl)

/-- A run ends with the failure of a task exactly when its traversal does. -/
theorem Concludes.failedTask_eq {resumed : Bool} {l l' : Ledger} {r : Except RunError Bool}
    {r' : Except RunError (Option RunSummary)} (h : c.Concludes resumed l r r' l') :
    failedTask r' = failedTask r := by
  cases h with
  | completed => rfl
  | noResults none => exact task?_of_resultsOn none
  | exhausted => rfl
  | terminated => rfl
  | failed => rfl

/-- The failure of a task that a run ends with is the one that its traversal ends with. -/
theorem Concludes.error_eq {resumed : Bool} {l l' : Ledger} {r : Except RunError Bool}
    {e : RunError} {key : TaskKey} (h : c.Concludes resumed l r (.error e) l')
    (failed : e.task? = some key) : r = .error e := by
  cases h with
  | noResults none =>
    rw [task?_of_resultsOn none] at failed
    cases failed
  | terminated => rfl
  | failed => rfl

/-- The marks of a run are those of its deeds. -/
theorem marks_of_stands {s s' : Session S} {w : Standing} {deeds : List Deed}
    (stands : c.StandsAt kept s' w) (grown : w.deeds = (c.registered s).deeds ++ deeds) :
    s'.marks = s.marks ++ deeds.filterMap Deed.mark? := by
  obtain ⟨snapshot, -, rfl⟩ := stands
  have same : s'.deeds = s.deeds ++ deeds := grown
  rw [Session.marks_eq, same, List.filterMap_append, Session.marks_eq]

/-- A run of which there is no record, and which is left alone, goes through the spaces that the
answers lead to, in each through all sets by their indices and in each set through all tasks in
their order, and stops at the first task that fails, which is the failure that it ends with.
Programs are only started by these tasks. -/
theorem run_in_order (reliable : c.host.Reliable c.runId kept) (calm : c.host.Calm)
    (valid : c.artifact.validate = .ok ()) {s : Session S} (fresh : c.Fresh kept s)
    (visits : Nat) :
    let plan := (c.itinerary visits c.artifact.control.start s).flatMap (·.starts)
    let failed := failedTask (c.run visits s).1
    ∃ marks, (c.run visits s).2.marks = s.marks ++ marks ∧ InOrder plan marks failed ∧
      (∃ count, startedIn marks = plan.take count ∧ (failed = none → count = plan.length) ∧
        ∀ key, failed = some key → ∃ before, plan.take count = before ++ [key]) ∧
      ∃ deeds, (c.run visits s).2.deeds = s.deeds ++ deeds ∧
        deeds.filterMap Deed.mark? = marks ∧ c.Works deeds := by
  obtain ⟨w, stands, deeds, r, l, course, grown, concludes⟩ := run_follows reliable visits fresh
  have settled : Settled ((c.registered s).ledger.setStatus .running) :=
    fun space => .inr ⟨rfl, fun index => rfl⟩
  have ordered := course.inOrder calm valid settled
  have begin_ : c.firstOn false (c.registered s).ledger = c.artifact.control.start := rfl
  rw [begin_, ← concludes.failedTask_eq] at ordered
  rw [itinerary_eq]
  have marks := marks_of_stands stands grown
  exact ⟨_, marks, ordered, ordered.started_eq, run_works visits marks ordered.getLast?_ne⟩

def twoSets : Conduct (Table RunSnapshot) where
  host := .inMemory (fun _ => .ok ⟨.exited 0, .empty, .empty⟩) fun _ => false
  artifact :=
    { experiment := "e"
      version := artifactVersion
      tasks := [[{ taskId := "W:t", workflow := "W", implementation := "./t.sh" }]]
      spaces := [{ spaceId := "s", tasksOrder := ["W:t"], parameters := [∅, ∅] }]
      control := ⟨"s", [⟨"s", endMark, none⟩]⟩ }
  options := {}
  runId := "r"

theorem run_in_order_twoSets :
    twoSets.host.Calm ∧ twoSets.artifact.validate = .ok () ∧
      twoSets.Fresh (fun _ => True) { store := ∅, answers := .scripted [] } ∧
      ∃ marks, (twoSets.run 2 { store := ∅, answers := .scripted [] }).2.marks = marks ∧
        InOrder [⟨"s", 0, "W:t"⟩, ⟨"s", 1, "W:t"⟩] marks
          (failedTask (twoSets.run 2 { store := ∅, answers := .scripted [] }).1) ∧
        ∃ deeds, (twoSets.run 2 { store := ∅, answers := .scripted [] }).2.deeds = deeds ∧
          deeds.filterMap Deed.mark? = marks ∧ twoSets.Works deeds := by
  have calm : twoSets.host.Calm := Host.inMemory_calm _
  have valid : twoSets.artifact.validate = .ok () := by rfl
  have fresh : twoSets.Fresh (fun _ => True) { store := ∅, answers := .scripted [] } :=
    inMemory_fresh rfl _
  obtain ⟨marks, shown, inOrder, -, works⟩ :=
    run_in_order (Host.inMemory_reliable _ _ _) calm valid fresh 2
  exact ⟨calm, valid, fresh, marks, shown, inOrder, works⟩

end Conduct

end Sweep
