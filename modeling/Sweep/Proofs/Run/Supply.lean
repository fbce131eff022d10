import Sweep.Proofs.Run.NestedLoops

/-!
# What a dry run supplies

In a dry run every task that gets a command is completed, and each of its outputs gets a value. No
value is forgotten, not even where a space is visited again. So when an input has no value, no task
completed before puts it out; in particular none that stands before it in the same space.
-/

namespace Sweep.Conduct

variable {S : Type} (c : Conduct S) (kept : S → Prop)

/-- A task noted as completed puts out a data name. -/
def PutOut (marks : List (TaskKey × TaskMark)) (name : String) : Prop :=
  ∃ key d, (key, .completed) ∈ marks ∧ c.artifact.task? key.task = some d ∧ name ∈ d.outputData

/-- Between two ledgers no latest value is lost, and what the tasks completed meanwhile put out has
one. -/
structure Supplies (before : String → Option String) (deeds : List Deed)
    (after : String → Option String) : Prop where
  retains : ∀ name, (before name).isSome → (after name).isSome
  supplied : ∀ name, c.PutOut (deeds.filterMap Deed.mark?) name → (after name).isSome

/-- A task of a list without a value for one of its inputs: those before it do not put it out, and
the space starts without it. -/
structure Lacks (space : SpaceDefinition) (tasks : List TaskDefinition) (task name : String)
    (latest : String → Option String) : Prop where
  reached : ∃ before t after, tasks = before ++ t :: after ∧ t.taskId = task ∧
    name ∈ t.inputData ∧ ∀ u ∈ before, name ∉ u.outputData
  initial : space.inputData.get? name = none
  latest : latest name = none

variable {c kept}

theorem PutOut.append {marks marks' : List (TaskKey × TaskMark)} {name : String}
    (h : c.PutOut (marks ++ marks') name) : c.PutOut marks name ∨ c.PutOut marks' name := by
  obtain ⟨key, d, mem, defined, out⟩ := h
  exact (List.mem_append.1 mem).imp (⟨key, d, ·, defined, out⟩) (⟨key, d, ·, defined, out⟩)

namespace Supplies

variable {before between after : String → Option String} {deeds deeds' : List Deed}

theorem refl (latest : String → Option String) : c.Supplies latest [] latest :=
  ⟨fun _ known => known, fun _ ⟨_, _, mem, _⟩ => nomatch mem⟩

theorem trans (first : c.Supplies before deeds between) (second : c.Supplies between deeds' after) :
    c.Supplies before (deeds ++ deeds') after := by
  refine ⟨fun name known => second.retains name (first.retains name known), ?_⟩
  intro name out
  rw [List.filterMap_append] at out
  rcases out.append with out | out
  · exact second.retains name (first.supplied name out)
  · exact second.supplied name out

end Supplies

section Parts

variable {space : SpaceDefinition} {index : Nat} {set : ParameterSet}

/-! ## Tasks -/

theorem Puts.latest {outputs : List (String × String)} {l l' : Ledger}
    (h : c.Puts space index outputs l l') (name : String) :
    ((l.latest name).isSome ∨ name ∈ outputs.map (·.1)) → (l'.latest name).isSome := by
  induction h with
  | nil => simp
  | @cons first _ _ _ _ _ _ _ ih =>
    intro known
    refine ih ?_
    by_cases same : name = first
    · subst same
      exact .inl (by simp [Ledger.put])
    · simpa [Ledger.put, Function.update_of_ne same, same] using known

/-- In a dry run nothing but the command decides what a task produces. -/
theorem Produces.dry (dry : c.options.dryRun = true) {l : Ledger} {t : TaskDefinition}
    {deeds : List Deed} {r : Except RunError (List String)}
    (h : c.Produces kept space index set l t deeds r) :
    deeds = [] ∧ ((∃ e, c.commandOf l space index set t = .error e ∧ r = .error e) ∨
      r = .ok (t.outputData.map fun _ => previewValue)) := by
  cases h with
  | noCommand none => exact ⟨rfl, .inl ⟨_, none, rfl⟩⟩
  | carriesOut _ carried =>
    cases carried with
    | shown => exact ⟨rfl, .inr rfl⟩
    | ran _ wet =>
      rw [dry] at wet
      cases wet

/-- A task that is completed has given a value to each of its outputs. -/
theorem TaskCourse.outputs (dry : c.options.dryRun = true) {t : TaskDefinition} {l l' : Ledger}
    {deeds : List Deed} (h : c.TaskCourse kept space index set t l deeds (.ok ()) l')
    {name : String} (out : name ∈ t.outputData) : (l'.latest name).isSome := by
  cases h with
  | completed produced puts =>
    obtain ⟨-, ⟨e, -, failed⟩ | values⟩ := produced.dry dry
    · cases failed
    cases values
    refine puts.latest name (.inr ?_)
    rw [List.map_fst_zip (by simp)]
    exact out

theorem TaskCourse.supplies (dry : c.options.dryRun = true) {t : TaskDefinition}
    (defined : c.artifact.task? t.taskId = some t) {l l' : Ledger} {deeds : List Deed}
    {r : Except RunError Unit} (h : c.TaskCourse kept space index set t l deeds r l') :
    c.Supplies l.latest deeds l'.latest := by
  cases r with
  | ok =>
    constructor
    · intro name known
      cases h with
      | completed produced puts => exact puts.latest name (.inl known)
    · intro name out
      obtain ⟨key, d, mem, found, out⟩ := out
      have own : key = ⟨space.spaceId, index, t.taskId⟩ := by
        cases h with
        | completed produced puts =>
          simpa [Deed.mark?, produced.marks] using mem
      subst own
      rw [defined] at found
      cases found
      exact h.outputs dry out
  | error e =>
    cases h with
    | failed produced =>
      refine ⟨fun _ known => known, ?_⟩
      intro name out
      obtain ⟨key, d, mem, -⟩ := out
      simp [Deed.mark?, produced.marks] at mem

/-- Where a task lacks an input, neither its space nor any task has given it a value. -/
theorem TaskCourse.lacks (dry : c.options.dryRun = true) {t : TaskDefinition} {l l' : Ledger}
    {deeds : List Deed} {at_ task name : String} {i : Nat}
    (h : c.TaskCourse kept space index set t l deeds (.error (.missingInput at_ i task name)) l') :
    at_ = space.spaceId ∧ t.taskId = task ∧ name ∈ t.inputData ∧
      space.inputData.get? name = none ∧ l'.latest name = none := by
  cases h with
  | failed produced =>
    obtain ⟨-, ⟨e, uncalled, same⟩ | values⟩ := produced.dry dry
    · cases same
      rcases commandOf_eq_error uncalled with ⟨other, wrong⟩ | ⟨other, mem, missing⟩ | ⟨_, wrong⟩
      · cases wrong
      · obtain ⟨same, initial, latest⟩ := input_eq_error missing
        cases same
        exact ⟨rfl, rfl, mem, initial, latest⟩
      · cases wrong
    · cases values

variable {tasks : List TaskDefinition}

theorem TasksCourse.supplies (dry : c.options.dryRun = true)
    (defined : ∀ t ∈ tasks, c.artifact.task? t.taskId = some t) {l l' : Ledger}
    {deeds : List Deed} {r : Except RunError Unit}
    (h : c.TasksCourse kept space index set tasks l deeds r l') :
    c.Supplies l.latest deeds l'.latest := by
  induction h with
  | nil => exact .refl _
  | failed first => exact first.supplies dry (defined _ List.mem_cons_self)
  | stopped _ first => exact first.supplies dry (defined _ List.mem_cons_self)
  | cons first _ ih =>
    exact (first.supplies dry (defined _ List.mem_cons_self)).trans
      (ih fun t mem => defined t (List.mem_cons_of_mem _ mem))

theorem TasksCourse.lacks (dry : c.options.dryRun = true)
    (defined : ∀ t ∈ tasks, c.artifact.task? t.taskId = some t) {l l' : Ledger}
    {deeds : List Deed} {at_ task name : String} {i : Nat}
    (h : c.TasksCourse kept space index set tasks l deeds
      (.error (.missingInput at_ i task name)) l') :
    at_ = space.spaceId ∧ Lacks space tasks task name l'.latest := by
  generalize hr : (.error (.missingInput at_ i task name) : Except RunError Unit) = r at h
  induction h with
  | nil => cases hr
  | stopped => cases hr
  | @failed t rest _ _ _ _ first =>
    cases hr
    obtain ⟨rfl, own, mem, initial, latest⟩ := first.lacks dry
    exact ⟨rfl, ⟨[], t, rest, rfl, own, mem, nofun⟩, initial, latest⟩
  | @cons t rest l l' l'' deeds _ _ first others ih =>
    have later (u : TaskDefinition) (mem : u ∈ rest) := defined u (List.mem_cons_of_mem _ mem)
    obtain ⟨rfl, ⟨before, u, after, rfl, own, mem, none⟩, initial, latest⟩ := ih later hr
    refine ⟨rfl, ⟨t :: before, u, after, rfl, own, mem, ?_⟩, initial, latest⟩
    intro v among
    rcases List.mem_cons.1 among with rfl | among
    · -- The first task has given its outputs values, and these have not been lost since.
      intro out
      have known := (others.supplies dry later).retains name (first.outputs dry out)
      rw [latest] at known
      cases known
    · exact none v among

end Parts

/-! ## Sets and visits -/

section Visits

variable {space : SpaceDefinition} {tasks : List TaskDefinition}

theorem SetsCourse.supplies (dry : c.options.dryRun = true)
    (defined : ∀ t ∈ tasks, c.artifact.task? t.taskId = some t)
    {sets : List (ParameterSet × Nat)} {l l' : Ledger} {deeds : List Deed}
    {r : Except RunError Unit} (h : c.SetsCourse kept space tasks sets l deeds r l') :
    c.Supplies l.latest deeds l'.latest := by
  induction h with
  | nil => exact .refl _
  | skipped _ _ ih => exact ih
  | broken _ first => exact first.supplies dry defined
  | stopped _ _ first => exact first.supplies dry defined
  | cons _ first _ ih => exact (first.supplies dry defined).trans ih

theorem SetsCourse.lacks (dry : c.options.dryRun = true)
    (defined : ∀ t ∈ tasks, c.artifact.task? t.taskId = some t)
    {sets : List (ParameterSet × Nat)} {l l' : Ledger} {deeds : List Deed}
    {at_ task name : String} {i : Nat}
    (h : c.SetsCourse kept space tasks sets l deeds
      (.error (.missingInput at_ i task name)) l') :
    at_ = space.spaceId ∧ Lacks space tasks task name l'.latest := by
  generalize hr : (.error (.missingInput at_ i task name) : Except RunError Unit) = r at h
  induction h with
  | nil => cases hr
  | skipped _ _ ih => exact ih hr
  | broken _ first =>
    cases hr
    exact first.lacks dry defined
  | stopped => cases hr
  | cons _ _ _ ih => exact ih hr

theorem openSpace_latest (l : Ledger) (space : String) :
    (l.openSpace space).latest = l.latest := by
  rw [Ledger.openSpace]
  split <;> rfl

theorem clear_latest (l : Ledger) (space : String) : (l.clear space).latest = l.latest := by
  rw [Ledger.clear]
  split <;> rfl

theorem VisitCourse.supplies (dry : c.options.dryRun = true) {l l' : Ledger} {deeds : List Deed}
    {r : Except RunError Unit} (h : c.VisitCourse kept space l deeds r l') :
    c.Supplies l.latest deeds l'.latest := by
  rw [← openSpace_latest l space.spaceId]
  cases h with
  | unknownTask => exact .refl _
  | broken known sets => exact sets.supplies dry fun t mem => task?_of_mem_tasksOf known mem
  | completed known sets => exact sets.supplies dry fun t mem => task?_of_mem_tasksOf known mem

theorem VisitCourse.lacks (dry : c.options.dryRun = true) {l l' : Ledger} {deeds : List Deed}
    {at_ task name : String} {i : Nat}
    (h : c.VisitCourse kept space l deeds (.error (.missingInput at_ i task name)) l') :
    ∃ tasks, c.tasksOf space = .ok tasks ∧ at_ = space.spaceId ∧
      Lacks space tasks task name l'.latest := by
  cases h with
  | unknownTask unknown =>
    obtain ⟨id, -, wrong⟩ := exists_of_mapM_error unknown
    split at wrong <;> cases wrong
  | broken known sets =>
    exact ⟨_, known, sets.lacks dry fun t mem => task?_of_mem_tasksOf known mem⟩

theorem EntryCourse.supplies (dry : c.options.dryRun = true) {goesOn : Bool} {l l' : Ledger}
    {deeds : List Deed} {r : Except RunError Unit}
    (h : c.EntryCourse kept space goesOn l deeds r l') :
    c.Supplies l.latest deeds l'.latest := by
  cases h with
  | skipped => exact .refl _
  | broken _ visit => exact clear_latest l space.spaceId ▸ visit.supplies dry
  | stopped _ _ visit => exact clear_latest l space.spaceId ▸ visit.supplies dry
  | completed _ visit => exact clear_latest l space.spaceId ▸ visit.supplies dry

theorem EntryCourse.lacks (dry : c.options.dryRun = true) {goesOn : Bool} {l l' : Ledger}
    {deeds : List Deed} {at_ task name : String} {i : Nat}
    (h : c.EntryCourse kept space goesOn l deeds (.error (.missingInput at_ i task name)) l') :
    ∃ tasks, c.tasksOf space = .ok tasks ∧ at_ = space.spaceId ∧
      Lacks space tasks task name l'.latest := by
  cases h with
  | broken _ visit => exact visit.lacks dry

end Visits

/-! ## The whole run -/

theorem TraverseCourse.supplies (dry : c.options.dryRun = true) {visits : Nat} {current : String}
    {goesOn : Bool} {l l' : Ledger} {answers left : Answers} {deeds : List Deed}
    {r : Except RunError Bool}
    (h : c.TraverseCourse kept visits current goesOn l answers deeds r l' left) :
    c.Supplies l.latest deeds l'.latest := by
  induction h with
  | finished => exact .refl _
  | exhausted => exact .refl _
  | unknownSpace => exact .refl _
  | broken _ _ _ _ entry => exact entry.supplies dry
  | stuck _ _ _ entry => exact entry.supplies dry
  | step _ _ entry _ _ ih => exact (entry.supplies dry).trans ih

theorem TraverseCourse.lacks (dry : c.options.dryRun = true) {visits : Nat} {current : String}
    {goesOn : Bool} {l l' : Ledger} {answers left : Answers} {deeds : List Deed}
    {at_ task name : String} {i : Nat}
    (h : c.TraverseCourse kept visits current goesOn l answers deeds
      (.error (.missingInput at_ i task name)) l' left) :
    ∃ space ∈ c.artifact.spaces, ∃ tasks, c.tasksOf space = .ok tasks ∧ at_ = space.spaceId ∧
      Lacks space tasks task name l'.latest := by
  generalize hr : (.error (.missingInput at_ i task name) : Except RunError Bool) = r at h
  induction h with
  | finished => cases hr
  | exhausted => cases hr
  | unknownSpace => cases hr
  | broken _ _ _ found entry =>
    cases hr
    exact ⟨_, List.mem_of_find?_eq_some found, entry.lacks dry⟩
  | stuck _ _ _ _ chosen =>
    cases hr
    cases (error_of_nextOn chosen).1
  | step _ _ _ _ _ ih => exact ih hr

/-- Where a dry run from the beginning fails for want of an input, the space starts without it, and
no task completed in the run or standing before in the space puts it out. -/
theorem dryRun_lacks (reliable : c.host.Reliable c.runId kept) (dry : c.options.dryRun = true)
    {s : Session S} (fresh : c.Fresh kept s) {visits : Nat} {at_ task name : String} {i : Nat}
    (failed : (c.run visits s).1 = .error (.missingInput at_ i task name)) :
    ∃ space ∈ c.artifact.spaces, ∃ tasks latest, c.tasksOf space = .ok tasks ∧
      at_ = space.spaceId ∧ Lacks space tasks task name latest ∧
      ∃ marks, (c.run visits s).2.marks = s.marks ++ marks ∧ ¬ c.PutOut marks name := by
  obtain ⟨w, stands, deeds, r, l, course, grown, concludes⟩ := run_follows reliable visits fresh
  have ended : r = .error (.missingInput at_ i task name) := by
    rw [failed] at concludes
    exact concludes.error_eq rfl
  subst ended
  obtain ⟨space, mem, tasks, known, own, lacks⟩ := course.lacks dry
  refine ⟨space, mem, tasks, l.latest, known, own, lacks, _, marks_of_stands stands grown,
    fun out => ?_⟩
  have supplied := (course.supplies dry).supplied name out
  rw [lacks.latest] at supplied
  cases supplied

end Sweep.Conduct
