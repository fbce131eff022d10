import Sweep.Proofs.Run.Calls
import Sweep.Proofs.Run.NestedLoops

/-!
# Where recorded values come from

A call leaves a parameter set alone, or it carries the tasks of its space out in it. If the set is
completed afterwards, then in the first case it was completed before and its values are still the
same, and in the second case every value comes from a task that the call itself has carried out.
The proof follows the course of a call: a part of it works in one set at most, and there it puts
what its tasks have produced.
-/

namespace Sweep

variable {S : Type}

namespace Ledger

/-- A set is left alone between two ledgers: it may have been forgotten, but none of its tasks has
been started, and its values are the same. -/
structure Untouched (id : String) (index : Nat) (deeds : List Deed) (l l' : Ledger) : Prop where
  sets : l'.sets (id, index) = some .completed → l.sets (id, index) = some .completed
  values : ∀ name, l'.values (id, index, name) = l.values (id, index, name)
  unstarted : ∀ task, .marked ⟨id, index, task⟩ .started ∉ deeds

namespace Untouched

variable {id : String} {index : Nat} {deeds deeds' : List Deed} {l l' l'' : Ledger}

theorem of_same (sets : l'.sets = l.sets) (values : l'.values = l.values) :
    Untouched id index [] l l' :=
  ⟨fun completed => sets ▸ completed, fun _ => by rw [values], nofun⟩

theorem trans (first : Untouched id index deeds l l') (second : Untouched id index deeds' l' l'') :
    Untouched id index (deeds ++ deeds') l l'' where
  sets completed := first.sets (second.sets completed)
  values name := (second.values name).trans (first.values name)
  unstarted task mem := by
    obtain before | after := List.mem_append.1 mem
    · exact first.unstarted task before
    · exact second.unstarted task after

/-- What else happens to neither the sets nor the values. -/
theorem aside (h : Untouched id index deeds l l') (sets : l''.sets = l'.sets)
    (values : l''.values = l'.values) : Untouched id index deeds l l'' := by
  simpa using h.trans (.of_same sets values)

/-- A change of another set. -/
theorem setSet {other : String} {i : Nat} (apart : (id, index) ≠ (other, i))
    (status : UnitStatus) : Untouched id index [] l (l.setSet other i status) where
  sets completed := by
    simpa only [Ledger.setSet, Function.update_of_ne apart] using completed
  values _ := rfl
  unstarted := nofun

theorem clear (space : String) : Untouched id index [] l (l.clear space) := by
  rw [Ledger.clear]
  split
  · refine ⟨fun completed => ?_, fun _ => rfl, fun _ => List.not_mem_nil⟩
    simp only [Ledger.reset] at completed
    split at completed
    · cases completed
    · exact completed
  · exact of_same rfl rfl

theorem openSpace (space : String) : Untouched id index [] l (l.openSpace space) := by
  rw [Ledger.openSpace]
  split <;> exact of_same rfl rfl

end Untouched

end Ledger

namespace Conduct

variable (c : Conduct S) (kept : S → Prop)

/-- A value comes from a task of a space that a call has carried out in a set, from its start to its
completion: the program that was launched in between told it, or nothing was launched because
commands are only shown, and it is the mark of that. -/
inductive Source (space : SpaceDefinition) (index : Nat) (deeds : List Deed)
    (name value : String) : Prop
  | process {t : TaskDefinition} {command : Command} {s : S} {values : List String} :
      c.options.dryRun = false → t.taskId ∈ space.tasksOrder → c.artifact.task? t.taskId = some t →
      [.marked ⟨space.spaceId, index, t.taskId⟩ .started, .launched command,
        .marked ⟨space.spaceId, index, t.taskId⟩ .completed] <:+: deeds → kept s →
      t.outcome command (c.host.launch command s).1 = .ok values →
      (name, value) ∈ t.outputData.zip values → Source space index deeds name value
  | preview {t : TaskDefinition} :
      c.options.dryRun = true → t.taskId ∈ space.tasksOrder → c.artifact.task? t.taskId = some t →
      [.marked ⟨space.spaceId, index, t.taskId⟩ .started,
        .marked ⟨space.spaceId, index, t.taskId⟩ .completed] <:+: deeds →
      name ∈ t.outputData → value = previewValue → Source space index deeds name value

/-- Between two ledgers some names were given their values by tasks of a set, and the values of all
other names of the set are the same. -/
structure Provides (space : SpaceDefinition) (index : Nat) (names : String → Prop)
    (deeds : List Deed) (l l' : Ledger) : Prop where
  given : ∀ name, names name → ∃ value,
    l'.values (space.spaceId, index, name) = some value ∧
      c.Source kept space index deeds name value
  others : ∀ name, ¬names name →
    l'.values (space.spaceId, index, name) = l.values (space.spaceId, index, name)

/-- Between two ledgers the values of a space have changed by its tasks only: a set that is
completed afterwards was left alone, or all that its tasks put out comes from them. -/
structure Sources (space : SpaceDefinition) (deeds : List Deed) (l l' : Ledger) : Prop where
  named : ∀ index name, (l'.values (space.spaceId, index, name)).isSome →
    (l.values (space.spaceId, index, name)).isSome ∨ c.artifact.PutsOut space.tasksOrder name
  completed : ∀ index, l'.sets (space.spaceId, index) = some .completed →
    Ledger.Untouched space.spaceId index deeds l l' ∨
      ∀ name, c.artifact.PutsOut space.tasksOrder name → ∃ value,
        l'.values (space.spaceId, index, name) = some value ∧
          c.Source kept space index deeds name value

variable {c kept} {space : SpaceDefinition} {index : Nat} {deeds deeds' : List Deed}
  {l l' l'' : Ledger}

theorem Source.mono {name value : String} (h : c.Source kept space index deeds name value)
    (more : deeds <:+: deeds') : c.Source kept space index deeds' name value := by
  cases h with
  | process real mem known within here told given =>
    exact .process real mem known (within.trans more) here told given
  | preview dry mem known within out mark =>
    exact .preview dry mem known (within.trans more) out mark

namespace Provides

variable {names names' : String → Prop}

theorem refl (l : Ledger) : c.Provides kept space index (fun _ => False) [] l l :=
  ⟨fun _ => False.elim, fun _ _ => rfl⟩

theorem trans (first : c.Provides kept space index names deeds l l')
    (second : c.Provides kept space index names' deeds' l' l'') :
    c.Provides kept space index (fun name => names name ∨ names' name) (deeds ++ deeds') l l'' where
  given name among := by
    by_cases later : names' name
    · obtain ⟨value, found, source⟩ := second.given name later
      exact ⟨value, found, source.mono (List.suffix_append _ _).isInfix⟩
    · obtain ⟨value, found, source⟩ := first.given name (among.resolve_right later)
      exact ⟨value, (second.others name later).trans found,
        source.mono (List.prefix_append _ _).isInfix⟩
  others name none :=
    (second.others name fun later => none (.inr later)).trans
      (first.others name fun earlier => none (.inl earlier))

theorem congr (h : c.Provides kept space index names deeds l l')
    (same : ∀ name, names name ↔ names' name) : c.Provides kept space index names' deeds l l' :=
  ⟨fun name among => h.given name ((same name).2 among),
    fun name none => h.others name fun among => none ((same name).1 among)⟩

end Provides

namespace Sources

theorem of_untouched (untouched : ∀ index, Ledger.Untouched space.spaceId index deeds l l') :
    c.Sources kept space deeds l l' :=
  ⟨fun index name known => .inl ((untouched index).values name ▸ known),
    fun index _ => .inl (untouched index)⟩

theorem trans (first : c.Sources kept space deeds l l')
    (second : c.Sources kept space deeds' l' l'') :
    c.Sources kept space (deeds ++ deeds') l l'' where
  named index name known := by
    obtain before | out := second.named index name known
    · exact first.named index name before
    · exact .inr out
  completed index done := by
    obtain untouched | given := second.completed index done
    · obtain earlier | given := first.completed index (untouched.sets done)
      · exact .inl (earlier.trans untouched)
      · right
        intro name out
        obtain ⟨value, found, source⟩ := given name out
        exact ⟨value, (untouched.values name).trans found,
          source.mono (List.prefix_append _ _).isInfix⟩
    · right
      intro name out
      obtain ⟨value, found, source⟩ := given name out
      exact ⟨value, found, source.mono (List.suffix_append _ _).isInfix⟩

theorem aside (h : c.Sources kept space deeds l l') (sets : l''.sets = l'.sets)
    (values : l''.values = l'.values) : c.Sources kept space deeds l l'' := by
  simpa using h.trans (.of_untouched fun _ => .of_same sets values)

end Sources

/-! ## Tasks -/

section Tasks

variable {set : ParameterSet} {id : String} {i : Nat}

/-- Values that are put change a set at their names. -/
theorem Puts.provides {outputs : List (String × String)} (h : c.Puts space index outputs l l')
    (source : ∀ p ∈ outputs, c.Source kept space index deeds p.1 p.2) :
    c.Provides kept space index (fun name => name ∈ outputs.map (·.1)) deeds l l' := by
  induction h with
  | nil => exact ⟨nofun, fun _ _ => rfl⟩
  | @cons name value last rest l l' _ _ ih =>
    obtain ⟨given, others⟩ := ih fun p mem => source p (List.mem_cons_of_mem _ mem)
    constructor
    · intro name' among
      by_cases later : name' ∈ rest.map (·.1)
      · exact given name' later
      · obtain rfl := (List.mem_cons.1 among).resolve_right later
        refine ⟨value, ?_, source _ List.mem_cons_self⟩
        rw [others name' later]
        simp [Ledger.put]
    · intro name' none
      rw [List.map_cons, List.mem_cons, not_or] at none
      rw [others name' none.2]
      simp [Ledger.put, none.1]

/-- Values that are put leave other sets alone. -/
theorem Puts.untouched {outputs : List (String × String)}
    (h : c.Puts space index outputs l l') (apart : (id, i) ≠ (space.spaceId, index)) :
    Ledger.Untouched id i [] l l' := by
  induction h with
  | nil => exact .of_same rfl rfl
  | @cons name value last rest l₁ l' _ _ ih =>
    have first : Ledger.Untouched id i [] l₁ (l₁.put space.spaceId index name value last) := by
      refine ⟨fun completed => completed, fun name' => ?_, nofun⟩
      have other : (id, i, name') ≠ (space.spaceId, index, name) := fun same =>
        apart (by cases same; rfl)
      simp only [Ledger.put, Function.update_of_ne other]
    exact first.trans ih

theorem CarriesOut.length_eq {t : TaskDefinition} {command : Command} {values : List String}
    (h : c.CarriesOut kept t command deeds (.ok values)) :
    values.length = t.outputData.length := by
  generalize hr : (.ok values : Except TaskError (List String)) = r at h
  cases h with
  | shown =>
    cases hr
    exact List.length_map _
  | ran s =>
    cases launched : (c.host.launch command s).1 with
    | error fault =>
      rw [launched] at hr
      cases hr
    | ok completion =>
      rw [launched] at hr
      exact Completion.length_of_values hr.symm

/-- What a task gives that is started, carried out and completed comes from it. -/
theorem CarriesOut.source {t : TaskDefinition} {command : Command} {produced : List Deed}
    {values : List String} (mem : t.taskId ∈ space.tasksOrder)
    (known : c.artifact.task? t.taskId = some t)
    (h : c.CarriesOut kept t command produced (.ok values)) {p : String × String}
    (given : p ∈ t.outputData.zip values) :
    c.Source kept space index (.marked ⟨space.spaceId, index, t.taskId⟩ .started :: produced ++
      [.marked ⟨space.spaceId, index, t.taskId⟩ .completed]) p.1 p.2 := by
  generalize hr : (.ok values : Except TaskError (List String)) = r at h
  cases h with
  | shown dry =>
    cases hr
    obtain ⟨out, mark⟩ := List.of_mem_zip given
    obtain ⟨-, -, same⟩ := List.mem_map.1 mark
    exact .preview dry mem known List.infix_rfl out same.symm
  | ran s real here => exact .process real mem known List.infix_rfl here hr.symm given

/-- To carry a task out is no start of a task. -/
theorem Produces.not_started {t : TaskDefinition} {r : Except RunError (List String)}
    (h : c.Produces kept space index set l t deeds r) (key : TaskKey) :
    .marked key .started ∉ deeds := by
  intro mem
  have marked : (key, .started) ∈ deeds.filterMap Deed.mark? :=
    List.mem_filterMap.2 ⟨_, mem, rfl⟩
  rw [h.marks] at marked
  cases marked

/-- A task that is completed provides what it puts out. -/
theorem TaskCourse.provides {t : TaskDefinition} (mem : t.taskId ∈ space.tasksOrder)
    (known : c.artifact.task? t.taskId = some t)
    (h : c.TaskCourse kept space index set t l deeds (.ok ()) l') :
    c.Provides kept space index (fun name => name ∈ t.outputData) deeds l l' := by
  cases h with
  | @completed produced values l' produces puts =>
    obtain ⟨command, carried⟩ : ∃ command, c.CarriesOut kept t command produced (.ok values) := by
      generalize hr : (.ok values : Except RunError (List String)) = r at produces
      cases produces with
      | noCommand => cases hr
      | @carriesOut command _ r _ carried =>
        cases r with
        | error => cases hr
        | ok => cases hr; exact ⟨command, carried⟩
    have provides := puts.provides fun p given => carried.source mem known given
    rw [List.map_fst_zip (Nat.le_of_eq carried.length_eq.symm)] at provides
    exact ⟨provides.given, provides.others⟩

/-- The deeds of a task start it and no other. -/
theorem not_started_of_task {t : TaskDefinition} {produced : List Deed} {mark : TaskMark}
    {r : Except RunError (List String)}
    (produces : c.Produces kept space index set l t produced r) (ends : mark ≠ .started)
    (apart : (id, i) ≠ (space.spaceId, index)) (task : String) :
    .marked ⟨id, i, task⟩ .started ∉ .marked ⟨space.spaceId, index, t.taskId⟩ .started ::
      produced ++ [.marked ⟨space.spaceId, index, t.taskId⟩ mark] := by
  intro mem
  rw [List.cons_append, List.mem_cons, List.mem_append, List.mem_singleton] at mem
  obtain same | started | same := mem
  · cases same
    exact apart rfl
  · exact produces.not_started _ started
  · cases same
    exact ends rfl

/-- A task leaves other sets alone than the one that it is carried out in. -/
theorem TaskCourse.untouched {t : TaskDefinition} {r : Except RunError Unit}
    (h : c.TaskCourse kept space index set t l deeds r l')
    (apart : (id, i) ≠ (space.spaceId, index)) : Ledger.Untouched id i deeds l l' := by
  cases h with
  | completed produces puts =>
    have others := puts.untouched apart
    exact ⟨others.sets, others.values, not_started_of_task produces (by simp) apart⟩
  | failed produces =>
    have others := Ledger.Untouched.setSet (l := l) apart .failed
    exact ⟨others.sets, others.values, not_started_of_task produces (by simp) apart⟩

/-- What a task puts out has a name that it declares. -/
theorem TaskCourse.named {t : TaskDefinition} {r : Except RunError Unit}
    (mem : t.taskId ∈ space.tasksOrder) (known : c.artifact.task? t.taskId = some t)
    (h : c.TaskCourse kept space index set t l deeds r l') (name : String)
    (found : (l'.values (space.spaceId, index, name)).isSome) :
    (l.values (space.spaceId, index, name)).isSome ∨ c.artifact.PutsOut space.tasksOrder name := by
  cases r with
  | ok =>
    by_cases out : name ∈ t.outputData
    · exact .inr ⟨t.taskId, mem, t, known, out⟩
    · exact .inl ((h.provides mem known).others name out ▸ found)
  | error e =>
    cases h with
    | failed => exact .inl found

/-- A task completes no set. -/
theorem TaskCourse.stays_open {t : TaskDefinition} {r : Except RunError Unit}
    (h : c.TaskCourse kept space index set t l deeds r l')
    (open_ : l.sets (space.spaceId, index) ≠ some .completed) :
    l'.sets (space.spaceId, index) ≠ some .completed := by
  cases r with
  | ok =>
    rw [h.frame]
    exact open_
  | error e =>
    cases h with
    | failed => simp [Ledger.setSet, Ledger.setSpace]

/-! ## Tasks one after the other -/

variable {tasks : List TaskDefinition}

/-- Tasks that are completed provide what each of them puts out. -/
theorem TasksCourse.provides (known : ∀ t ∈ tasks,
      t.taskId ∈ space.tasksOrder ∧ c.artifact.task? t.taskId = some t)
    (h : c.TasksCourse kept space index set tasks l deeds (.ok ()) l') :
    c.Provides kept space index (PutsOut tasks) deeds l l' := by
  generalize hr : (.ok () : Except RunError Unit) = r at h
  induction h with
  | nil => exact (Provides.refl _).congr fun name => by simp [PutsOut]
  | failed => cases hr
  | stopped => cases hr
  | @cons t rest _ _ _ _ _ _ first _ ih =>
    obtain ⟨mem, found⟩ := known t List.mem_cons_self
    have later := ih (fun u among => known u (List.mem_cons_of_mem _ among)) hr
    exact ((first.provides mem found).trans later).congr fun name => by simp [PutsOut]

theorem TasksCourse.untouched {r : Except RunError Unit}
    (h : c.TasksCourse kept space index set tasks l deeds r l')
    (apart : (id, i) ≠ (space.spaceId, index)) : Ledger.Untouched id i deeds l l' := by
  induction h with
  | nil => exact .of_same rfl rfl
  | failed first => exact first.untouched apart
  | stopped _ first => exact (first.untouched apart).aside rfl rfl
  | cons first _ ih => exact (first.untouched apart).trans ih

/-- So do tasks that are carried out in a set from its start to its end. -/
theorem TasksCourse.untouched_completed
    (h : c.TasksCourse kept space index set tasks (l.setSet space.spaceId index .running) deeds
      (.ok ()) l') (apart : (id, i) ≠ (space.spaceId, index)) :
    Ledger.Untouched id i deeds l (l'.setSet space.spaceId index .completed) := by
  have starts : Ledger.Untouched id i [] l (l.setSet space.spaceId index .running) :=
    .setSet apart .running
  simpa using (starts.trans (h.untouched apart)).trans (.setSet apart .completed)

theorem TasksCourse.named {r : Except RunError Unit} (known : ∀ t ∈ tasks,
      t.taskId ∈ space.tasksOrder ∧ c.artifact.task? t.taskId = some t)
    (h : c.TasksCourse kept space index set tasks l deeds r l') (name : String)
    (found : (l'.values (space.spaceId, index, name)).isSome) :
    (l.values (space.spaceId, index, name)).isSome ∨ c.artifact.PutsOut space.tasksOrder name := by
  induction h with
  | nil => exact .inl found
  | @failed t _ _ _ _ _ first | @stopped t _ _ _ _ _ first =>
    obtain ⟨mem, task⟩ := known t List.mem_cons_self
    exact first.named mem task name found
  | @cons t _ _ _ _ _ _ _ first _ ih =>
    obtain ⟨mem, task⟩ := known t List.mem_cons_self
    exact (ih (fun u among => known u (List.mem_cons_of_mem _ among)) found).elim
      (first.named mem task name) .inr

theorem TasksCourse.stays_open {r : Except RunError Unit}
    (h : c.TasksCourse kept space index set tasks l deeds r l')
    (open_ : l.sets (space.spaceId, index) ≠ some .completed) :
    l'.sets (space.spaceId, index) ≠ some .completed := by
  induction h with
  | nil => exact open_
  | failed first => exact first.stays_open open_
  | stopped _ first => exact first.stays_open open_
  | cons first _ ih => exact ih (first.stays_open open_)

end Tasks

/-! ## Sets -/

section Sets

variable {tasks : List TaskDefinition} {id : String} {r : Except RunError Unit}

/-- The tasks of a space are found by the identities of its order. -/
theorem found_of_tasksOf (known : c.tasksOf space = .ok tasks) :
    ∀ t ∈ tasks, t.taskId ∈ space.tasksOrder ∧ c.artifact.task? t.taskId = some t :=
  fun _ mem => ⟨tasksOf_taskIds known ▸ List.mem_map_of_mem mem, task?_of_mem_tasksOf known mem⟩

theorem putsOut_of_tasksOf (known : c.tasksOf space = .ok tasks) {name : String}
    (out : c.artifact.PutsOut space.tasksOrder name) : PutsOut tasks name := by
  obtain ⟨id, mem, t, task, among⟩ := out
  rw [← tasksOf_taskIds known] at mem
  obtain ⟨u, here, rfl⟩ := List.mem_map.1 mem
  obtain rfl := Option.some.inj ((task?_of_mem_tasksOf known here).symm.trans task)
  exact ⟨u, here, among⟩

/-- What tasks leave that are carried out in a set that is not completed. -/
theorem TasksCourse.sources {set : ParameterSet} (known : c.tasksOf space = .ok tasks)
    (h : c.TasksCourse kept space index set tasks (l.setSet space.spaceId index .running) deeds r
      l') : c.Sources kept space deeds l l' := by
  constructor
  · intro i name found
    by_cases here : i = index
    · subst here
      exact h.named (found_of_tasksOf known) name found
    · have apart : (space.spaceId, i) ≠ (space.spaceId, index) := by simpa using here
      exact .inl ((h.untouched apart).values name ▸ found)
  · intro i completed
    have apart : (space.spaceId, i) ≠ (space.spaceId, index) := by
      rintro ⟨⟩
      exact h.stays_open (by simp [Ledger.setSet]) completed
    exact .inl (Ledger.Untouched.trans (.setSet apart .running) (h.untouched apart))

/-- What they leave if they are completed, and the set with them. -/
theorem TasksCourse.sources_completed {set : ParameterSet} (known : c.tasksOf space = .ok tasks)
    (h : c.TasksCourse kept space index set tasks (l.setSet space.spaceId index .running) deeds
      (.ok ()) l') :
    c.Sources kept space deeds l (l'.setSet space.spaceId index .completed) := by
  refine ⟨(h.sources known).named, ?_⟩
  intro i completed
  by_cases here : i = index
  · subst here
    right
    intro name out
    exact (h.provides (found_of_tasksOf known)).given name (putsOut_of_tasksOf known out)
  · have apart : (space.spaceId, i) ≠ (space.spaceId, index) := by simpa using here
    exact .inl (h.untouched_completed apart)

theorem SetsCourse.sources {sets : List (ParameterSet × Nat)} (known : c.tasksOf space = .ok tasks)
    (h : c.SetsCourse kept space tasks sets l deeds r l') : c.Sources kept space deeds l l' := by
  induction h with
  | nil => exact .of_untouched fun _ => .of_same rfl rfl
  | skipped _ _ ih => exact ih
  | broken _ first => exact first.sources known
  | stopped _ _ first => exact (first.sources_completed known).aside rfl rfl
  | cons _ first _ ih => exact (first.sources_completed known).trans ih

/-- Sets that are gone through leave other spaces alone. -/
theorem SetsCourse.untouched {sets : List (ParameterSet × Nat)} (apart : id ≠ space.spaceId)
    (h : c.SetsCourse kept space tasks sets l deeds r l') (i : Nat) :
    Ledger.Untouched id i deeds l l' := by
  have other (index : Nat) : (id, i) ≠ (space.spaceId, index) := fun same =>
    apart (congrArg Prod.fst same)
  induction h with
  | nil => exact .of_same rfl rfl
  | skipped _ _ ih => exact ih
  | broken _ first =>
    exact Ledger.Untouched.trans (.setSet (other _) .running) (first.untouched (other _))
  | stopped _ _ first => exact (first.untouched_completed (other _)).aside rfl rfl
  | cons _ first _ ih => exact (first.untouched_completed (other _)).trans ih

end Sets

/-! ## Visits -/

section Visits

variable {visited : SpaceDefinition} {r : Except RunError Unit} {goesOn : Bool}

/-- A visit of a space changes the values of no other one, and those of its own by its tasks. -/
theorem VisitCourse.sources (same : visited.spaceId = space.spaceId → visited = space)
    (h : c.VisitCourse kept visited l deeds r l') : c.Sources kept space deeds l l' := by
  have opens : c.Sources kept space [] l (l.openSpace visited.spaceId) :=
    .of_untouched fun _ => .openSpace _
  have sets {tasks : List TaskDefinition} {sets : List (ParameterSet × Nat)} {l l' : Ledger}
      {r : Except RunError Unit} (known : c.tasksOf visited = .ok tasks)
      (h : c.SetsCourse kept visited tasks sets l deeds r l') :
      c.Sources kept space deeds l l' := by
    by_cases here : visited.spaceId = space.spaceId
    · obtain rfl := same here
      exact h.sources known
    · exact .of_untouched (h.untouched (Ne.symm here))
  cases h with
  | unknownTask => exact opens
  | broken known course => exact opens.trans (sets known course)
  | completed known course => exact (opens.trans (sets known course)).aside rfl rfl

theorem EntryCourse.sources (same : visited.spaceId = space.spaceId → visited = space)
    (h : c.EntryCourse kept visited goesOn l deeds r l') : c.Sources kept space deeds l l' := by
  have clears : c.Sources kept space [] l (l.clear visited.spaceId) :=
    .of_untouched fun _ => .clear _
  cases h with
  | skipped => exact .of_untouched fun _ => .of_same rfl rfl
  | broken _ visit => exact clears.trans (visit.sources same)
  | stopped _ _ visit => exact (clears.trans (visit.sources same)).aside rfl rfl
  | completed _ visit => exact clears.trans (visit.sources same)

end Visits

/-! ## Calls -/

theorem TraverseCourse.sources (found : c.artifact.space? space.spaceId = some space)
    {visits : Nat} {current : String} {goesOn : Bool} {answers left : Answers}
    {r : Except RunError Bool}
    (h : c.TraverseCourse kept visits current goesOn l answers deeds r l' left) :
    c.Sources kept space deeds l l' := by
  have same {current : String} {visited : SpaceDefinition}
      (known : c.artifact.space? current = some visited)
      (here : visited.spaceId = space.spaceId) : visited = space := by
    rw [Artifact.space?_spaceId known |>.symm, here, found] at known
    exact (Option.some.inj known).symm
  have enters (l : Ledger) (id : String) : c.Sources kept space [] l (l.enter id) :=
    .of_untouched fun _ => .of_same rfl rfl
  induction h with
  | finished => exact enters _ _
  | exhausted => exact .of_untouched fun _ => .of_same rfl rfl
  | unknownSpace => exact .of_untouched fun _ => .of_same rfl rfl
  | broken _ _ _ known entry => exact (enters _ _).trans (entry.sources (same known))
  | stuck _ _ known entry => exact (enters _ _).trans (entry.sources (same known))
  | step _ known entry _ _ ih =>
    exact ((enters _ _).trans (entry.sources (same known))).trans ih

/-- A call changes the values of a space by its tasks only. -/
theorem DriveCourse.sources (found : c.artifact.space? space.spaceId = some space) {visits : Nat}
    {resumed : Bool} {v w : Standing} {r : Except RunError (Option RunSummary)}
    (h : c.DriveCourse kept visits resumed v r w) :
    ∃ deeds, w.deeds = v.deeds ++ deeds ∧ c.Sources kept space deeds v.ledger w.ledger := by
  obtain ⟨deeds, r', l, course, grown, concludes⟩ := h
  have begins : c.Sources kept space [] v.ledger (v.ledger.setStatus .running) :=
    .of_untouched fun _ => .of_same rfl rfl
  have way := begins.trans (course.sources found)
  have ends : c.Sources kept space [] l w.ledger := by
    refine .of_untouched fun _ => ?_
    generalize w.ledger = left at concludes
    cases concludes <;> exact .of_same rfl rfl
  exact ⟨deeds, grown, by simpa using way.trans ends⟩

end Conduct

end Sweep
