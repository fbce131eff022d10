import Sweep.Proofs.Run.Replay
import Sweep.Proofs.Run.WholeCourse

/-!
# Going on with a run that was terminated

A run can be terminated after any task, after any set and after any visit. What is then left to do
is what a fresh run would have had left to do there, except that a set that was broken off is
carried out again from its first task. If the tasks of every space are in order this makes no
difference: however often the run is terminated, going on with it leads to the same results, and
every deed on the way is one of the undisturbed run.

A set that was broken off leaves the values of its first tasks behind, and carrying it out again
finds them. Memories that differ in the values of some names only give the same course when each
task gets those names from a task before it, and they agree again when every name is written over.
So a set can be carried out again without a difference when its tasks are in order: what a task
takes in is not first put out by the task itself or a later one.
-/

namespace Sweep

/-! ## Carrying a parameter set out again -/

variable {S : Type}

def PutsOut (tasks : List TaskDefinition) (name : String) : Prop :=
  ∃ t ∈ tasks, name ∈ t.outputData

/-- What a task takes in and one of the tasks puts out is put out by a task before it. -/
def Ordered (tasks : List TaskDefinition) : Prop :=
  ∀ before t after, tasks = before ++ t :: after →
    ∀ name ∈ t.inputData, PutsOut tasks name → PutsOut before name

/-- Memories that agree but for the values of some names in a parameter set. -/
structure AgreeBut (space : String) (index : Nat) (names : String → Prop) (m m' : Memory) :
    Prop where
  values : ∀ k, (k.1 = space ∧ k.2.1 = index ∧ names k.2.2) ∨ m.values k = m'.values k
  latest : ∀ name, names name ∨ m.latest name = m'.latest name
  sets : m.sets = m'.sets
  spaces : m.spaces = m'.spaces

namespace AgreeBut

variable {space : String} {index : Nat} {names names' : String → Prop} {m m' m'' : Memory}

theorem refl (m : Memory) : AgreeBut space index names m m :=
  ⟨fun _ => .inr rfl, fun _ => .inr rfl, rfl, rfl⟩

theorem mono (h : AgreeBut space index names m m') (more : ∀ name, names name → names' name) :
    AgreeBut space index names' m m' :=
  ⟨fun k => (h.values k).imp_left fun ⟨s, i, n⟩ => ⟨s, i, more _ n⟩,
    fun name => (h.latest name).imp_left (more name), h.sets, h.spaces⟩

theorem trans (h : AgreeBut space index names m m') (h' : AgreeBut space index names m' m'') :
    AgreeBut space index names m m'' := by
  refine ⟨?_, ?_, h.sets.trans h'.sets, h.spaces.trans h'.spaces⟩
  · intro k
    rcases h.values k with apart | same
    · exact .inl apart
    · exact (h'.values k).imp_right same.trans
  · intro name
    rcases h.latest name with apart | same
    · exact .inl apart
    · exact (h'.latest name).imp_right same.trans

/-- Memories that agree but for nothing are the same. -/
theorem eq (h : AgreeBut space index (fun _ => False) m m') : m = m' :=
  Memory.ext (funext fun k => (h.values k).resolve_left fun ⟨_, _, no⟩ => no)
    (funext fun name => (h.latest name).resolve_left id) h.sets h.spaces

/-- After a name is put the memories agree on it. -/
theorem put (h : AgreeBut space index names m m') (name value : String) :
    AgreeBut space index (fun x => names x ∧ x ≠ name) (m.put space index name value)
      (m'.put space index name value) := by
  refine ⟨?_, ?_, h.sets, h.spaces⟩
  · rintro ⟨space', index', x⟩
    by_cases same : (space', index', x) = (space, index, name)
    · exact .inr (by simp [Memory.put, same])
    · rcases h.values (space', index', x) with ⟨s, i, n⟩ | agree
      · refine .inl ⟨s, i, n, fun hx => same ?_⟩
        rw [show space' = space from s, show index' = index from i, show x = name from hx]
      · exact .inr (by simpa [Memory.put, Function.update_of_ne same] using agree)
  · intro x
    by_cases same : x = name
    · exact .inr (by simp [Memory.put, same])
    · rcases h.latest x with n | agree
      · exact .inl ⟨n, same⟩
      · exact .inr (by simpa [Memory.put, Function.update_of_ne same] using agree)

theorem putAll (h : AgreeBut space index names m m') (outputs : List (String × String)) :
    AgreeBut space index (fun x => names x ∧ x ∉ outputs.map (·.1))
      (m.putAll space index outputs) (m'.putAll space index outputs) := by
  induction outputs generalizing m m' names with
  | nil => exact h.mono fun x n => ⟨n, List.not_mem_nil⟩
  | cons output rest ih =>
    refine (ih (h.put output.1 output.2)).mono fun x ⟨⟨n, apart⟩, others⟩ => ⟨n, ?_⟩
    simpa [apart] using others

/-- To put names changes them and nothing else. -/
theorem of_putAll (m : Memory) (outputs : List (String × String)) :
    AgreeBut space index (fun x => x ∈ outputs.map (·.1)) m (m.putAll space index outputs) := by
  induction outputs generalizing m with
  | nil => exact refl m
  | cons output rest ih =>
    obtain ⟨name, value⟩ := output
    have first : AgreeBut space index (fun x => x ∈ ((name, value) :: rest).map (·.1)) m
        (m.put space index name value) := by
      refine ⟨?_, ?_, rfl, rfl⟩
      · rintro ⟨space', index', x⟩
        by_cases same : (space', index', x) = (space, index, name)
        · cases same
          exact .inl ⟨rfl, rfl, by simp⟩
        · exact .inr (by simp [Memory.put, Function.update_of_ne same])
      · intro x
        by_cases same : x = name
        · exact .inl (by simp [same])
        · exact .inr (by simp [Memory.put, Function.update_of_ne same])
    exact first.trans ((ih _).mono fun x mem => by simp [List.mem_map.1 mem])

end AgreeBut

/-- Two courses with the same deeds that end in the same error or in memories that agree but for
the values of some names. -/
inductive Alike (space : String) (index : Nat) (names : String → Prop) :
    Logged Memory → Logged Memory → Prop
  | error (log : List Deed) (e : RunError) : Alike space index names (log, .error e) (log, .error e)
  | ok (log : List Deed) {m m' : Memory} : AgreeBut space index names m m' →
      Alike space index names (log, .ok m) (log, .ok m')

namespace Alike

variable {space : String} {index : Nat} {names names' : String → Prop} {x x' : Logged Memory}
  {f f' : Memory → Logged Memory}

theorem andThen (h : Alike space index names x x')
    (next : ∀ m m', AgreeBut space index names m m' → Alike space index names' (f m) (f' m')) :
    Alike space index names' (x.andThen f) (x'.andThen f') := by
  cases h with
  | error log e => exact .error log e
  | @ok log m m' agree =>
    have rest := next m m' agree
    simp only [Logged.ok_andThen]
    cases hf : f m
    cases hf' : f' m'
    rw [hf, hf'] at rest
    cases rest with
    | error => exact .error _ _
    | ok _ agree => exact .ok _ agree

theorem mono (h : Alike space index names x x') (more : ∀ name, names name → names' name) :
    Alike space index names' x x' := by
  cases h with
  | error log e => exact .error log e
  | ok log agree => exact .ok log (agree.mono more)

/-- Courses that are alike but for nothing are the same. -/
theorem eq (h : Alike space index (fun _ => False) x x') : x = x' := by
  cases h with
  | error => rfl
  | ok log agree => rw [agree.eq]

end Alike

namespace Conduct

variable {c : Conduct S} {programs : Command → Except LaunchFault Completion}
  {space : SpaceDefinition} {index : Nat} {set : ParameterSet}

/-- A task that produces anything produces a value for each of its outputs. -/
theorem length_of_produce {t : TaskDefinition} {m : Memory} {log : List Deed}
    {values : List String} (h : c.produce programs space index set t m = (log, .ok values)) :
    values.length = t.outputData.length := by
  rw [produce] at h
  split at h
  · cases h
  split at h
  · cases h
    simp
  · next command _ _ =>
    cases launched : programs command with
    | error fault =>
      rw [launched] at h
      cases h
    | ok completion =>
      rw [launched] at h
      cases found : completion.values t.outputData with
      | error e =>
        simp only [TaskDefinition.outcome, found] at h
        cases h
      | ok values =>
        simp only [TaskDefinition.outcome, found] at h
        cases h
        exact Completion.length_of_values found

variable (c programs set) in
/-- What a task produces depends on its inputs only. -/
theorem produce_congr {t : TaskDefinition} {names : String → Prop} {m m' : Memory}
    (agree : AgreeBut space.spaceId index names m m') (apart : ∀ x ∈ t.inputData, ¬names x) :
    c.produce programs space index set t m = c.produce programs space index set t m' := by
  have inputs : t.inputData.mapM (m.ledger.input space index t) =
      t.inputData.mapM (m'.ledger.input space index t) := by
    apply mapM_congr
    intro x mem
    have value := (agree.values (space.spaceId, index, x)).resolve_left
      fun ⟨_, _, n⟩ => apart x mem n
    have latest := (agree.latest x).resolve_left (apart x mem)
    simp only [Ledger.input, Memory.ledger, value, latest]
  rw [produce, produce, commandOf, commandOf, inputs]

/-- A task that is completed changes the values of its outputs and nothing else. -/
theorem agreeBut_of_replayTask {t : TaskDefinition} {m m' : Memory} {log : List Deed}
    (h : c.replayTask programs space index set t m = (log, .ok m')) :
    AgreeBut space.spaceId index (· ∈ t.outputData) m m' := by
  rw [replayTask] at h
  rcases produced : c.produce programs space index set t m with ⟨log', e | values⟩ <;>
    rw [produced] at h <;> cases h
  apply (AgreeBut.of_putAll m _).mono
  intro x mem
  rwa [List.map_fst_zip (Nat.le_of_eq (length_of_produce produced).symm)] at mem

variable (c programs set) in
/-- A task that takes in none of the names does the same, and its outputs agree afterwards. -/
theorem replayTask_alike {t : TaskDefinition} {names : String → Prop} {m m' : Memory}
    (agree : AgreeBut space.spaceId index names m m') (apart : ∀ x ∈ t.inputData, ¬names x) :
    Alike space.spaceId index (fun x => names x ∧ x ∉ t.outputData)
      (c.replayTask programs space index set t m) (c.replayTask programs space index set t m') := by
  have same := produce_congr c programs set agree apart
  rw [replayTask, replayTask, ← same]
  rcases produced : c.produce programs space index set t m with ⟨log, e | values⟩
  · exact .error _ e
  · refine .ok _ ((agree.putAll _).mono ?_)
    intro x n
    rwa [List.map_fst_zip (Nat.le_of_eq (length_of_produce produced).symm)] at n

variable (c programs set) in
/-- Tasks that get the names from tasks before them do the same, and all that they put out agrees
afterwards. -/
theorem replayTasks_alike {tasks : List TaskDefinition} {names : String → Prop} {m m' : Memory}
    (agree : AgreeBut space.spaceId index names m m')
    (guarded : ∀ before t after, tasks = before ++ t :: after →
      ∀ x ∈ t.inputData, names x → PutsOut before x) :
    Alike space.spaceId index (fun x => names x ∧ ¬PutsOut tasks x)
      (c.replayTasks programs space index set tasks m)
      (c.replayTasks programs space index set tasks m') := by
  induction tasks generalizing names m m' with
  | nil =>
    refine .ok [] (agree.mono ?_)
    intro x n
    refine ⟨n, ?_⟩
    rintro ⟨u, mem, -⟩
    cases mem
  | cons t rest ih =>
    have apart : ∀ x ∈ t.inputData, ¬names x := by
      intro x mem n
      obtain ⟨u, none, -⟩ := guarded [] t rest rfl x mem n
      cases none
    apply (replayTask_alike c programs set agree apart).andThen
    intro m₁ m₁' agree'
    refine (ih agree' ?_).mono ?_
    · rintro before u after shape x mem ⟨n, fresh⟩
      obtain ⟨v, earlier, out⟩ := guarded (t :: before) u after (by rw [shape]; rfl) x mem n
      rcases List.mem_cons.1 earlier with rfl | earlier
      · exact absurd out fresh
      · exact ⟨v, earlier, out⟩
    · rintro x ⟨⟨n, fresh⟩, others⟩
      refine ⟨n, ?_⟩
      rintro ⟨v, mem, out⟩
      rcases List.mem_cons.1 mem with rfl | mem
      · exact fresh out
      · exact others ⟨v, mem, out⟩

/-- Tasks that are completed change the values of what they put out and nothing else. -/
theorem agreeBut_of_replayTasks {tasks : List TaskDefinition} {m m' : Memory} {log : List Deed}
    (h : c.replayTasks programs space index set tasks m = (log, .ok m')) :
    AgreeBut space.spaceId index (PutsOut tasks) m m' := by
  induction tasks generalizing m log with
  | nil =>
    cases h
    exact .refl _
  | cons t rest ih =>
    rw [replayTasks] at h
    rcases first : c.replayTask programs space index set t m with ⟨log', e | m₁⟩ <;>
      rw [first] at h
    · cases h
    simp only [Logged.ok_andThen, Prod.mk.injEq] at h
    have others : c.replayTasks programs space index set rest m₁ =
        ((c.replayTasks programs space index set rest m₁).1, .ok m') := Prod.ext rfl h.2
    have start : AgreeBut space.spaceId index (PutsOut (t :: rest)) m m₁ :=
      (agreeBut_of_replayTask first).mono fun x out => ⟨t, List.mem_cons_self, out⟩
    refine start.trans ((ih others).mono ?_)
    rintro x ⟨u, mem, out⟩
    exact ⟨u, List.mem_cons_of_mem _ mem, out⟩

theorem replayTasks_append (done rest : List TaskDefinition) (m : Memory) :
    c.replayTasks programs space index set (done ++ rest) m =
      (c.replayTasks programs space index set done m).andThen
        (c.replayTasks programs space index set rest) := by
  induction done generalizing m with
  | nil => simp [replayTasks]
  | cons t done ih =>
    simp only [List.cons_append, replayTasks, Logged.andThen_assoc]
    congr 1
    exact funext ih

/-- Tasks in order do the same again after some of them are done. -/
theorem replayTasks_again {tasks done rest : List TaskDefinition} {m m' : Memory}
    {log : List Deed} (ordered : Ordered tasks) (shape : tasks = done ++ rest)
    (h : c.replayTasks programs space index set done m = (log, .ok m')) :
    c.replayTasks programs space index set tasks m' =
      c.replayTasks programs space index set tasks m := by
  have within {x : String} (out : PutsOut done x) : PutsOut tasks x := by
    obtain ⟨u, mem, out⟩ := out
    exact ⟨u, shape ▸ List.mem_append_left _ mem, out⟩
  have alike := replayTasks_alike c programs set (agreeBut_of_replayTasks h)
    fun before t after shape x mem out => ordered before t after shape x mem (within out)
  exact ((alike.mono fun x ⟨out, missing⟩ => missing (within out)).eq).symm

end Conduct

/-! ## What is left to do -/

variable {α β : Type}

/-- After some deeds of a course, what is left of it: the end of the course, and its outcome. -/
structure Resumes (whole : Logged α) (deeds : List Deed) (rest : Logged α) : Prop where
  done : deeds <+: whole.1
  ahead : rest.1 <:+ whole.1
  outcome : rest.2 = whole.2

namespace Resumes

variable {whole rest : Logged α} {deeds : List Deed}

/-- A course that was broken off before its end goes on as it would have gone on. -/
theorem andThen (h : Resumes whole deeds rest) (f : α → Logged β) :
    Resumes (whole.andThen f) deeds (rest.andThen f) := by
  obtain ⟨log, outcome⟩ := whole
  obtain ⟨log', outcome'⟩ := rest
  obtain ⟨done, ahead, same⟩ := h
  simp only at done ahead same
  subst same
  cases outcome' with
  | error e => exact ⟨done, ahead, rfl⟩
  | ok a =>
    obtain ⟨before, shape⟩ := ahead
    refine ⟨done.trans (List.prefix_append _ _), ⟨before, ?_⟩, rfl⟩
    simp only [Logged.ok_andThen, ← shape, List.append_assoc]

/-- What was completed before is not done again. -/
theorem after {log : List Deed} {a : α} {f : α → Logged β} {rest : Logged β}
    (h : Resumes (f a) deeds rest) : Resumes (Logged.andThen (log, .ok a) f) (log ++ deeds) rest :=
  ⟨(List.prefix_append_right_inj log).2 h.done, h.ahead.trans (List.suffix_append _ _), h.outcome⟩

end Resumes

namespace Conduct

variable {c : Conduct S} {kept : S → Prop}
  {programs : Command → Except LaunchFault Completion}

section Stopping

variable (repeatable : ∀ command s, kept s → (c.host.launch command s).1 = programs command)
  (steady : c.host.Steady)

/-- A task does not end with a termination. -/
theorem TaskCourse.not_stopped {space : SpaceDefinition} {index : Nat} {set : ParameterSet}
    {t : TaskDefinition} {l l' : Ledger} {deeds : List Deed} :
    ¬c.TaskCourse kept space index set t l deeds (.error (.terminated c.runId)) l' := by
  intro h
  cases h with
  | failed produced => cases produced.task?_eq

include repeatable steady

/-- Tasks that are stopped are stopped after some of them. -/
theorem TasksCourse.stopped_after {space : SpaceDefinition} {index : Nat} {set : ParameterSet}
    {tasks : List TaskDefinition} {l l' : Ledger} {deeds : List Deed}
    (h : c.TasksCourse kept space index set tasks l deeds (.error (.terminated c.runId)) l') :
    ¬c.host.Calm ∧ (∃ done rest, tasks = done ++ rest ∧
      c.replayTasks programs space index set done l.memory = (deeds, .ok l'.memory)) ∧
    l' = { l with
      status := .terminated, tasks := l'.tasks, values := l'.values, latest := l'.latest } := by
  generalize hr : (.error (.terminated c.runId) : Except RunError Unit) = r at h
  induction h with
  | nil => cases hr
  | failed first =>
    cases hr
    exact absurd first TaskCourse.not_stopped
  | @stopped t rest l l' deeds restless first =>
    refine ⟨restless, ⟨[t], rest, rfl, ?_⟩, ?_⟩
    · rw [replayTasks, first.eq repeatable steady]
      simp [Except.map, replayTasks]
    · rw [first.frame]
      rfl
  | @cons t rest l l₁ l' deeds deeds' r first _ ih =>
    obtain ⟨restless, ⟨done, left, shape, replayed⟩, frame⟩ := ih hr
    refine ⟨restless, ⟨t :: done, left, by rw [shape]; rfl, ?_⟩, ?_⟩
    · rw [replayTasks, first.eq repeatable steady]
      simp only [Except.map, Logged.ok_andThen, replayed]
    · rw [frame, first.frame]

/-- Sets that are stopped go on with what is left of them. -/
theorem SetsCourse.stopped_resumes {space : SpaceDefinition} {tasks : List TaskDefinition}
    {sets : List (ParameterSet × Nat)} {l l' : Ledger} {deeds : List Deed}
    (ordered : Ordered tasks)
    (h : c.SetsCourse kept space tasks sets l deeds (.error (.terminated c.runId)) l') :
    ¬c.host.Calm ∧ Resumes (c.replaySets programs space tasks sets l.memory) deeds
      (c.replaySets programs space tasks sets l'.memory) ∧
    (∀ k, l.sets k = some .completed → l'.sets k = some .completed) ∧
    l' = { l with
      status := .terminated, sets := l'.sets, tasks := l'.tasks, values := l'.values
      latest := l'.latest } := by
  generalize hr : (.error (.terminated c.runId) : Except RunError Unit) = r at h
  induction h with
  | nil => cases hr
  | skipped done _ ih =>
    obtain ⟨restless, resumes, remain, frame⟩ := ih hr
    refine ⟨restless, ?_, remain, frame⟩
    rw [replaySets, if_pos (by simp [Ledger.memory, done]), replaySets,
      if_pos (by simp [Ledger.memory, remain _ done])]
    exact resumes
  | @broken set index rest l l' deeds e notDone first =>
    cases hr
    obtain ⟨restless, ⟨done, left, shape, replayed⟩, frame⟩ :=
      first.stopped_after repeatable steady
    rw [Ledger.memory_startSet _ notDone] at replayed
    have again := replayTasks_again ordered shape replayed
    have sets : l'.sets = (l.setSet space.spaceId index .running).sets := by rw [frame]
    have stillNotDone : l'.sets (space.spaceId, index) ≠ some .completed := by
      simp [sets, Ledger.setSet]
    refine ⟨restless, ?_, ?_, by rw [frame]; rfl⟩
    · rw [replaySets, if_neg (by simp [Ledger.memory, notDone]), replaySets,
        if_neg (by simp [Ledger.memory, stillNotDone]), again]
      refine Resumes.andThen ⟨?_, List.suffix_rfl, rfl⟩ _
      rw [shape, replayTasks_append, replayed]
      exact List.prefix_append _ _
    · intro k completed
      have other : k ≠ (space.spaceId, index) := fun same => notDone (same ▸ completed)
      rw [sets, Ledger.setSet]
      simpa [Function.update_of_ne other] using completed
  | @stopped set index rest l l₁ deeds restless notDone first =>
    have tasks := first.eq repeatable steady (by simp)
    rw [Ledger.memory_startSet _ notDone] at tasks
    have frame := first.frame
    refine ⟨restless, ?_, ?_, by rw [frame]; rfl⟩
    · have done : ((l₁.setSet space.spaceId index .completed).setStatus .terminated).memory.sets
          (space.spaceId, index) = true := by
        simp [Ledger.memory, Ledger.setSet, Ledger.setStatus]
      rw [replaySets, if_neg (by simp [Ledger.memory, notDone]), replaySets, if_pos done, tasks,
        Ledger.memory_setStatus, Ledger.memory_setSet]
      simp only [Except.map, decide_true, Logged.ok_andThen]
      exact ⟨List.prefix_append _ _, List.suffix_append _ _, rfl⟩
    · intro k completed
      have other : k ≠ (space.spaceId, index) := fun same => notDone (same ▸ completed)
      rw [frame]
      simpa [Ledger.setStatus, Ledger.setSet, Function.update_of_ne other] using completed
  | @cons set index rest l l₁ l' deeds deeds' r notDone first _ ih =>
    have tasks := first.eq repeatable steady (by simp)
    rw [Ledger.memory_startSet _ notDone] at tasks
    have frame := first.frame
    obtain ⟨restless, resumes, remain, frame'⟩ := ih hr
    have done : l'.sets (space.spaceId, index) = some .completed :=
      remain _ (by simp [Ledger.setSet])
    refine ⟨restless, ?_, fun k completed => remain k ?_, by rw [frame', frame]; rfl⟩
    · rw [replaySets, if_neg (by simp [Ledger.memory, notDone]), replaySets,
        if_pos (by simp [Ledger.memory, done]), tasks]
      simp only [Ledger.memory_setSet, decide_true] at resumes
      exact resumes.after
    · have other : k ≠ (space.spaceId, index) := fun same => notDone (same ▸ completed)
      rw [frame]
      simpa [Ledger.setSet, Function.update_of_ne other] using completed

/-- A visit that is stopped goes on with what is left of it. -/
theorem VisitCourse.stopped_resumes {space : SpaceDefinition} {l l' : Ledger}
    {deeds : List Deed} (ordered : ∀ tasks, c.tasksOf space = .ok tasks → Ordered tasks)
    (notDone : l.spaces space.spaceId ≠ some .completed)
    (h : c.VisitCourse kept space l deeds (.error (.terminated c.runId)) l') :
    ¬c.host.Calm ∧ Resumes (c.replayVisit programs space l.memory) deeds
      (c.replayVisit programs space l'.memory) ∧
    l'.spaces space.spaceId ≠ some .completed ∧ l'.status = .terminated ∧
    l'.control = l.control := by
  cases h with
  | unknownTask unknown =>
    obtain ⟨id, -, missing⟩ := exists_of_mapM_error unknown
    split at missing <;> cases missing
  | broken known sets =>
    obtain ⟨restless, resumes, -, frame⟩ := sets.stopped_resumes repeatable steady (ordered _ known)
    rw [Ledger.memory_openSpace _ notDone] at resumes
    have opened : l'.spaces = (l.openSpace space.spaceId).spaces ∧
        l'.control = (l.openSpace space.spaceId).control ∧ l'.status = .terminated := by
      rw [frame]
      exact ⟨rfl, rfl, rfl⟩
    refine ⟨restless, ?_, ?_, opened.2.2, ?_⟩
    · simp only [replayVisit, known]
      exact resumes.andThen _
    · rw [opened.1, Ledger.openSpace]
      split
      · exact notDone
      · simp [Ledger.setSpace]
    · rw [opened.2.1, Ledger.openSpace]
      split <;> rfl

omit repeatable steady in
theorem VisitCourse.frame {space : SpaceDefinition} {l l' : Ledger} {deeds : List Deed}
    (h : c.VisitCourse kept space l deeds (.ok ()) l') :
    l'.control = l.control ∧ l'.spaces space.spaceId = some .completed := by
  cases h with
  | completed known sets =>
    rw [sets.frame, Ledger.openSpace]
    split <;> exact ⟨rfl, by simp [Ledger.setSpace]⟩

omit repeatable steady in
theorem clear_control (l : Ledger) (space : String) : (l.clear space).control = l.control := by
  rw [Ledger.clear]
  split <;> rfl

/-- An entered space whose visit is stopped is entered again with what is left of it. -/
theorem EntryCourse.stopped_resumes {space : SpaceDefinition} {goesOn : Bool} {l l' : Ledger}
    {deeds : List Deed} (ordered : ∀ tasks, c.tasksOf space = .ok tasks → Ordered tasks)
    (h : c.EntryCourse kept space goesOn l deeds (.error (.terminated c.runId)) l') :
    ¬c.host.Calm ∧ Resumes (c.replayEntry programs space goesOn l.memory) deeds
      (c.replayEntry programs space true l'.memory) ∧
    l'.status = .terminated ∧ l'.control = l.control := by
  have enters (fresh : goesOn = true → l.spaces space.spaceId ≠ some .completed) :
      c.replayEntry programs space goesOn l.memory =
        c.replayVisit programs space (l.clear space.spaceId).memory := by
    rw [replayEntry, Ledger.memory_clear, if_neg]
    intro both
    obtain ⟨done, goes⟩ := Bool.and_eq_true_iff.1 both
    exact fresh goes (by simpa [Ledger.memory] using done)
  have notDone := clear_notDone l space.spaceId
  have entered := clear_control l space.spaceId
  cases h with
  | broken fresh visit =>
    obtain ⟨restless, resumes, stillNotDone, status, control⟩ :=
      visit.stopped_resumes repeatable steady ordered notDone
    refine ⟨restless, ?_, status, control.trans entered⟩
    have again : c.replayEntry programs space true l'.memory =
        c.replayVisit programs space l'.memory := by
      have unchanged : l'.memory.clear space.spaceId = l'.memory := by
        rw [Memory.clear, if_neg (by simpa [Ledger.memory] using stillNotDone)]
      rw [replayEntry, if_neg (by simpa [Ledger.memory] using stillNotDone), unchanged]
    rw [enters fresh, again]
    exact resumes
  | @stopped deeds l₁ restless fresh visit =>
    have whole := visit.eq repeatable steady notDone (by simp)
    obtain ⟨control, done⟩ := visit.frame
    refine ⟨restless, ?_, rfl, control.trans entered⟩
    have skips : c.replayEntry programs space true (l₁.setStatus .terminated).memory =
        ([], .ok l₁.memory) := if_pos (Bool.and_eq_true_iff.2 ⟨decide_eq_true done, rfl⟩)
    rw [enters fresh, whole, skips]
    exact ⟨List.prefix_rfl, List.nil_suffix, rfl⟩

/-- A run that is stopped goes on from the space that it was in with what is left of it. -/
theorem TraverseCourse.stopped_resumes {visits : Nat} {current : String} {goesOn : Bool}
    {l l' : Ledger} {answers left : Answers} {deeds : List Deed}
    (ordered : ∀ space ∈ c.artifact.spaces, ∀ tasks, c.tasksOf space = .ok tasks → Ordered tasks)
    (h : c.TraverseCourse kept visits current goesOn l answers deeds
      (.error (.terminated c.runId)) l' left) :
    ¬c.host.Calm ∧ ∃ space visits', l'.control = some space ∧ visits' ≤ visits ∧
      Resumes (c.replay programs visits current goesOn l.memory answers) deeds
        (c.replay programs visits' space true l'.memory left) ∧
      l'.status = .terminated := by
  generalize hr : (.error (.terminated c.runId) : Except RunError Bool) = r at h
  induction h with
  | finished => cases hr
  | exhausted => cases hr
  | unknownSpace => cases hr
  | @broken current space visits goesOn l l' answers deeds e notEnd found entry =>
    cases hr
    obtain ⟨restless, resumes, status, control⟩ := entry.stopped_resumes repeatable steady
      (ordered space (List.mem_of_find?_eq_some found))
    refine ⟨restless, current, visits + 1, control, Nat.le_refl _, ?_, status⟩
    simp only [replay, notEnd, if_false, found]
    exact resumes.andThen _
  | stuck _ _ _ _ chosen =>
    cases hr
    cases (error_of_nextOn chosen).2
  | @step current next space visits goesOn l l₁ l' answers left left' deeds deeds' r notEnd found
      entry chosen _ ih =>
    obtain ⟨restless, space', visits', control, le, resumes, status⟩ := ih hr
    refine ⟨restless, space', visits', control, Nat.le_succ_of_le le, ?_, status⟩
    have first := entry.eq repeatable steady (by simp)
    rw [Ledger.memory_enter] at first
    simp only [replay, notEnd, if_false, found, first, Except.map]
    refine Resumes.after ?_
    simp only [chosen]
    exact resumes

end Stopping

end Conduct

end Sweep
