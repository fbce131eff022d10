import Sweep.Proofs.Run.Journey

/-!
# What holds of every record that is written

An activity upholds a property of records if, from every session whose record has it, every record
that it writes has it too, whatever the activity comes to. So the property holds wherever a call is
cut off. Along with it goes what an activity leaves behind when it comes to its end, which is what
the activities after it rely on, and what it leaves behind when it fails.
-/

namespace Sweep.Conduct

variable {S α β : Type}

/-- From every session with this record, if the record is of a kind `I`, so is every record that is
written. At the end the result and the record are related by `R`, an error and the record by `E`. -/
def Upholds (c : Conduct S) (kept : S → Prop) (I : RunSnapshot → Prop)
    (E : RunError → RunSnapshot → Prop) (a : Activity S α) (x : RunSnapshot)
    (R : α → RunSnapshot → Prop) : Prop :=
  ∀ s, c.Sees kept s ⟨x, []⟩ → I x → ∃ (ms : List (Moment S)) (y : RunSnapshot),
    (a s).2.history = ms.reverse ++ s.history ∧ c.Sees kept (a s).2 ⟨y, []⟩ ∧
    (∀ store, .wrote store ∈ ms → ∃ z, c.subject.recordIn store = some z ∧ I z) ∧ I y ∧
    (∀ v, (a s).1 = .ok v → R v y) ∧ ∀ e, (a s).1 = .error e → E e y

variable {c : Conduct S} {kept : S → Prop} {I : RunSnapshot → Prop}
  {E : RunError → RunSnapshot → Prop} {x : RunSnapshot}

namespace Upholds

theorem mono {a : Activity S α} {R R' : α → RunSnapshot → Prop} (h : c.Upholds kept I E a x R)
    (weaker : ∀ v y, R v y → R' v y) : c.Upholds kept I E a x R' := by
  intro s sees ix
  obtain ⟨ms, y, grown, sees', all, iy, ends, fails⟩ := h s sees ix
  exact ⟨ms, y, grown, sees', all, iy, fun v same => weaker v y (ends v same), fails⟩

theorem bind {a : Activity S α} {f : α → Activity S β} {R : α → RunSnapshot → Prop}
    {Q : β → RunSnapshot → Prop} (first : c.Upholds kept I E a x R)
    (goesOn : ∀ v y, R v y → c.Upholds kept I E (f v) y Q) :
    c.Upholds kept I E (a >>= f) x Q := by
  intro s sees ix
  obtain ⟨ms, y, grown, sees', all, iy, ends, fails⟩ := first s sees ix
  rw [bind_eval]
  rcases h : a s with ⟨e | v, s'⟩ <;> rw [h] at grown sees' ends fails
  · exact ⟨ms, y, grown, sees', all, iy, nofun, fun e' same => fails e' (by cases same; rfl)⟩
  · obtain ⟨ms', z, grown', sees'', all', iz, q⟩ := goesOn v y (ends v rfl) s' sees' iy
    refine ⟨ms ++ ms', z, by rw [grown', grown, List.reverse_append, List.append_assoc], sees'',
      fun store mem => ?_, iz, q⟩
    exact (List.mem_append.1 mem).elim (all store) (all' store)

/-- An error that is looked at is a result like any other. -/
theorem attempt {a : Activity S α} {R : α → RunSnapshot → Prop}
    {F : RunError → RunSnapshot → Prop} (h : c.Upholds kept I F a x R) :
    c.Upholds kept I E a.attempt x fun r y =>
      (∀ v, r = .ok v → R v y) ∧ ∀ e, r = .error e → F e y := by
  intro s sees ix
  obtain ⟨ms, y, grown, sees', all, iy, ends⟩ := h s sees ix
  refine ⟨ms, y, grown, sees', all, iy, ?_, nofun⟩
  rintro _ ⟨⟩
  exact ends

/-- What changes neither the record nor the history. -/
theorem idle {a : Activity S α} {R : α → RunSnapshot → Prop}
    (h : ∀ s, c.Sees kept s ⟨x, []⟩ → ∃ r answers count,
      a s = (r, { s with answers, readings := s.readings + count }) ∧ (∀ v, r = .ok v → R v x) ∧
        ∀ e, r = .error e → E e x) :
    c.Upholds kept I E a x R := by
  intro s sees ix
  obtain ⟨r, answers, count, eval, ends⟩ := h s sees
  rw [eval]
  exact ⟨[], x, rfl, ⟨sees.kept, sees.loads, sees.named⟩, nofun, ix, ends⟩

theorem pure {v : α} {R : α → RunSnapshot → Prop} (r : R v x) :
    c.Upholds kept I E (pure v) x R :=
  idle fun s _ => ⟨.ok v, s.answers, 0, rfl, by rintro _ ⟨⟩; exact r, nofun⟩

theorem throw {e : RunError} {R : α → RunSnapshot → Prop} (fails : E e x) :
    c.Upholds kept I E (throw e : Activity S α) x R :=
  idle fun s _ => ⟨.error e, s.answers, 0, rfl, nofun, by rintro _ ⟨⟩; exact fails⟩

theorem of_reads {a : Activity S α} {r : Except RunError α} (reads : c.Reads x a r)
    (fails : ∀ e, r = .error e → E e x) :
    c.Upholds kept I E a x fun v y => r = .ok v ∧ y = x :=
  idle fun s sees => (reads s sees.loads).elim fun n eval =>
    ⟨r, s.answers, n, eval, fun _ same => ⟨same, rfl⟩, fails⟩

theorem of_reads_ok {a : Activity S α} {v : α} (reads : c.Reads x a (.ok v)) :
    c.Upholds kept I E a x fun w y => w = v ∧ y = x :=
  (of_reads reads (by rintro _ ⟨⟩)).mono fun _ _ answer => by
    obtain ⟨same, rfl⟩ := answer
    cases same
    exact ⟨rfl, rfl⟩

/-- To note a moment is no change of the record, unless it is one. -/
theorem note {m : Moment S} (other : ∀ store, m ≠ .wrote store) :
    c.Upholds kept I E (c.note m) x fun _ y => y = x := by
  refine fun s sees ix =>
    ⟨[m], x, rfl, ⟨sees.kept, sees.loads, sees.named⟩, ?_, ix, fun _ _ => rfl, nofun⟩
  exact fun store mem => absurd (List.mem_singleton.1 mem).symm (other store)

theorem emit (e : ProgressEvent) : c.Upholds kept I E (c.emit e) x fun _ y => y = x :=
  fun s sees => note (m := .told e s.store) nofun s sees

theorem mark (key : TaskKey) (mark : TaskMark) :
    c.Upholds kept I E (c.mark key mark) x fun _ y => y = x := by
  refine bind (R := fun _ y => y = x)
    (idle fun s _ => ⟨.ok (c.host.clock s.readings), s.answers, 1, rfl, fun _ _ => rfl, nofun⟩) ?_
  rintro now y rfl
  exact note nofun

end Upholds

/-- To choose the next space is to write nothing. -/
theorem upholds_next (space : String)
    (fails : ∀ e, e.task? = none → e.isTermination = false → E e x) :
    c.Upholds kept I E (c.next space) x fun target y => y = x ∧
      (target = endMark ∨ ∃ t ∈ c.artifact.control.transitions, t.target = target) := by
  intro s sees ix
  obtain ⟨s', chosen, -, talks⟩ := next_eval (c := c) space s
  obtain ⟨ms, grown, silent⟩ := talks.said
  rw [chosen]
  refine ⟨ms, x, grown, ⟨talks.store ▸ sees.kept, talks.store ▸ sees.loads, sees.named⟩,
    fun store mem => (silent _ mem).elim, ix, fun target same => ⟨rfl, ?_⟩, fun e same => ?_⟩
  · exact mem_of_nextOn (Prod.ext same rfl)
  · obtain ⟨noTask, other⟩ := error_of_nextOn (Prod.ext same rfl)
    exact fails e noTask other

section Changes

variable (reliable : c.host.Reliable c.runId kept)

include reliable

theorem upholds_launch (command : Command) :
    c.Upholds kept I E (c.launch command) x fun _ y => y = x := by
  intro s sees ix
  obtain ⟨kept', loads⟩ := reliable.launches command sees.kept
  refine ⟨[.launched command], x, rfl, ⟨kept', loads.trans sees.loads, sees.named⟩, by simp, ix,
    fun _ _ => rfl, ?_⟩
  rintro _ ⟨⟩

/-- A program gives a value for each name that its task declares, or fails. -/
theorem upholds_carryOut (t : TaskDefinition) (command : Command) :
    c.Upholds kept I E (c.carryOut t command) x fun produced y =>
      (∀ values, produced = .ok values → values.length = t.outputData.length) ∧ y = x := by
  rw [carryOut]
  cases c.options.dryRun
  · refine Upholds.bind (upholds_launch reliable command) ?_
    rintro (fault | completion) y rfl
    · exact Upholds.pure ⟨by rintro _ ⟨⟩, rfl⟩
    · exact Upholds.pure ⟨fun values found => Completion.length_of_values found, rfl⟩
  · refine Upholds.bind (Upholds.note (by rintro _ ⟨⟩)) ?_
    rintro _ y rfl
    exact Upholds.pure ⟨by rintro _ ⟨⟩; exact List.length_map _, rfl⟩

/-- A task produces a value for each name that it declares, or fails, and writes nothing. -/
theorem upholds_outputValues (space : SpaceDefinition) (index : Nat) (set : ParameterSet)
    (t : TaskDefinition)
    (fails : ∀ e, e.task? = some ⟨space.spaceId, index, t.taskId⟩ → E e x) :
    c.Upholds kept I E (c.outputValues space index set t) x fun values y =>
      values.length = t.outputData.length ∧ y = x := by
  rw [outputValues]
  cases hp : parametersOf space index set t with
  | error e =>
    have none : c.commandOf x.ledger space index set t = .error e := by
      rw [commandOf, hp]
      rfl
    exact Upholds.throw (fails e (task?_of_commandOf none))
  | ok parameters =>
    refine Upholds.bind (R := fun found y => found = parameters ∧ y = x)
      (Upholds.pure ⟨rfl, rfl⟩) ?_
    rintro _ _ ⟨rfl, rfl⟩
    refine Upholds.bind (Upholds.of_reads (Reads.mapM (reads_inputValue space index t) _)
      fun e failed => ?_) ?_
    · obtain ⟨name, -, missing⟩ := exists_of_mapM_error failed
      exact fails e (by rw [(input_eq_error missing).1]; rfl)
    rintro inputs y ⟨-, rfl⟩
    rw [execute]
    cases Command.ofTask t _ inputs c.options.directory with
    | error cause =>
      refine Upholds.bind (R := fun produced z => produced = .error cause ∧ z = y)
        (Upholds.pure ⟨rfl, rfl⟩) ?_
      rintro _ z ⟨rfl, rfl⟩
      exact Upholds.throw (fails _ rfl)
    | ok command =>
      refine Upholds.bind (upholds_carryOut reliable t command) ?_
      rintro (cause | values) z ⟨length, rfl⟩
      · exact Upholds.throw (fails _ rfl)
      · exact Upholds.pure ⟨length values rfl, rfl⟩

/-- A change of the record upholds what every record has that it can lead to. -/
theorem upholds_record {operation : RepositoryM S Unit}
    (change : Timestamp → RunSnapshot → Except RecordKey RunSnapshot)
    {R : Unit → RunSnapshot → Prop}
    (modifies : ∀ now s, operation now s = c.host.backend.modify c.runId change now s)
    (changes : ∀ now y, change now x = .ok y → I x →
      y.run.runId = x.run.runId ∧ I (y.touch now) ∧ R () (y.touch now))
    (refused : ∀ now key, change now x = .error key → E (.repository (.recordNotFound key)) x) :
    c.Upholds kept I E (c.record operation) x R := by
  intro s sees ix
  cases changed : change (c.host.clock s.readings) x with
  | ok y =>
    obtain ⟨named, iy, r⟩ := changes _ _ changed ix
    obtain ⟨s', recorded, -, grown, sees'⟩ :=
      record_eval reliable change modifies sees changed named
    rw [recorded]
    refine ⟨[.wrote s'.store], _, grown, sees', fun store mem => ?_, iy, fun _ _ => r, nofun⟩
    cases List.mem_singleton.1 mem
    exact ⟨_, sees'.recordIn, iy⟩
  | error key =>
    rw [record_refused change modifies sees changed]
    refine ⟨[], x, rfl, ⟨sees.kept, sees.loads, sees.named⟩, nofun, ix, nofun, ?_⟩
    rintro _ ⟨⟩
    exact refused _ key changed

/-- A change that cannot fail. -/
theorem upholds_update (change : Timestamp → RunSnapshot → RunSnapshot)
    {R : Unit → RunSnapshot → Prop} (named : ∀ now, (change now x).run.runId = x.run.runId)
    (changes : ∀ now, I x → I ((change now x).touch now) ∧ R () ((change now x).touch now)) :
    c.Upholds kept I E (c.record (c.host.backend.update c.runId change)) x R := by
  refine upholds_record reliable (fun now x => .ok (change now x)) (fun _ _ => rfl) ?_ nofun
  rintro now _ ⟨⟩ ix
  exact ⟨named now, changes now ix⟩

end Changes

end Sweep.Conduct
