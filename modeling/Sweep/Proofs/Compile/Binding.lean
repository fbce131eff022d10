import Sweep.Proofs.Compile.Precedence

/-!
# Static and dynamic parameters

The parameters of a task that are bound become its static ones, the others its dynamic ones. A
configuration rebinds the first parameter of a name. So if a task lists a name once, the name ends
up on one side only, and bound to the value that is given last. If it lists a name several times,
the later listings stay as they are: one without value leaves the name dynamic, beside the value
that it may have elsewhere, and a value hides those that are given by configurations.
-/

namespace Sweep

namespace Parameter

variable {name : String} {declared given : List Parameter} {first : Option Json}
  {rest : List (Option Json)}

/-! ## What is listed for a name -/

theorem valuesOf_append (name : String) (xs ys : List Parameter) :
    valuesOf name (xs ++ ys) = valuesOf name xs ++ valuesOf name ys := by
  rw [valuesOf, List.filter_append, List.map_append]
  rfl

theorem lastBound_append (name : String) (xs ys : List Parameter) :
    lastBound name (xs ++ ys) = (lastBound name ys).or (lastBound name xs) := by
  rw [lastBound, valuesOf_append, List.filterMap_append, List.getLast?_append]
  rfl

/-- Of the listings of a name the first one is rebound and the others stay. -/
theorem valuesOf_foldl_mergeParameter (given : List Parameter)
    (listed : valuesOf name declared = first :: rest) :
    valuesOf name (given.foldl Task.mergeParameter declared) =
      (lastBound name given).or first :: rest := by
  induction given using List.reverseRecOn with
  | nil => exact listed
  | append_singleton given p ih =>
    rw [List.foldl_concat, valuesOf_mergeParameter, ih, lastBound_concat]
    split
    · rw [List.head?_cons, List.tail_cons, Option.join_some, Option.or_assoc]
    · rfl

/-- What is listed by the declaration or a configuration stays listed, and nothing else is. -/
theorem valuesOf_foldl_eq_nil_iff :
    valuesOf name (given.foldl Task.mergeParameter declared) = [] ↔
      name ∉ (declared ++ given).map (·.name) := by
  cases listed : valuesOf name declared with
  | nil =>
    have once : (valuesOf name declared).length ≤ 1 := by rw [listed]; exact Nat.zero_le 1
    rw [keepsLast_foldl name once]
    split
    · next mem => exact iff_of_false (List.cons_ne_nil _ _) (not_not_intro mem)
    · next new => exact iff_of_true rfl new
  | cons first rest =>
    rw [valuesOf_foldl_mergeParameter given listed]
    apply iff_of_false (List.cons_ne_nil _ _)
    rw [not_not, List.map_append, List.mem_append]
    left
    by_contra new
    rw [(valuesOf_eq_nil_iff name).2 new] at listed
    cases listed

/-- What parameters list for a name is either once nothing, or only values, of which the last one is
the one that is given last. -/
structure Agrees (name : String) (kept all : List Parameter) : Prop where
  unmixed : none ∈ valuesOf name kept → valuesOf name kept = [none]
  last : lastBound name kept = lastBound name all

theorem KeepsLast.agrees {kept all : List Parameter} (h : KeepsLast name kept all) :
    Agrees name kept all := by
  rw [KeepsLast] at h
  by_cases listed : name ∈ all.map (·.name)
  · rw [if_pos listed] at h
    constructor
    · intro mem
      rw [h] at mem ⊢
      rw [List.mem_singleton.1 mem]
    · rw [lastBound, h]
      cases lastBound name all <;> rfl
  · rw [if_neg listed] at h
    constructor
    · intro mem
      rw [h] at mem
      cases mem
    · rw [lastBound, lastBound, h, (valuesOf_eq_nil_iff name).2 listed]

/-- To list a name more than once does no harm: every listing after the first has a value, and so
has the first one, by itself or by configurations; and if these give a value, the last listing
happens to have the same. -/
def Harmless (name : String) (declared given : List Parameter) : Prop :=
  ∀ first rest, valuesOf name declared = first :: rest → rest ≠ [] →
    none ∉ rest ∧ (first.isSome ∨ (lastBound name given).isSome) ∧
      ∀ value ∈ lastBound name given, rest.getLast? = some (some value)

theorem length_valuesOf (name : String) (parameters : List Parameter) :
    (valuesOf name parameters).length = (parameters.map (·.name)).count name := by
  rw [valuesOf, List.length_map, ← List.countP_eq_length_filter, List.count, List.countP_map]
  rfl

/-- No harm is done if nothing is listed twice. -/
theorem harmless_of_nodup (distinct : (declared.map (·.name)).Nodup) (name : String)
    (given : List Parameter) : Harmless name declared given := by
  intro first rest listed more
  have once := List.nodup_iff_count_le_one.1 distinct name
  rw [← length_valuesOf, listed, List.length_cons] at once
  exact absurd (List.eq_nil_of_length_eq_zero (by omega)) more

/-- Where nothing but values is listed, the last of them is the one that is listed last. -/
theorem exists_getLast?_of_bound (more : rest ≠ []) (bound : none ∉ rest) :
    ∃ value, rest.getLast? = some (some value) ∧
      ∀ first, ((first :: rest).filterMap id).getLast? = some value := by
  obtain ⟨before, last, rfl⟩ := (List.eq_nil_or_concat' rest).resolve_left more
  cases last with
  | none => exact absurd (List.mem_append_right _ List.mem_cons_self) bound
  | some value =>
    refine ⟨value, List.getLast?_concat, ?_⟩
    intro first
    rw [← List.cons_append, getLast?_filterMap_concat]
    rfl

/-- For a name that is listed more than once, and then with values, the last value is that of the
last listing, before and after the first one is rebound. -/
theorem exists_lastBound (given : List Parameter)
    (listed : valuesOf name declared = first :: rest) (more : rest ≠ []) (bound : none ∉ rest) :
    ∃ value, rest.getLast? = some (some value) ∧
      lastBound name (given.foldl Task.mergeParameter declared) = some value ∧
      lastBound name (declared ++ given) = (lastBound name given).or (some value) := by
  obtain ⟨value, last, final⟩ := exists_getLast?_of_bound more bound
  refine ⟨value, last, ?_, ?_⟩
  · rw [lastBound, valuesOf_foldl_mergeParameter given listed]
    exact final _
  · rw [lastBound_append]
    congr 1
    rw [lastBound, listed]
    exact final first

theorem agrees_foldl_iff : Agrees name (given.foldl Task.mergeParameter declared)
    (declared ++ given) ↔ Harmless name declared given := by
  constructor
  · intro agrees first rest listed more
    have unmixed := agrees.unmixed
    rw [valuesOf_foldl_mergeParameter given listed] at unmixed
    have bound : none ∉ (lastBound name given).or first :: rest := by
      intro mem
      exact more (List.cons.inj (unmixed mem)).2
    obtain ⟨head, others⟩ := not_or.1 (mt List.mem_cons.2 bound)
    refine ⟨others, ?_, ?_⟩
    · cases first <;> cases given' : lastBound name given <;> simp_all
    · intro value given'
      obtain ⟨final, last, kept, all⟩ := exists_lastBound given listed more others
      have same := agrees.last
      rw [kept, all, given'] at same
      cases same
      exact last
  · intro harmless
    by_cases once : (valuesOf name declared).length ≤ 1
    · exact (keepsLast_foldl name once).agrees
    · obtain ⟨first, rest, listed, more⟩ :
          ∃ first rest, valuesOf name declared = first :: rest ∧ rest ≠ [] := by
        match listed : valuesOf name declared with
        | [] | [_] => simp [listed] at once
        | first :: second :: rest => exact ⟨first, second :: rest, rfl, List.cons_ne_nil _ _⟩
      obtain ⟨others, head, same⟩ := harmless first rest listed more
      obtain ⟨final, last, kept, all⟩ := exists_lastBound given listed more others
      constructor
      · intro mem
        rw [valuesOf_foldl_mergeParameter given listed] at mem
        rcases List.mem_cons.1 mem with missing | mem
        · rw [eq_comm, Option.or_eq_none_iff] at missing
          simp [missing.1, missing.2] at head
        · exact absurd mem others
      · rw [kept, all]
        cases given' : lastBound name given with
        | none => rfl
        | some value =>
          rw [same value given'] at last
          cases last
          rfl

end Parameter

/-! ## The two sides -/

namespace Task

open Parameter

variable (t : Task) {name : String}

/-- A name is dynamic as often as it is listed without value. -/
theorem count_dynamicParameters (name : String) :
    t.dynamicParameters.count name = (valuesOf name t.parameters).count none := by
  rw [dynamicParameters]
  induction t.parameters with
  | nil => rfl
  | cons p rest ih =>
    obtain ⟨other, value⟩ := p
    rw [valuesOf_cons]
    by_cases same : other = name
    · cases value <;> simpa [isBound, same] using ih
    · cases value <;> simpa [isBound, same] using ih

theorem mem_keys_staticParameters :
    name ∈ t.staticParameters.keys ↔ (lastBound name t.parameters).isSome := by
  rw [Table.mem_keys_iff, get?_staticParameters]

/-- Every name that is listed is on one of the sides, and no other name is. -/
theorem mem_sides_iff : name ∈ t.dynamicParameters ∨ name ∈ t.staticParameters.keys ↔
    valuesOf name t.parameters ≠ [] := by
  rw [mem_dynamicParameters, mem_keys_staticParameters, lastBound, List.getLast?_isSome]
  cases listed : valuesOf name t.parameters with
  | nil => simp
  | cons first rest => cases first <;> simp

/-- The two sides agree with what is listed if the parameters do. -/
theorem agrees_iff (all : List Parameter) :
    (∀ name, Agrees name t.parameters all) ↔
      t.dynamicParameters.Nodup ∧
        (∀ name ∈ t.dynamicParameters, name ∉ t.staticParameters.keys) ∧
        ∀ name, t.staticParameters.get? name = lastBound name all := by
  simp only [List.nodup_iff_count_le_one, count_dynamicParameters, mem_dynamicParameters,
    mem_keys_staticParameters, get?_staticParameters]
  constructor
  · intro agrees
    refine ⟨fun name => ?_, fun name mem => ?_, fun name => (agrees name).last⟩
    · by_cases mem : none ∈ valuesOf name t.parameters
      · rw [(agrees name).unmixed mem]
        exact Nat.le_refl 1
      · rw [List.count_eq_zero_of_not_mem mem]
        exact Nat.zero_le 1
    · rw [lastBound, (agrees name).unmixed mem]
      exact Bool.false_ne_true
  · rintro ⟨once, apart, last⟩ name
    refine ⟨fun mem => ?_, last name⟩
    -- A dynamic name has no value anywhere, and is listed as often as it is dynamic.
    have unbound : ∀ value ∈ valuesOf name t.parameters, value = none := by
      have missing := apart name mem
      rw [lastBound, List.getLast?_isSome, not_not] at missing
      exact List.filterMap_eq_nil_iff.1 missing
    have alike := List.eq_replicate_iff.2 ⟨rfl, unbound⟩
    have length := once name
    rw [alike, List.count_replicate_self] at length
    have nonempty := List.length_pos_of_mem mem
    rw [alike, show (valuesOf name t.parameters).length = 1 by omega]
    rfl

end Task

/-- Each parameter of a resolved task is either static or dynamic, and the static ones have the
values that are given last, of all that is listed. -/
structure ResolvedTask.Partitions (u : ResolvedTask) (all : List Parameter) : Prop where
  once : u.dynamicParameters.Nodup
  apart : ∀ name ∈ u.dynamicParameters, name ∉ u.staticParameters.keys
  listed (name : String) : name ∈ u.dynamicParameters ∨ name ∈ u.staticParameters.keys ↔
    name ∈ all.map (·.name)
  strongest (name : String) : u.staticParameters.get? name = Parameter.lastBound name all

namespace ResolvedTask.Runs

variable {u : ResolvedTask} {t : Task} {given : List Configuration}

theorem mem_sides_iff (runs : u.Runs (given.foldl Task.apply t)) (name : String) :
    name ∈ u.dynamicParameters ∨ name ∈ u.staticParameters.keys ↔
      name ∈ (t.listed given).map (·.name) := by
  rw [runs.dynamicParameters, runs.staticParameters, Task.mem_sides_iff,
    Task.parameters_foldl_apply, ne_eq, Parameter.valuesOf_foldl_eq_nil_iff, not_not]
  rfl

theorem partitions_iff_harmless (runs : u.Runs (given.foldl Task.apply t)) :
    u.Partitions (t.listed given) ↔
      ∀ name, Parameter.Harmless name t.parameters (given.flatMap (·.parameters)) := by
  have agrees := Task.agrees_iff (given.foldl Task.apply t) (t.listed given)
  simp only [Task.parameters_foldl_apply, Task.listed, Parameter.agrees_foldl_iff] at agrees
  rw [agrees, ← runs.dynamicParameters, ← runs.staticParameters]
  constructor
  · intro h
    exact ⟨h.once, h.apart, h.strongest⟩
  · rintro ⟨once, apart, strongest⟩
    exact ⟨once, apart, runs.mem_sides_iff, strongest⟩

end ResolvedTask.Runs

namespace Lineages

open Workflow (configurationsFrom mergesAll_of_some)

/-- Every task of a space that is accepted runs a task that some workflow of the lineage declares,
configured by this workflow, by those below it and by the space. What these list are exactly the
names of its static and dynamic parameters. Both sides are apart, and the static ones have the
values that are given last, if and only if nothing is listed more than once in the declaration that
does harm there. -/
theorem partitions_iff {workflows : List Workflow} {calls : List Call} {name : String}
    {r : ResolvedWorkflow} {s : Space} {tasks : List ResolvedTask} {warnings : List CompileWarning}
    (resolved : ((after workflows calls).resolve name).1 = .ok r)
    (accepted : s.resolveTasks r = .ok (tasks, warnings)) {u : ResolvedTask} (mem : u ∈ tasks) :
    ∃ above w below t, r.lineage = (above ++ w :: below).map (·.name) ∧
      (∀ v ∈ above ++ w :: below, v ∈ workflows) ∧ t ∈ w.tasks ∧ t.name = u.name ∧
      u.Runs ((s.configurationsOf w below t).foldl Task.apply (w.own t)) ∧
      (∀ n, n ∈ u.dynamicParameters ∨ n ∈ u.staticParameters.keys ↔
        n ∈ (t.listed (s.configurationsOf w below t)).map (·.name)) ∧
      (u.Partitions (t.listed (s.configurationsOf w below t)) ↔ ∀ n, Parameter.Harmless n
        t.parameters ((s.configurationsOf w below t).flatMap (·.parameters))) := by
  have keyed := keyed_ofWorkflows workflows
  obtain ⟨line, h, merged⟩ := (sound_after workflows calls).exists_line keyed resolved
  have made := mergesAll_of_some merged
  obtain ⟨x, among, same, runs⟩ := Space.runs_configure accepted mem
  obtain ⟨above, w, below, t, rfl, declared, rfl⟩ := made.mem_tasks_iff.1 among
  have used : s.configure ((w.own t).configuredBy (configurationsFrom w below)) =
      (s.configurationsOf w below t).foldl Task.apply (w.own t) :=
    ((w.own t).configuredBy_append _ _).symm
  rw [used] at runs
  rw [Task.configuredBy_name, Workflow.own_name] at same
  refine ⟨above, w, below, t, made.lineage_eq, fun v mem => ?_, declared, same, runs,
    runs.mem_sides_iff, runs.partitions_iff_harmless⟩
  exact (of_get?_ofWorkflows (h.known_of_mem keyed mem)).1

/-- The parameters of the task that `tuned` inherits and the space binds are on one side each. -/
theorem partitions_tuned : ∃ r tasks warnings, ((after [tuned, plain] []).resolve "V").1 = .ok r ∧
    overTuned.resolveTasks r = .ok (tasks, warnings) ∧ ∃ u ∈ tasks, u.name = "t" ∧
      u.Partitions (plainTask.listed (overTuned.configurationsOf plain [tuned] plainTask)) := by
  obtain ⟨r, resolved, lineage, accepted⟩ :=
    exists_ok (r := ((after [tuned, plain] []).resolve "V").1)
      (p := fun r => r.lineage = ["W", "V"] ∧
        (overTuned.resolveTasks r).toOption.any (fun p => ∃ u ∈ p.1, u.name = "t"))
      (by decide +kernel)
  obtain ⟨⟨tasks, warnings⟩, made, u, mem, named⟩ := exists_ok accepted
  obtain ⟨above, w, below, t, line, known, declared, -, -, -, partitions⟩ :=
    partitions_iff resolved made mem
  -- Only `plain` declares a task, and only `tuned` can stand below it.
  obtain rfl : w = plain := by
    rcases List.mem_pair.1 (known w (by simp)) with rfl | same
    · cases declared
    · exact same
  obtain rfl := List.mem_singleton.1 declared
  rw [lineage] at line
  obtain ⟨rfl, v, rfl, lowest⟩ : above = [] ∧ ∃ v, below = [v] ∧ v.name = "V" := by
    match above with
    | [] =>
      obtain ⟨-, others⟩ := List.cons.inj line
      obtain ⟨v, below', rfl, lowest, ends⟩ := List.map_eq_cons_iff.1 others.symm
      rw [List.map_eq_nil_iff.1 ends]
      exact ⟨rfl, v, rfl, lowest⟩
    | [_] => simp [plain] at line
    | _ :: _ :: _ => simp at line
  obtain rfl : v = tuned := by
    rcases List.mem_pair.1 (known v (by simp)) with same | rfl
    · exact same
    · exact absurd lowest (by decide)
  refine ⟨r, tasks, warnings, resolved, made, u, mem, named, partitions.2 fun n => ?_⟩
  exact Parameter.harmless_of_nodup (by decide) n _

/-- A task that lists one parameter twice with different values, and another one with and without a
value. -/
def repeating : Workflow :=
  { name := "W"
    tasks := [{ name := "t", implementation := some "t.sh"
                parameters := [.bound "a" (.text "1"), .bound "a" (.text "2"), .dynamic "b",
                  .bound "b" (.text "1")] }] }

def overRepeating : Space :=
  { name := "S", workflow := "W"
    configurations := [{ task := "t", parameters := [.bound "a" (.text "3")] }] }

/-- The parameter `b` is both dynamic and static, and `a` does not have the value of the space. -/
theorem not_partitions_repeating : ∃ r tasks warnings,
    ((after [repeating] []).resolve "W").1 = .ok r ∧
    overRepeating.resolveTasks r = .ok (tasks, warnings) ∧ ∃ u ∈ tasks, ∃ t ∈ repeating.tasks,
      u.name = t.name ∧ u.dynamicParameters = ["b"] ∧ u.staticParameters.keys = ["a", "b"] ∧
      u.staticParameters.get? "a" = some (.text "2") ∧
      Parameter.lastBound "a" (t.listed (overRepeating.configurationsOf repeating [] t)) =
        some (.text "3") ∧
      ¬u.Partitions (t.listed (overRepeating.configurationsOf repeating [] t)) := by
  obtain ⟨r, resolved, accepted⟩ :=
    exists_ok (r := ((after [repeating] []).resolve "W").1)
      (p := fun r => (overRepeating.resolveTasks r).toOption.any (fun p => ∃ u ∈ p.1,
        u.name = "t" ∧ u.dynamicParameters = ["b"] ∧ u.staticParameters.keys = ["a", "b"] ∧
          u.staticParameters.get? "a" = some (.text "2"))) (by decide +kernel)
  obtain ⟨⟨tasks, warnings⟩, made, u, mem, named, dynamic, keys, value⟩ := exists_ok accepted
  refine ⟨r, tasks, warnings, resolved, made, u, mem, _, List.mem_cons_self, named, dynamic, keys,
    value, by decide +kernel, ?_⟩
  intro partitions
  apply partitions.apart "b"
  · rw [dynamic]
    exact List.mem_singleton_self _
  · rw [keys]
    decide

end Lineages

end Sweep
