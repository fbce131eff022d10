import Sweep.Proofs.Compile.Resolution
import Sweep.Proofs.Compile.Validity

/-!
# What a compilation depends on

A compilation looks up the workflows that its spaces name and, from each of these, the workflows
above it. Any list of workflows that holds all of these gives the same artifact, whatever else it
holds and in whichever order: only the advice about workflows that are not used tells the lists
apart.

Two tables of workflows are compared over the names that are relevant. To be relevant is handed on
from a workflow to its parent, so a walk upwards never leaves the names on which the tables agree.
-/

namespace Sweep

/-- A workflow is met on the way from a name upwards. -/
inductive Workflow.InLineage (workflows : List Workflow) : String → Workflow → Prop
  | self {w : Workflow} : w ∈ workflows → InLineage workflows w.name w
  | above {v w : Workflow} {parent : String} : v ∈ workflows → v.parent = some parent →
      InLineage workflows parent w → InLineage workflows v.name w

/-- What is met from a workflow upwards is the workflow itself, or is met from its parent. -/
theorem Workflow.inLineage_iff {workflows : List Workflow}
    (distinct : (workflows.map (·.name)).Nodup) {v w : Workflow} (known : v ∈ workflows) :
    InLineage workflows v.name w ↔
      w = v ∨ ∃ parent, v.parent = some parent ∧ InLineage workflows parent w := by
  constructor
  · intro met
    generalize named : v.name = name at met
    cases met with
    | self mem => exact .inl (List.inj_on_of_nodup_map distinct mem known named.symm)
    | above mem child met =>
      obtain rfl := List.inj_on_of_nodup_map distinct mem known named.symm
      exact .inr ⟨_, child, met⟩
  · rintro (rfl | ⟨parent, child, met⟩)
    · exact .self known
    · exact .above known child met

def CompileWarning.isUnusedWorkflow : CompileWarning → Bool
  | .unusedWorkflow _ => true
  | _ => false

/-- A table binds the relevant names to the workflows to which another binds them. -/
structure Carries (relevant : String → Prop) (models other : Table Workflow) : Prop where
  bound {name : String} {w : Workflow} :
    relevant name → models.get? name = some w → other.get? name = some w
  parent {name parent : String} {w : Workflow} :
    relevant name → models.get? name = some w → w.parent = some parent → relevant parent

namespace Carries

variable {relevant : String → Prop} {models other : Table Workflow}

/-- What has been visited is left out of both tables. -/
theorem erase (h : Carries relevant models other) (name : String) :
    Carries relevant (models.erase name) (other.erase name) := by
  have kept {key : String} {w : Workflow} (found : (models.erase name).get? key = some w) :
      name ≠ key ∧ models.get? key = some w := by
    rw [Table.get?_erase] at found
    split at found
    · cases found
    · next apart => exact ⟨apart, found⟩
  constructor
  · intro key w rel found
    obtain ⟨apart, found⟩ := kept found
    rw [Table.get?_erase_of_ne apart]
    exact h.bound rel found
  · intro key above w rel found child
    exact h.parent rel (kept found).2 child

end Carries

/-- A list that holds every workflow met on the way upwards from some names carries these names. -/
theorem carries_ofWorkflows {workflows others : List Workflow}
    (distinct : (workflows.map (·.name)).Nodup) (distinct' : (others.map (·.name)).Nodup) :
    Carries (fun name => ∀ w, Workflow.InLineage workflows name w → w ∈ others)
      (Lineages.ofWorkflows workflows).models (Lineages.ofWorkflows others).models := by
  have known {list : List Workflow} (distinct : (list.map (·.name)).Nodup) {name : String}
      {w : Workflow} :
      (Lineages.ofWorkflows list).models.get? name = some w ↔ w ∈ list ∧ w.name = name := by
    rw [Lineages.ofWorkflows, Table.get?_ofList_eq_some (by rwa [List.map_map])]
    simp only [List.mem_map, Prod.mk.injEq]
    constructor
    · rintro ⟨v, mem, rfl, rfl⟩
      exact ⟨mem, rfl⟩
    · rintro ⟨mem, rfl⟩
      exact ⟨w, mem, rfl, rfl⟩
  constructor
  · intro name w rel found
    obtain ⟨mem, rfl⟩ := (known distinct).1 found
    exact (known distinct').2 ⟨rel w (.self mem), rfl⟩
  · intro name above w rel found child v met
    obtain ⟨mem, rfl⟩ := (known distinct).1 found
    exact rel v (.above mem child met)

/-! ## Resolution -/

namespace Lineages

variable {relevant : String → Prop}

/-- The walk upwards from a relevant name is the same walk. -/
theorem ancestry_carried {resolved : Table ResolvedWorkflow} {unvisited other : Table Workflow}
    {path : List String} {name : String} {way : Option ResolvedWorkflow × List Workflow}
    (carries : Carries relevant unvisited other) (rel : relevant name)
    (walked : ancestry resolved unvisited path name = .ok way) :
    ancestry resolved other path name = .ok way := by
  induction unvisited, path, name using ancestry.induct resolved generalizing other way with
  | case1 unvisited path name base known =>
    rw [ancestry, known] at walked ⊢
    exact walked
  | case2 unvisited path name unresolved again =>
    rw [ancestry, unresolved] at walked
    simp only [again, if_true] at walked
    cases walked
  | case3 unvisited path name unresolved new missing =>
    rw [ancestry_step unresolved new, missing] at walked
    cases walked
  | case4 unvisited path name unresolved new w found root =>
    rw [ancestry_step unresolved new, found] at walked
    rw [ancestry_step unresolved new, carries.bound rel found]
    simp only [root] at walked ⊢
    exact walked
  | case5 unvisited path name unresolved new w found parent child e failed ih =>
    rw [ancestry_step unresolved new, found] at walked
    simp only [child, failed] at walked
    cases walked
  | case6 unvisited path name unresolved new w found parent child base below above ih =>
    have upper := ih (carries.erase name) (carries.parent rel found child) above
    rw [ancestry_step unresolved new, found] at walked
    rw [ancestry_step unresolved new, carries.bound rel found]
    simp only [child, above, upper] at walked ⊢
    exact walked

/-- Two states of resolution that have found the same, over tables that agree on what is
relevant. -/
structure Agree (relevant : String → Prop) (l l' : Lineages) : Prop where
  resolved : l'.resolved = l.resolved
  carries : Carries relevant l.models l'.models

variable {l l' : Lineages}

theorem descend_agree {base : Option ResolvedWorkflow} {below : List Workflow}
    (agree : Agree relevant l l') :
    (l'.descend base below).1 = (l.descend base below).1 ∧
      Agree relevant (l.descend base below).2 (l'.descend base below).2 := by
  induction below generalizing base l l' with
  | nil => exact ⟨rfl, agree⟩
  | cons w below ih =>
    rw [descend, descend]
    cases w.merge base with
    | error e => exact ⟨rfl, agree⟩
    | ok merged =>
      apply ih
      exact ⟨by rw [agree.resolved], agree.carries⟩

/-- A relevant workflow that is resolved is resolved to the same, and leaves the states in
agreement. -/
theorem resolve_agree {name : String} {w : ResolvedWorkflow} {l₁ : Lineages}
    (agree : Agree relevant l l') (rel : relevant name) (done : l.resolve name = (.ok w, l₁)) :
    ∃ l₁', l'.resolve name = (.ok w, l₁') ∧ Agree relevant l₁ l₁' := by
  unfold resolve at done ⊢
  cases walked : ancestry l.resolved l.models [] name with
  | error e =>
    rw [walked] at done
    cases done
  | ok way =>
    obtain ⟨base, below⟩ := way
    obtain ⟨same, after⟩ := @descend_agree relevant _ _ base below agree
    rw [agree.resolved, ancestry_carried agree.carries rel walked]
    rw [walked] at done
    dsimp only at done ⊢
    generalize l.descend base below = first at done same after
    generalize l'.descend base below = second at same after
    obtain ⟨result, l₂⟩ := first
    obtain ⟨result', l₂'⟩ := second
    dsimp only at same
    subst same
    cases result' with
    | error e => cases done
    | ok found =>
      cases found with
      | none => cases done
      | some merged =>
        cases done
        exact ⟨l₂', rfl, after⟩

/-- What is relevant and known is known in both states. -/
theorem contains_agree {name : String} (agree : Agree relevant l l') (rel : relevant name)
    (known : l.contains name = true) : l'.contains name = true := by
  rw [contains, Table.contains_eq, Option.isSome_iff_exists] at known ⊢
  obtain ⟨w, found⟩ := known
  exact ⟨w, agree.carries.bound rel found⟩

end Lineages

/-! ## Planning -/

namespace Compile

variable {relevant : String → Prop}

/-- Two states of planning that have found the same, over tables that agree on what is relevant. -/
structure Planning.Agree (relevant : String → Prop) (p p' : Planning) : Prop where
  lineages : Lineages.Agree relevant p.lineages p'.lineages
  errors : p'.errors = p.errors
  plans : p'.plans = p.plans
  warnings : p'.warnings = p.warnings

variable {p p' : Planning}

/-- A space that names a relevant workflow is planned alike. -/
theorem add_agree {s : Space} (agree : Planning.Agree relevant p p') (rel : relevant s.workflow)
    (fine : (p.add s).errors = []) : Planning.Agree relevant (p.add s) (p'.add s) := by
  obtain ⟨-, known, w, lineages, plan, warnings, resolved, planned⟩ := exists_of_add fine
  obtain ⟨lineages', resolved', after⟩ := Lineages.resolve_agree agree.lineages rel resolved
  have known' := Lineages.contains_agree agree.lineages rel known
  rw [add_planned known resolved planned, add_planned known' resolved' planned]
  exact ⟨after, agree.errors, by rw [agree.plans], by rw [agree.warnings]⟩

theorem fold_agree {spaces : List Space} (agree : Planning.Agree relevant p p')
    (rel : ∀ s ∈ spaces, relevant s.workflow)
    (fine : (spaces.foldl Planning.add p).errors = []) :
    Planning.Agree relevant (spaces.foldl Planning.add p) (spaces.foldl Planning.add p') := by
  induction spaces generalizing p p' with
  | nil => exact agree
  | cons s rest ih =>
    obtain ⟨first, -⟩ := found_of_fold (p := p.add s) fine
    have next := add_agree agree (rel s List.mem_cons_self) first
    exact ih next (fun t mem => rel t (List.mem_cons_of_mem _ mem)) fine

/-- The plans are the same over every list of workflows that carries what the spaces name. -/
theorem planSpaces_carried {e : Experiment} {workflows others : List Workflow}
    {found : List SpacePlan × List CompileWarning}
    (carries : Carries relevant (Lineages.ofWorkflows workflows).models
      (Lineages.ofWorkflows others).models)
    (rel : ∀ s ∈ e.spaces, relevant s.workflow) (planned : planSpaces e workflows = .ok found) :
    planSpaces e others = .ok found := by
  unfold planSpaces at planned ⊢
  simp only at planned ⊢
  obtain ⟨_, checked, planned⟩ := exists_of_bind_ok planned
  have agree : Planning.Agree relevant { lineages := .ofWorkflows workflows }
      { lineages := .ofWorkflows others } := ⟨⟨rfl, carries⟩, rfl, rfl, rfl⟩
  have after := fold_agree agree rel (CompileFailure.check_eq_ok_iff.1 checked)
  rw [after.errors, after.plans, after.warnings, checked]
  exact planned

theorem mem_referencedWorkflows {e : Experiment} {name : String} :
    name ∈ e.referencedWorkflows ↔ ∃ s ∈ e.spaces, s.workflow = name := by
  have same (names : List String) : Experiment.firstOccurrences names =
      ControlGraph.distinct names := by
    simp only [Experiment.firstOccurrences, ControlGraph.distinct, List.contains_iff_mem]
  rw [Experiment.referencedWorkflows, same, ControlGraph.mem_distinct, List.mem_map]

/-- Nothing but the plans is taken of the workflows into the artifact. -/
theorem artifact_of_planned {e : Experiment} {workflows others : List Workflow} {out : Compilation}
    {found : List SpacePlan × List CompileWarning} (compiled : compile e workflows = .ok out)
    (planned : planSpaces e workflows = .ok found) (planned' : planSpaces e others = .ok found) :
    ∃ out', compile e others = .ok out' ∧ out'.artifact = out.artifact := by
  unfold compile at compiled ⊢
  obtain ⟨_, spaces, compiled⟩ := exists_of_bind_ok compiled
  obtain ⟨_, same, compiled⟩ := exists_of_bind_ok compiled
  obtain ⟨_, data, compiled⟩ := exists_of_bind_ok compiled
  obtain ⟨control, built, compiled⟩ := exists_of_bind_ok compiled
  rw [planned] at same
  cases same
  cases compiled
  simp only [spaces, planned', data, built, bind, Except.bind]
  exact ⟨_, rfl, rfl⟩

/-- The warnings of a compilation, apart from those about workflows that are not used, are those
of planning. -/
theorem warnings_about_spaces {e : Experiment} {workflows : List Workflow} {out : Compilation}
    {plans : List SpacePlan} {warnings : List CompileWarning}
    (compiled : compile e workflows = .ok out)
    (planned : planSpaces e workflows = .ok (plans, warnings)) :
    out.warnings.filter (fun w => !w.isUnusedWorkflow) =
      warnings.filter fun w => !w.isUnusedWorkflow := by
  have unused : ((unusedWorkflows e workflows).map CompileWarning.unusedWorkflow).filter
      (fun w => !w.isUnusedWorkflow) = [] := by
    apply List.filter_eq_nil_iff.2
    intro w mem
    obtain ⟨name, -, rfl⟩ := List.mem_map.1 mem
    exact Bool.noConfusion
  rw [warnings_of_compile compiled planned, List.filter_append, unused, List.append_nil]

/-- An artifact depends on the workflows in the lineages of those that the experiment names, and on
no others: with any list of workflows that holds these, the experiment compiles to the same
artifact, with the same warnings about its spaces. -/
theorem compile_relies_on_lineages {e : Experiment} {workflows others : List Workflow}
    {out : Compilation} (distinct : (workflows.map (·.name)).Nodup)
    (distinct' : (others.map (·.name)).Nodup) (compiled : compile e workflows = .ok out)
    (held : ∀ name ∈ e.referencedWorkflows, ∀ w,
      Workflow.InLineage workflows name w → w ∈ others) :
    ∃ out', compile e others = .ok out' ∧ out'.artifact = out.artifact ∧
      out'.warnings.filter (fun w => !w.isUnusedWorkflow) =
        out.warnings.filter (fun w => !w.isUnusedWorkflow) := by
  obtain ⟨plans, warnings, planned⟩ := exists_plans compiled
  have planned' : planSpaces e others = .ok (plans, warnings) :=
    planSpaces_carried (carries_ofWorkflows distinct distinct')
      (fun s mem => held s.workflow (mem_referencedWorkflows.2 ⟨s, mem, rfl⟩)) planned
  obtain ⟨out', compiled', same⟩ := artifact_of_planned compiled planned planned'
  refine ⟨out', compiled', same, ?_⟩
  rw [warnings_about_spaces compiled planned, warnings_about_spaces compiled' planned']

/-- A workflow that has its tasks from another. -/
def heir : Workflow := { name := "V", parent := some "W" }

def selfMade : Workflow := { name := "Y", parent := some "Y" }

/-- A space over the workflow that has its tasks from another. -/
def overHeir : Experiment := { name := "E", spaces := [{ name := "A", workflow := "V" }] }

/-- A workflow that cannot be resolved takes the place of one that is not used. -/
theorem compile_relies_on_heir :
    ∃ out out', compile overHeir [pairWorkflow "t" "u", heir, { name := "X" }] = .ok out ∧
      compile overHeir [selfMade, heir, pairWorkflow "t" "u"] = .ok out' ∧
      out'.artifact = out.artifact ∧ out.warnings = [.unusedWorkflow "X"] ∧
      out'.warnings = [.unusedWorkflow "Y"] := by
  obtain ⟨out, compiled, unused⟩ :=
    exists_ok (r := compile overHeir [pairWorkflow "t" "u", heir, { name := "X" }])
      (p := fun out => out.warnings = [.unusedWorkflow "X"]) (by decide +kernel)
  obtain ⟨out', compiled', unused'⟩ :=
    exists_ok (r := compile overHeir [selfMade, heir, pairWorkflow "t" "u"])
      (p := fun out => out.warnings = [.unusedWorkflow "Y"]) (by decide +kernel)
  have distinct : ([pairWorkflow "t" "u", heir, { name := "X" }].map (·.name)).Nodup := by decide
  have distinct' : ([selfMade, heir, pairWorkflow "t" "u"].map (·.name)).Nodup := by decide
  have held : ∀ name ∈ overHeir.referencedWorkflows, ∀ w,
      Workflow.InLineage [pairWorkflow "t" "u", heir, { name := "X" }] name w →
      w ∈ [selfMade, heir, pairWorkflow "t" "u"] := by
    intro name named w met
    obtain rfl : name = heir.name := List.mem_singleton.1 named
    rcases (Workflow.inLineage_iff distinct (by decide)).1 met with rfl | ⟨_, child, upper⟩
    · decide
    · cases child
      rcases (Workflow.inLineage_iff distinct (v := pairWorkflow "t" "u") (by decide)).1 upper
        with rfl | ⟨_, root, -⟩
      · decide
      · cases root
  obtain ⟨found, again, same, -⟩ := compile_relies_on_lineages distinct distinct' compiled held
  rw [compiled'] at again
  cases again
  exact ⟨out, out', compiled, compiled', same, unused, unused'⟩

end Compile

end Sweep
