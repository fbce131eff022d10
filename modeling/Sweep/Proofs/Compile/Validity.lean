import Sweep.Proofs.Artifact.Validity
import Sweep.Proofs.Compile.Identities
import Sweep.Proofs.Lists

/-!
# Compiled artifacts are valid

Transitions describe a graph exactly if they enter one space of the experiment and all others lead
from such spaces to such spaces or to the end, under conditions that can be read. If there are none,
the order of the spaces makes a graph of this kind. A task that is planned for a space is known by
the identity of its representative, which is defined. So whatever a compiled artifact names, it
defines. The conditions of its transitions are kept as they were read.
-/

namespace Sweep

/-- A transition that leads from a space to a space or to the end and whose condition can be
read. -/
structure Transition.Proper (spaces : List String) (t : Transition) : Prop where
  source : t.source ∈ spaces
  target : t.target ∈ spaces ∨ t.target = endMark
  condition : ∀ text, t.condition = some text → ∃ condition, Condition.parse text = .ok condition

structure ControlGraph.Proper (spaces : List String) (g : ControlGraph) : Prop where
  start : g.start ∈ spaces
  transitions : ∀ t ∈ g.transitions, t.Proper spaces

namespace ControlGraph

variable {spaces : List String}

/-! ## The graph of the order of the spaces -/

theorem proper_of_mem_chainTransitions {names : List String} (sub : names ⊆ spaces)
    {t : Transition} (mem : t ∈ chainTransitions names) : t.Proper spaces := by
  induction names with
  | nil => cases mem
  | cons name rest ih =>
    cases rest with
    | nil =>
      obtain rfl := List.mem_singleton.1 mem
      exact ⟨sub List.mem_cons_self, .inr rfl, nofun⟩
    | cons next rest =>
      rcases List.mem_cons.1 mem with rfl | later
      · exact ⟨sub List.mem_cons_self, .inl (sub (List.mem_cons_of_mem _ List.mem_cons_self)),
          nofun⟩
      · exact ih (fun _ among => sub (List.mem_cons_of_mem _ among)) later

theorem proper_sequential (some : spaces ≠ []) : (sequential spaces).Proper spaces := by
  obtain ⟨first, rest, rfl⟩ := List.exists_cons_of_ne_nil some
  exact ⟨List.mem_cons_self, fun _ => proper_of_mem_chainTransitions (List.Subset.refl _)⟩

/-! ## The graph of transitions -/

theorem firstOccurrences_distinct {α : Type} [DecidableEq α] (xs : List α) :
    FirstOccurrences xs (distinct xs) := by
  induction xs using List.reverseRecOn with
  | nil => exact .nil
  | append_singleton xs x ih =>
    rw [distinct, List.foldl_append]
    exact ih.concat x

theorem mem_distinct {α : Type} [DecidableEq α] {x : α} {xs : List α} :
    x ∈ distinct xs ↔ x ∈ xs :=
  (firstOccurrences_distinct xs).mem_iff x

theorem distinct_eq_singleton_iff {α : Type} [DecidableEq α] {x : α} {xs : List α} :
    distinct xs = [x] ↔ (∃ y, y ∈ xs) ∧ ∀ y ∈ xs, y = x := by
  constructor
  · intro only
    have same (y : α) : y ∈ xs ↔ y = x := by rw [← mem_distinct, only, List.mem_singleton]
    exact ⟨⟨x, (same x).2 rfl⟩, fun y mem => (same y).1 mem⟩
  · rintro ⟨⟨y, mem⟩, same⟩
    obtain rfl := same y mem
    refine List.perm_singleton.1 ((List.perm_ext_iff_of_nodup
      (firstOccurrences_distinct xs).nodup (List.nodup_singleton y)).2 fun z => ?_)
    rw [mem_distinct, List.mem_singleton]
    exact ⟨same z, fun equal => equal ▸ mem⟩

/-- A transition into the graph is without errors exactly if the space is declared. -/
theorem transitionErrors_eq_nil_iff_declared {t : Transition} (enters : t.source = startMark) :
    transitionErrors spaces t = [] ↔ t.target ∈ spaces := by
  simp [transitionErrors, enters]

/-- Any other transition is without errors exactly if it is proper. -/
theorem transitionErrors_eq_nil_iff_proper {t : Transition} (inner : t.source ≠ startMark) :
    transitionErrors spaces t = [] ↔ t.Proper spaces := by
  rw [transitionErrors, if_neg inner, List.append_eq_nil_iff, List.append_eq_nil_iff]
  constructor
  · rintro ⟨⟨source, target⟩, condition⟩
    refine ⟨by simpa using source, ?_, fun text conditional => ?_⟩
    · by_cases atEnd : t.target = endMark
      · exact .inr atEnd
      · exact .inl (by simpa [atEnd] using target)
    · rw [conditional] at condition
      cases read : Condition.parse text with
      | ok condition => exact ⟨condition, rfl⟩
      | error cause => simp [read] at condition
  · rintro ⟨source, target, condition⟩
    refine ⟨⟨by simpa using source, ?_⟩, ?_⟩
    · split
      · rfl
      · next inside => simpa using target.resolve_right inside
    · split
      · rfl
      · next text conditional =>
        obtain ⟨condition, read⟩ := condition text conditional
        simp [read]

/-- The transitions of a list that do not enter the graph. -/
def inner (control : List Transition) : List Transition :=
  control.filter fun t => !(t.source == startMark)

theorem mem_inner {control : List Transition} {t : Transition} :
    t ∈ inner control ↔ t ∈ control ∧ t.source ≠ startMark := by
  simp [inner]

/-- Transitions that enter one declared space and are proper otherwise. -/
structure Grounded (spaces : List String) (control : List Transition) (start : String) :
    Prop where
  entered : ∃ t ∈ control, t.source = startMark
  oneEntry : ∀ t ∈ control, t.source = startMark → t.target = start
  declared : start ∈ spaces
  proper : ∀ t ∈ inner control, t.Proper spaces

/-- The targets of the transitions that enter the graph are one space. -/
theorem entries_eq_singleton_iff {control : List Transition} {start : String} :
    distinct ((control.filter fun t => t.source == startMark).map (·.target)) = [start] ↔
      (∃ t ∈ control, t.source = startMark) ∧
        ∀ t ∈ control, t.source = startMark → t.target = start := by
  have mem_entries {target : String} :
      target ∈ (control.filter fun t => t.source == startMark).map (·.target) ↔
        ∃ t ∈ control, t.source = startMark ∧ t.target = target := by
    simp [and_assoc]
  simp only [distinct_eq_singleton_iff, mem_entries]
  constructor
  · rintro ⟨⟨_, t, mem, enters, -⟩, same⟩
    exact ⟨⟨t, mem, enters⟩, fun u among enters => same _ ⟨u, among, enters, rfl⟩⟩
  · rintro ⟨⟨t, mem, enters⟩, same⟩
    refine ⟨⟨_, t, mem, enters, rfl⟩, ?_⟩
    rintro _ ⟨u, among, enters, rfl⟩
    exact same u among enters

/-- Transitions are grounded exactly if they enter one space and each of them is without errors. -/
theorem grounded_iff {control : List Transition} {start : String} :
    Grounded spaces control start ↔
      distinct ((control.filter fun t => t.source == startMark).map (·.target)) = [start] ∧
        control.flatMap (transitionErrors spaces) = [] := by
  rw [entries_eq_singleton_iff, List.flatMap_eq_nil_iff]
  constructor
  · rintro ⟨entered, oneEntry, declared, proper⟩
    refine ⟨⟨entered, oneEntry⟩, fun t mem => ?_⟩
    by_cases enters : t.source = startMark
    · rw [transitionErrors_eq_nil_iff_declared enters, oneEntry t mem enters]
      exact declared
    · exact (transitionErrors_eq_nil_iff_proper enters).2 (proper t (mem_inner.2 ⟨mem, enters⟩))
  · rintro ⟨⟨⟨t, mem, enters⟩, oneEntry⟩, fine⟩
    refine ⟨⟨t, mem, enters⟩, oneEntry, ?_, fun u among => ?_⟩
    · have declared := (transitionErrors_eq_nil_iff_declared enters).1 (fine t mem)
      rwa [oneEntry t mem enters] at declared
    · obtain ⟨among, inside⟩ := mem_inner.1 among
      exact (transitionErrors_eq_nil_iff_proper inside).1 (fine u among)

/-- Transitions describe a graph exactly if they are grounded at its start; the transitions of the
graph are those that do not enter it, each once. -/
theorem explicit_eq_ok_iff {control : List Transition} {g : ControlGraph} :
    explicit control spaces = .ok g ↔ Grounded spaces (control.map Transition.trimmed) g.start ∧
      g.transitions = distinct (inner (control.map Transition.trimmed)) := by
  rw [explicit, grounded_iff]
  generalize control.map Transition.trimmed = trimmed
  constructor
  · intro built
    split at built
    · cases built
    · next start starts =>
      obtain ⟨⟨⟩, checked, rfl⟩ := exists_of_map_ok built
      exact ⟨⟨starts, CompileFailure.check_eq_ok_iff.1 checked⟩, rfl⟩
    · cases built
  · rintro ⟨⟨starts, fine⟩, transitions⟩
    rw [starts, fine]
    show Except.ok ⟨g.start, distinct (inner trimmed)⟩ = Except.ok g
    rw [← transitions]

theorem proper_explicit {control : List Transition} {g : ControlGraph}
    (built : explicit control spaces = .ok g) : g.Proper spaces := by
  obtain ⟨grounded, transitions⟩ := explicit_eq_ok_iff.1 built
  refine ⟨grounded.declared, fun t mem => ?_⟩
  rw [transitions] at mem
  exact grounded.proper t (mem_distinct.1 mem)

/-- A graph is built from the order of the spaces, if there are no transitions, and else from
these, and it is one in which nothing is out of reach. -/
theorem build_eq_ok_iff {control : Option (List Transition)} {g : ControlGraph} :
    build spaces control = .ok g ↔ spaces ≠ [] ∧
      (control.getD [] = [] → g = sequential spaces) ∧
      (control.getD [] ≠ [] → explicit (control.getD []) spaces = .ok g) ∧
      g.reachabilityErrors spaces = [] := by
  have checks {h : ControlGraph} : (do
      CompileFailure.check (h.reachabilityErrors spaces)
      return h : Except CompileFailure ControlGraph) = .ok g ↔
        h = g ∧ g.reachabilityErrors spaces = [] := by
    constructor
    · intro checked
      obtain ⟨⟨⟩, reached, same⟩ := exists_of_bind_ok checked
      cases same
      exact ⟨rfl, CompileFailure.check_eq_ok_iff.1 reached⟩
    · rintro ⟨rfl, reached⟩
      rw [reached]
      rfl
  rw [build]
  split
  · next none =>
    exact iff_of_false nofun fun built => built.1 (List.isEmpty_iff.1 none)
  next some =>
  have some : spaces ≠ [] := fun none => some (List.isEmpty_iff.2 none)
  split
  · next first rest =>
    constructor
    · intro built
      obtain ⟨h, made, built⟩ := exists_of_bind_ok built
      obtain ⟨rfl, reached⟩ := checks.1 built
      exact ⟨some, nofun, fun _ => made, reached⟩
    · rintro ⟨-, -, made, reached⟩
      have made : explicit (first :: rest) spaces = .ok g := made (List.cons_ne_nil _ _)
      rw [made]
      exact checks.2 ⟨rfl, reached⟩
  · next plain =>
    have none : control.getD [] = [] := by
      match control with
      | none => rfl
      | .some [] => rfl
      | .some (t :: rest) => exact absurd rfl (plain t rest)
    constructor
    · intro built
      obtain ⟨rfl, reached⟩ := checks.1 built
      exact ⟨some, fun _ => rfl, fun other => absurd none other, reached⟩
    · rintro ⟨-, same, -, reached⟩
      exact checks.2 ⟨(same none).symm, reached⟩

/-- A graph that is built names spaces only, and its conditions can be read. -/
theorem proper_build {control : Option (List Transition)} {g : ControlGraph}
    (built : build spaces control = .ok g) : g.Proper spaces := by
  obtain ⟨some, plain, described, -⟩ := build_eq_ok_iff.1 built
  by_cases none : control.getD [] = []
  · rw [plain none]
    exact proper_sequential some
  · exact proper_explicit (described none)

end ControlGraph

namespace Compile

open Sharing

variable {e : Experiment} {workflows : List Workflow} {plans : List SpacePlan} {a : Artifact}

/-- Every task of a space is defined under the identity that the space knows it by. -/
theorem Stages.task?_isSome (h : Stages e workflows plans a) {space : SpaceDefinition}
    (mem : space ∈ a.spaces) {id : String} (task : id ∈ space.tasksOrder) :
    (a.task? id).isSome := by
  have defined := h.perm_tasks
  obtain ⟨control, rfl⟩ := h.assembled
  obtain ⟨p, plan, rfl⟩ := List.mem_map.1 mem
  obtain ⟨t, among, rfl⟩ := List.mem_map.1 task
  obtain ⟨pair, assigned, -, known⟩ :=
    h.planned_tasks.identified.canonicalId?_eq
      (List.mem_flatMap.2 ⟨p, plan, among⟩)
  rw [← h.space_eq plan among, known, Option.getD_some, Artifact.task?, List.find?_isSome]
  exact ⟨taskDefinition pair.2, defined.mem_iff.2 (List.mem_map.2 ⟨pair, assigned, rfl⟩), by
    simp [taskDefinition]⟩

/-- The spaces of the artifact are those of the experiment. -/
theorem Stages.space?_isSome (h : Stages e workflows plans a) {name : String}
    (mem : name ∈ e.spaces.map (·.name)) : (a.space? name).isSome := by
  rw [h.plans_follow.map_name] at mem
  obtain ⟨control, rfl⟩ := h.assembled
  obtain ⟨p, plan, rfl⟩ := List.mem_map.1 mem
  rw [Artifact.space?, List.find?_isSome]
  exact ⟨_, List.mem_map.2 ⟨p, plan, rfl⟩, by simp [spaceDefinition]⟩

/-- The graph of a compiled artifact is built from the transitions of the experiment. -/
theorem built_of_compile {out : Compilation} (compiled : compile e workflows = .ok out) :
    ControlGraph.build (e.spaces.map (·.name)) e.control = .ok out.artifact.control := by
  unfold compile at compiled
  obtain ⟨-, -, compiled⟩ := exists_of_bind_ok compiled
  obtain ⟨⟨plans, warnings⟩, -, compiled⟩ := exists_of_bind_ok compiled
  obtain ⟨-, -, compiled⟩ := exists_of_bind_ok compiled
  obtain ⟨control, built, assembled⟩ := exists_of_bind_ok compiled
  cases assembled
  exact built

theorem proper_of_compile {out : Compilation} (compiled : compile e workflows = .ok out) :
    out.artifact.control.Proper (e.spaces.map (·.name)) :=
  ControlGraph.proper_build (built_of_compile compiled)

/-- What is compiled is valid. -/
theorem validate_of_compile {out : Compilation} (compiled : compile e workflows = .ok out) :
    out.artifact.validate = .ok () := by
  obtain ⟨plans, warnings, planned⟩ := exists_plans compiled
  have h := stages compiled planned
  have proper := proper_of_compile compiled
  refine Artifact.validate_eq_ok.2 ⟨fun space mem id task => h.task?_isSome mem task,
    h.space?_isSome proper.start, fun t mem => ?_⟩
  obtain ⟨source, target, -⟩ := proper.transitions t mem
  simp only [Artifact.declares, h.space?_isSome source, Bool.true_and, Bool.or_eq_true,
    beq_iff_eq]
  exact target.imp_left h.space?_isSome

end Compile

end Sweep
