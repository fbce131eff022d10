import Sweep.Proofs.Compile.Planning
import Sweep.Proofs.Compile.Relevance

/-!
# Workflows that are not used

A compilation advises of the workflows that no space makes use of. To find them it follows parents
one by one from each workflow that a space names, and gives up after more rounds than there are
workflows, for a workflow that no space needs may be its own ancestor or have a parent that is not
known. The bound loses nothing: a way upwards that comes to a name at all comes there without
meeting a workflow twice. Where compilation succeeds, what is met from a named workflow is its
lineage, so the advice is about exactly the workflows that are in no lineage.
-/

namespace Sweep

namespace Lineages

variable {models : Table Workflow} {name start last : String} {way line upper lower : List Workflow}
  {w : Workflow}

/-! ## Climbs to a name -/

namespace Climbs

theorem append {rest : List Workflow} (climb : Climbs models start way last)
    (further : Climbs models last rest name) : Climbs models start (way ++ rest) name := by
  induction further with
  | stay => rwa [List.append_nil]
  | up _ found parent ih => exact List.append_assoc .. ▸ ih.up found parent

theorem eq_of_nil (climb : Climbs models start [] name) : name = start := by
  generalize none : ([] : List Workflow) = way at climb
  cases climb with
  | stay => rfl
  | up => simp at none

/-- The first step of a climb is to the parent of where it starts. -/
theorem cons_iff : Climbs models start (w :: way) name ↔
    ∃ parent, models.get? start = some w ∧ w.parent = some parent ∧
      Climbs models parent way name := by
  constructor
  · intro climb
    generalize whole : w :: way = all at climb
    induction climb generalizing way with
    | stay => cases whole
    | @up all last parent v climb found above ih =>
      rcases List.cons_eq_append_iff.1 whole with ⟨rfl, single⟩ | ⟨rest, rfl, rfl⟩
      · cases single
        obtain rfl := climb.eq_of_nil
        exact ⟨parent, found, above, .stay⟩
      · obtain ⟨next, here, first, climb⟩ := ih rfl
        exact ⟨next, here, first, climb.up found above⟩
  · rintro ⟨parent, found, above, climb⟩
    exact append (.up .stay found above) climb

/-- A climb that goes round does without the round. -/
theorem exists_nodup (keyed : Keyed models) (climb : Climbs models start (w :: way) name) :
    ∃ way', Climbs models start (w :: way') name ∧ ((w :: way').map (·.name)).Nodup := by
  induction way generalizing start w with
  | nil => exact ⟨[], climb, List.nodup_singleton _⟩
  | cons next way ih =>
    obtain ⟨parent, found, above, further⟩ := cons_iff.1 climb
    obtain ⟨rest, short, distinct⟩ := ih further
    by_cases again : w.name ∈ (next :: rest).map (·.name)
    · obtain ⟨v, mem, same⟩ := List.mem_map.1 again
      obtain rfl : v = w := by
        have known := short.known keyed mem
        rw [same, keyed _ _ found, found] at known
        exact (Option.some.inj known).symm
      obtain ⟨before, after, whole⟩ := List.append_of_mem mem
      rw [whole] at short distinct
      rw [List.map_append] at distinct
      exact ⟨after, keyed _ _ found ▸ (short.of_append keyed).2, distinct.of_append_right⟩
    · exact ⟨next :: rest, cons_iff.2 ⟨parent, found, above, short⟩,
        List.nodup_cons.2 ⟨again, distinct⟩⟩

/-- A climb over workflows of different names is no longer than there are names. -/
theorem length_le (keyed : Keyed models) (climb : Climbs models start way last)
    (distinct : (way.map (·.name)).Nodup) : way.length ≤ models.size := by
  have known : way.map (·.name) ⊆ models.keys := by
    intro name listed
    obtain ⟨w, mem, rfl⟩ := List.mem_map.1 listed
    rw [Table.mem_keys_iff, climb.known keyed mem]
    rfl
  simpa [Table.keys, Table.size] using (List.subperm_of_subset distinct known).length_le

end Climbs

/-- From the lower end of a line one climbs to each of its workflows. -/
theorem Line.climbs (keyed : Keyed models) (h : Line models start (upper ++ w :: lower)) :
    Climbs models start lower.reverse w.name := by
  generalize whole : upper ++ w :: lower = line at h
  induction h generalizing lower with
  | @root name v found top =>
    obtain ⟨-, single⟩ | ⟨-, absurd⟩ := List.append_eq_singleton_iff.1 whole
    · cases single
      exact keyed _ _ found ▸ .stay
    · cases absurd
  | @child name parent v above found child h ih =>
    rcases split_concat whole.symm with ⟨rfl, rfl, rfl⟩ | ⟨rest, rfl, front⟩
    · exact keyed _ _ found ▸ .stay
    · rw [List.reverse_concat]
      exact Climbs.cons_iff.2 ⟨parent, found, child, ih front.symm⟩

/-- Of a name that has a line, the line holds what is climbed to, and nothing else. -/
theorem Line.mem_names_iff (keyed : Keyed models) (h : Line models start line) :
    name ∈ line.map (·.name) ↔ ∃ way, Climbs models start way name := by
  constructor
  · intro listed
    obtain ⟨w, mem, rfl⟩ := List.mem_map.1 listed
    obtain ⟨upper, lower, rfl⟩ := List.append_of_mem mem
    exact ⟨_, h.climbs keyed⟩
  · rintro ⟨way, climb⟩
    obtain ⟨upper, h', rfl⟩ := climb.exists_upper h
    obtain ⟨above, w, rfl, found⟩ := h'.exists_concat
    simp [keyed _ _ found]

end Lineages

namespace Compile

open Lineages (Climbs Keyed Line Sound ofWorkflows)
open Workflow (mergesAll_of_some)

/-! ## The walk from parent to parent -/

def parentOf (models : Table Workflow) (name : String) : Option String :=
  (models.get? name).bind (·.parent)

/-- The rounds of a walk upwards in search of a name, from a number of rounds that were done and the
parent to be looked at next. The walk ends where there is no parent, at the name, or if more rounds
have been done than there are workflows. It is told after how many rounds it ends and whether it has
found the name. -/
inductive Seeks (models : Table Workflow) (name : String) :
    Nat → Option String → Nat → Bool → Prop
  | nowhere {rounds : Nat} : Seeks models name rounds none rounds false
  | met {rounds : Nat} : Seeks models name rounds (some name) rounds true
  | givesUp {rounds : Nat} {parent : String} : parent ≠ name → models.size < rounds + 1 →
      Seeks models name rounds (some parent) (rounds + 1) false
  | climbs {rounds final : Nat} {parent : String} {found : Bool} : parent ≠ name →
      rounds + 1 ≤ models.size →
      Seeks models name (rounds + 1) (parentOf models parent) final found →
      Seeks models name rounds (some parent) final found

variable {models : Table Workflow} {name start : String}

/-- A walk ends in one way only. -/
theorem Seeks.unique {rounds final final' : Nat} {next : Option String} {found found' : Bool}
    (h : Seeks models name rounds next final found)
    (h' : Seeks models name rounds next final' found') : final' = final ∧ found' = found := by
  induction h with
  | nowhere =>
    cases h'
    exact ⟨rfl, rfl⟩
  | met =>
    cases h' with
    | met => exact ⟨rfl, rfl⟩
    | givesUp other => exact absurd rfl other
    | climbs other => exact absurd rfl other
  | givesUp other many =>
    cases h' with
    | met => exact absurd rfl other
    | givesUp => exact ⟨rfl, rfl⟩
    | climbs _ few => omega
  | climbs other few _ ih =>
    cases h' with
    | met => exact absurd rfl other
    | givesUp _ many => omega
    | climbs _ _ h' => exact ih h'

theorem isAncestor_of_none {fuel : Nat} (top : parentOf models start = none) :
    isAncestor models name (fuel + 1) start = false := by
  rw [isAncestor, ← parentOf, top]

theorem isAncestor_of_some {fuel : Nat} {parent : String}
    (above : parentOf models start = some parent) :
    isAncestor models name (fuel + 1) start =
      (parent == name || isAncestor models name fuel parent) := by
  rw [isAncestor, ← parentOf, above]

/-- A walk with some rounds left ends within one more, with what is found in as many steps. -/
theorem exists_seeks (name start : String) {rounds left : Nat}
    (whole : rounds + left = models.size) :
    ∃ final ≤ models.size + 1, Seeks models name rounds (parentOf models start) final
      (isAncestor models name (left + 1) start) := by
  cases above : parentOf models start with
  | none =>
    rw [isAncestor_of_none above]
    exact ⟨rounds, by omega, .nowhere⟩
  | some parent =>
    rw [isAncestor_of_some above]
    by_cases here : parent = name
    · subst here
      rw [beq_self_eq_true, Bool.true_or]
      exact ⟨rounds, by omega, .met⟩
    · rw [beq_false_of_ne here, Bool.false_or]
      cases left with
      | zero => exact ⟨rounds + 1, by omega, .givesUp here (by omega)⟩
      | succ left =>
        have rest : rounds + 1 + left = models.size := by omega
        obtain ⟨final, few, further⟩ := exists_seeks name parent rest
        exact ⟨final, few, .climbs here (by omega) further⟩

/-- What is found in some steps is climbed to. -/
theorem exists_climbs {steps : Nat} (met : isAncestor models name steps start = true) :
    ∃ w way, Climbs models start (w :: way) name := by
  induction steps generalizing start with
  | zero => cases met
  | succ steps ih =>
    cases above : parentOf models start with
    | none =>
      rw [isAncestor_of_none above] at met
      cases met
    | some parent =>
      rw [isAncestor_of_some above, Bool.or_eq_true, beq_iff_eq] at met
      obtain ⟨w, found, child⟩ := Option.bind_eq_some_iff.1 above
      rcases met with rfl | met
      · exact ⟨w, [], Climbs.up .stay found child⟩
      · obtain ⟨v, way, further⟩ := ih met
        exact ⟨w, v :: way, Climbs.cons_iff.2 ⟨parent, found, child, further⟩⟩

/-- What is climbed to is found in as many steps as the climb has. -/
theorem isAncestor_of_climbs {w : Workflow} {way : List Workflow} {steps : Nat}
    (climb : Climbs models start (w :: way) name) (enough : way.length < steps) :
    isAncestor models name steps start = true := by
  induction way generalizing start w steps with
  | nil =>
    obtain ⟨steps, rfl⟩ := Nat.exists_eq_succ_of_ne_zero (Nat.ne_zero_of_lt enough)
    obtain ⟨parent, found, child, here⟩ := Climbs.cons_iff.1 climb
    obtain rfl := here.eq_of_nil
    rw [isAncestor_of_some (Option.bind_eq_some_iff.2 ⟨w, found, child⟩), beq_self_eq_true,
      Bool.true_or]
  | cons v way ih =>
    obtain ⟨steps, rfl⟩ := Nat.exists_eq_succ_of_ne_zero (Nat.ne_zero_of_lt enough)
    obtain ⟨parent, found, child, further⟩ := Climbs.cons_iff.1 climb
    rw [isAncestor_of_some (Option.bind_eq_some_iff.2 ⟨w, found, child⟩),
      ih further (by simpa using enough), Bool.or_true]

/-- The bound on the steps cuts no climb off. -/
theorem isAncestor_iff (keyed : Keyed models) :
    isAncestor models name (models.size + 1) start = true ↔
      ∃ w way, Climbs models start (w :: way) name := by
  constructor
  · exact exists_climbs
  · rintro ⟨w, way, climb⟩
    obtain ⟨way', short, distinct⟩ := climb.exists_nodup keyed
    have few := short.length_le keyed distinct
    exact isAncestor_of_climbs short (by rw [List.length_cons] at few; omega)

/-! ## The advice of a compilation -/

/-- The warnings about a space are not about workflows. -/
theorem isUnusedWorkflow_of_planSpace {s : Space} {w : ResolvedWorkflow} {p : SpacePlan}
    {warnings : List CompileWarning} (planned : planSpace s w = .ok (p, warnings))
    {warning : CompileWarning} (mem : warning ∈ warnings) : warning.isUnusedWorkflow = false := by
  unfold planSpace at planned
  split at planned
  · cases planned
  split at planned
  · cases planned
  next resolved =>
  cases planned
  unfold Space.resolveTasks at resolved
  obtain ⟨_, -, resolved⟩ := exists_of_bind_ok resolved
  cases resolved
  split at mem
  · cases List.mem_singleton.1 mem
    rfl
  · obtain ⟨t, -, told⟩ := List.mem_flatMap.1 mem
    obtain ⟨_, -, rfl⟩ := List.mem_map.1 told
    rfl

theorem isUnusedWorkflow_of_planSpaces {e : Experiment} {workflows : List Workflow}
    {plans : List SpacePlan} {warnings : List CompileWarning}
    (planned : planSpaces e workflows = .ok (plans, warnings)) {warning : CompileWarning}
    (mem : warning ∈ warnings) : warning.isUnusedWorkflow = false := by
  obtain ⟨found, follow, -, rfl⟩ := found_of_planSpaces planned
  obtain ⟨⟨p, told⟩, among, mem⟩ := List.mem_flatMap.1 mem
  obtain ⟨s, -, w, made⟩ := exists_of_forall₂ follow.flip among
  exact isUnusedWorkflow_of_planSpace made mem

/-- What is planned without error is planned over workflows that are resolved as they are at
first. -/
theorem resolved_of_fold {workflows : List Workflow} {spaces : List Space} {p : Planning}
    (sound : Sound (ofWorkflows workflows).models p.lineages)
    (fine : (spaces.foldl Planning.add p).errors = []) :
    ∀ s ∈ spaces, ∃ r, ((ofWorkflows workflows).resolve s.workflow).1 = .ok r := by
  induction spaces generalizing p with
  | nil => exact nofun
  | cons first rest ih =>
    have keyed := Lineages.keyed_ofWorkflows workflows
    obtain ⟨here, -⟩ := found_of_fold (p := p.add first) fine
    obtain ⟨-, known, w, lineages, plan, about, resolved, planned⟩ := exists_of_add here
    intro s mem
    rcases List.mem_cons.1 mem with rfl | mem
    · refine ⟨w, ?_⟩
      have fresh := (Lineages.sound_after workflows []).decides keyed s.workflow
      exact (fresh.unique (sound.decides keyed s.workflow)).trans (congrArg Prod.fst resolved)
    · refine ih ?_ fine s mem
      have next := sound.resolve keyed first.workflow
      rw [resolved] at next
      rw [add_planned known resolved planned]
      exact next

theorem resolved_of_compile {e : Experiment} {workflows : List Workflow} {out : Compilation}
    (compiled : compile e workflows = .ok out) :
    ∀ s ∈ e.spaces, ∃ r, ((ofWorkflows workflows).resolve s.workflow).1 = .ok r := by
  obtain ⟨plans, warnings, planned⟩ := exists_plans compiled
  unfold planSpaces at planned
  obtain ⟨_, checked, -⟩ := exists_of_bind_ok planned
  exact resolved_of_fold (Lineages.sound_after workflows [])
    (CompileFailure.check_eq_ok_iff.1 checked)

/-- In the lineage of a workflow that is resolved is what is climbed to from it. -/
theorem mem_lineage_iff {workflows : List Workflow} {r : ResolvedWorkflow}
    (known : ((ofWorkflows workflows).resolve start).1 = .ok r) :
    name ∈ r.lineage ↔ ∃ way, Climbs (ofWorkflows workflows).models start way name := by
  have keyed := Lineages.keyed_ofWorkflows workflows
  obtain ⟨line, h, merged⟩ := (Lineages.sound_after workflows []).exists_line keyed known
  rw [← h.mem_names_iff keyed, (mergesAll_of_some merged).lineage_eq]

theorem mem_unusedWorkflows {e : Experiment} {workflows : List Workflow} :
    name ∈ unusedWorkflows e workflows ↔ (∃ w ∈ workflows, w.name = name) ∧
      ∀ s ∈ e.spaces, ¬∃ way, Climbs (ofWorkflows workflows).models s.workflow way name := by
  have keyed := Lineages.keyed_ofWorkflows workflows
  -- A climb stays where it is, to a name that a space gives itself, or the walk comes upon it.
  have climbed (start : String) : (∃ way, Climbs (ofWorkflows workflows).models start way name) ↔
      start = name ∨ isAncestor (ofWorkflows workflows).models name
        ((ofWorkflows workflows).models.size + 1) start = true := by
    rw [isAncestor_iff keyed]
    constructor
    · rintro ⟨_ | ⟨w, way⟩, climb⟩
      · exact .inl climb.eq_of_nil.symm
      · exact .inr ⟨w, way, climb⟩
    · rintro (rfl | ⟨w, way, climb⟩)
      · exact ⟨[], .stay⟩
      · exact ⟨w :: way, climb⟩
  simp only [unusedWorkflows, List.mem_mergeSort, List.mem_filter, List.mem_map]
  refine and_congr_right fun _ => ?_
  simp only [climbed, Bool.and_eq_true, Bool.not_eq_true', List.contains_eq_mem,
    decide_eq_false_iff_not, List.any_eq_false, mem_referencedWorkflows, not_or]
  constructor
  · rintro ⟨unnamed, unmet⟩ s mem
    exact ⟨fun named => unnamed ⟨s, mem, named⟩, unmet _ ⟨s, mem, rfl⟩⟩
  · intro none
    refine ⟨?_, ?_⟩
    · rintro ⟨s, mem, named⟩
      exact (none s mem).1 named
    · rintro _ ⟨s, mem, rfl⟩
      exact (none s mem).2

theorem pairwise_unusedWorkflows (e : Experiment) {workflows : List Workflow}
    (distinct : (workflows.map (·.name)).Nodup) :
    (unusedWorkflows e workflows).Pairwise (· < ·) := by
  have once : (unusedWorkflows e workflows).Nodup :=
    (List.mergeSort_perm _ _).nodup_iff.2 (distinct.filter _)
  have sorted : (unusedWorkflows e workflows).Pairwise (· ≤ ·) :=
    List.pairwise_mergeSort' (· ≤ ·) _
  exact (sorted.and once).imp fun ⟨le, ne⟩ => Std.lt_of_le_of_ne le ne

/-- The walk from a workflow upwards ends for every list of workflows, after no more rounds than one
for each workflow and one more, and finds just the names that the workflow can be climbed to. If the
names of the workflows are distinct, a compilation that succeeds advises, behind all its other
warnings and in increasing order, of the workflows that are in the lineage of no workflow that a
space names, and of no others. -/
theorem unusedWorkflows_exact (e : Experiment) (workflows : List Workflow) {models : Table Workflow}
    (known : (ofWorkflows workflows).models = models) :
    (∀ name start,
      (∃ final ≤ models.size + 1, ∀ final' found,
        Seeks models name 0 (parentOf models start) final' found ↔
          final' = final ∧ found = isAncestor models name (models.size + 1) start) ∧
      (isAncestor models name (models.size + 1) start = true ↔
        ∃ w way, Climbs models start (w :: way) name)) ∧
    ∀ out, (workflows.map (·.name)).Nodup → compile e workflows = .ok out →
      (∀ s ∈ e.spaces, ∃ r, ((ofWorkflows workflows).resolve s.workflow).1 = .ok r) ∧
      ∃ (about : List CompileWarning) (unused : List String),
        out.warnings = about ++ unused.map .unusedWorkflow ∧
        (∀ warning ∈ about, warning.isUnusedWorkflow = false) ∧ unused.Pairwise (· < ·) ∧
        ∀ name, name ∈ unused ↔ (∃ w ∈ workflows, w.name = name) ∧
          ∀ s ∈ e.spaces, ∀ r, ((ofWorkflows workflows).resolve s.workflow).1 = .ok r →
            name ∉ r.lineage := by
  have keyed := Lineages.keyed_ofWorkflows workflows
  subst known
  constructor
  · intro name start
    obtain ⟨final, few, ends⟩ := exists_seeks name start (Nat.zero_add _)
    refine ⟨⟨final, few, fun final' found => ⟨ends.unique, ?_⟩⟩, isAncestor_iff keyed⟩
    rintro ⟨rfl, rfl⟩
    exact ends
  · intro out distinct compiled
    have resolved := resolved_of_compile compiled
    obtain ⟨plans, about, planned⟩ := exists_plans compiled
    refine ⟨resolved, about, unusedWorkflows e workflows, warnings_of_compile compiled planned, ?_,
      pairwise_unusedWorkflows e distinct, fun name => ?_⟩
    · exact fun warning mem => isUnusedWorkflow_of_planSpaces planned mem
    · rw [mem_unusedWorkflows]
      refine and_congr_right fun _ => forall₂_congr fun s mem => ?_
      obtain ⟨r, known⟩ := resolved s mem
      rw [← mem_lineage_iff known]
      constructor
      · rintro outside r' known'
        cases known.symm.trans known'
        exact outside
      · exact fun outside => outside r known

/-- Three workflows of which two are each other's parent and one has a parent that is not known,
before a workflow and its heir. -/
def withStrays : List Workflow :=
  [{ name := "X", parent := some "U" }, { name := "Z", parent := some "gone" },
   { name := "U", parent := some "X" }, pairWorkflow "t" "u", heir]

/-- The walk around the cycle is given up, and the advice is about the strays, sorted by name. -/
theorem unusedWorkflows_exact_withStrays :
    (∃ final ≤ 6, Seeks (ofWorkflows withStrays).models "W" 0
      (parentOf (ofWorkflows withStrays).models "X") final false) ∧
    ∃ out, compile overHeir withStrays = .ok out ∧
      ∃ (about : List CompileWarning) (unused : List String),
        out.warnings = about ++ unused.map .unusedWorkflow ∧ unused.Pairwise (· < ·) ∧
          ∀ name, name ∈ unused ↔ name ∈ ["U", "X", "Z"] := by
  obtain ⟨out, compiled, -⟩ := exists_ok (r := compile overHeir withStrays)
    (p := fun _ => True) (by decide +kernel)
  obtain ⟨r, known, lineage⟩ := exists_ok (r := ((ofWorkflows withStrays).resolve "V").1)
    (p := fun r => r.lineage = ["W", "V"]) (by decide +kernel)
  obtain ⟨walks, advises⟩ := unusedWorkflows_exact overHeir withStrays rfl
  constructor
  · obtain ⟨⟨final, few, ends⟩, -⟩ := walks "W" "X"
    exact ⟨final, few, (ends final false).2 ⟨rfl, by decide +kernel⟩⟩
  · obtain ⟨-, about, unused, warnings, -, sorted, exact⟩ := advises out (by decide) compiled
    refine ⟨out, compiled, about, unused, warnings, sorted, fun name => ?_⟩
    have outside : (∀ s ∈ overHeir.spaces, ∀ r,
        ((ofWorkflows withStrays).resolve s.workflow).1 = .ok r → name ∉ r.lineage) ↔
          name ∉ ["W", "V"] := by
      simp only [overHeir, List.mem_singleton, forall_eq, known, Except.ok.injEq, lineage,
        forall_eq']
    have listed : (∃ w ∈ withStrays, w.name = name) ↔ name ∈ ["X", "Z", "U", "W", "V"] := by
      rw [← List.mem_map]
      rfl
    rw [exact, outside, listed]
    constructor
    · rintro ⟨among, not⟩
      simp only [List.mem_cons, List.not_mem_nil, or_false] at among not ⊢
      tauto
    · intro stray
      simp only [List.mem_cons, List.not_mem_nil, or_false] at stray
      rcases stray with rfl | rfl | rfl <;> decide

end Compile

end Sweep
