import Sweep.Proofs.Compile.Merging
import Sweep.Proofs.Compile.Resolution

/-!
# Resolved workflows are well formed

Whatever has been resolved, the names in a resolved workflow tell its tasks, its data slots and its
ancestors apart; it extends its parent, which has been resolved as well; each task belongs to the
one ancestor that declares it; and the chain, which is that of the nearest ancestor that has one,
names tasks of the workflow. So a space never meets a name in the order of its workflow for which
there is no task.
-/

namespace Sweep

structure ResolvedWorkflow.Extends (r base : ResolvedWorkflow) : Prop where
  lineage : r.lineage = base.lineage ++ [r.name]
  tasks : base.tasks.map (·.name) <+: r.tasks.map (·.name)
  data : base.dataNames <+: r.dataNames

/-- A resolved workflow as the line of its ancestors makes it, in a state that has its parent. -/
structure ResolvedWorkflow.WellFormed (l : Lineages) (line : List Workflow)
    (r : ResolvedWorkflow) : Prop where
  tasks : (r.tasks.map (·.name)).Nodup
  data : r.dataNames.Nodup
  lineage : r.lineage = line.map (·.name)
  distinct : r.lineage.Nodup
  last : r.lineage.getLast? = some r.name
  depth : r.lineage.length = r.depth + 1
  root : r.parent = none → r.lineage = [r.name]
  child : ∀ parent ∈ r.parent, ∃ base, l.resolved.get? parent = some base ∧ r.Extends base
  owner : ∀ t ∈ r.tasks, ∃ w ∈ line, t.workflow = w.name ∧ w.Declares t.name ∧
    ∀ v ∈ line, v.Declares t.name → v = w
  chain : r.chain = line.reverse.findSome? (·.chain)
  framed : ∀ c ∈ r.chain, c.Frames r.tasks

namespace Lineages

open Workflow (MergesAll mergeAll mergeAll_concat mergesAll_of_some merges_of_merge)

variable {models : Table Workflow} {l : Lineages} {name : String} {line : List Workflow}
  {r : ResolvedWorkflow}

/-- The parent of a resolved workflow is resolved, and is what the workflow was merged over. -/
theorem Sound.exists_base (sound : Sound models l) (keyed : Keyed models)
    (h : Line models name line) (merged : mergeAll none line = .ok (some r))
    (kept : ∀ w ∈ line, (l.resolved.get? w.name).isSome) {parent : String}
    (child : r.parent = some parent) :
    ∃ base, l.resolved.get? parent = some base ∧ ∃ above, MergesAll above base ∧
      ∃ w : Workflow, w.Merges (some base) r := by
  obtain ⟨above, w, rfl, -⟩ := h.exists_concat
  obtain ⟨found, r', upper, made, same⟩ := mergeAll_concat merged
  cases same
  have parents := h.parent_eq keyed
  rcases List.eq_nil_or_concat' above with rfl | ⟨above, v, rfl⟩
  · cases upper
    have step : w.Merges none r := merges_of_merge List.nodup_nil made
    rw [step.parent, parents] at child
    cases child
  · obtain ⟨base, bound⟩ := Option.isSome_iff_exists.1 (kept v (by simp))
    -- The parent was resolved from the line above, which is the only line of its name.
    obtain ⟨line', h', merged', -⟩ := sound.merged bound
    rw [List.append_assoc, List.singleton_append] at h
    obtain rfl := (h.of_append keyed).unique h'
    cases upper.symm.trans merged'
    have all := mergesAll_of_some merged'
    have step : w.Merges (some base) r := merges_of_merge all.distinct made
    rw [step.parent, parents, List.getLast?_concat] at child
    cases child
    exact ⟨base, bound, _, all, w, step⟩

/-- What a sound state has resolved is well formed over its line. -/
theorem Sound.wellFormed (sound : Sound models l) (keyed : Keyed models)
    (found : l.resolved.get? name = some r) :
    r.name = name ∧ ∃ line, Line models name line ∧ r.WellFormed l line := by
  obtain ⟨line, h, merged, kept⟩ := sound.merged found
  have made := mergesAll_of_some merged
  obtain ⟨above, w, rfl, known⟩ := h.exists_concat
  obtain ⟨w', last, named, parents⟩ := made.exists_last
  obtain rfl : w = w' := by simpa using last
  obtain rfl := keyed _ _ known
  refine ⟨named, _, h, ?_⟩
  exact {
    tasks := made.distinct
    data := made.nodup_dataNames
    lineage := made.lineage_eq
    distinct := made.lineage_eq ▸ h.nodup keyed
    last := by rw [made.lineage_eq, List.map_append, named]; simp
    depth := by rw [made.lineage_eq, List.length_map, made.length_eq]
    root := by
      intro root
      have top := (h.parent_eq keyed).symm.trans (parents.symm.trans root)
      rw [Option.map_eq_none_iff, List.getLast?_eq_none_iff] at top
      rw [made.lineage_eq, top, named]
      rfl
    child := by
      intro parent child
      obtain ⟨base, bound, _, upper, v, step⟩ := sound.exists_base keyed h merged kept child
      obtain ⟨tasks, data⟩ := step.names_extend upper.nodup_dataNames
      exact ⟨base, bound, ⟨step.name ▸ step.lineage, tasks, data⟩⟩
    owner := fun _ mem => made.exists_owner (h.nodup keyed) mem
    chain := made.chain_eq
    framed := made.framed }

/-- After any calls, every resolved workflow is well formed over workflows of the list. So every
space that is accepted has one task for each name in the order of its workflow, in that order. -/
theorem wellFormed_after {workflows : List Workflow} {calls : List Call} {name : String}
    {r : ResolvedWorkflow} (found : (after workflows calls).resolved.get? name = some r) :
    (r.name = name ∧ ∃ line, (∀ w ∈ line, w ∈ workflows) ∧
      r.WellFormed (after workflows calls) line) ∧
    ∀ (s : Space) tasks warnings, s.resolveTasks r = .ok (tasks, warnings) →
      List.Forall₂ (fun name t => t.name = name ∧
        ∃ u ∈ r.tasks, u.name = name ∧ t = s.resolveTask r u) r.order tasks := by
  have keyed := keyed_ofWorkflows workflows
  obtain ⟨named, line, h, wellFormed⟩ := (sound_after workflows calls).wellFormed keyed found
  refine ⟨⟨named, line, fun w mem => (of_get?_ofWorkflows (h.known_of_mem keyed mem)).1,
    wellFormed⟩, fun s tasks warnings accepted => ?_⟩
  have all := Space.forall₂_resolveTasks accepted fun _ mem =>
    r.declares_order wellFormed.framed mem
  refine all.imp fun name t ⟨u, first, made⟩ => ?_
  obtain ⟨mem, same⟩ := r.of_task? first
  exact ⟨made ▸ (u.configuredBy_name s.configurations).trans same, u, mem, same, made⟩

/-- A workflow with two tasks, the second of which runs first. -/
def stock : Workflow :=
  { name := "W", data := [⟨"d", none⟩], chain := some (.ofTasks ["u", "t"])
    tasks := [{ name := "t", implementation := some "t.sh" },
      { name := "u", implementation := some "u.sh" }] }

/-- A workflow that adds a task to another and leaves its chain. -/
def branch : Workflow := { name := "V", parent := some "W", tasks := [{ name := "v" }] }

def overBranch : Space := { name := "A", workflow := "V" }

/-- The task that was added has its owner but is not in the chain; a space over the workflow is
accepted, though the task has no implementation, and runs the others. -/
theorem wellFormed_branch : ∃ r line tasks warnings,
    (after [branch, stock] [.one "V"]).resolved.get? "V" = some r ∧
      r.WellFormed (after [branch, stock] [.one "V"]) line ∧ r.lineage = ["W", "V"] ∧
      r.tasks.map (·.workflow) = ["W", "W", "V"] ∧
      overBranch.resolveTasks r = .ok (tasks, warnings) ∧ r.order = ["u", "t"] ∧
      List.Forall₂ (fun name t => t.name = name ∧
        ∃ u ∈ r.tasks, u.name = name ∧ t = overBranch.resolveTask r u) r.order tasks := by
  have seen : ((after [branch, stock] [.one "V"]).resolved.get? "V").any (fun r =>
      r.lineage = ["W", "V"] ∧ r.tasks.map (·.workflow) = ["W", "W", "V"] ∧
        r.order = ["u", "t"] ∧
          (overBranch.resolveTasks r).toOption.any (fun _ => True)) = true := by
    decide +kernel
  obtain ⟨r, found, shown⟩ := (Option.any_eq_true _ _).1 seen
  obtain ⟨lineage, owners, order, accepted⟩ := of_decide_eq_true shown
  obtain ⟨⟨tasks, warnings⟩, made, -⟩ := exists_ok accepted
  obtain ⟨⟨-, line, -, wellFormed⟩, each⟩ := wellFormed_after found
  exact ⟨r, line, tasks, warnings, found, wellFormed, lineage, owners, made, order,
    each overBranch tasks warnings made⟩

end Lineages

end Sweep
