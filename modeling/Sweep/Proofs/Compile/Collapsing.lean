import Mathlib.Data.List.Infix
import Sweep.Proofs.Compile.Sharing
import Sweep.Proofs.Lists

/-!
# Equal tasks are collapsed

Tasks are equal if they have the same content, and then they have the same fingerprint. Every
content is represented once, by one of its tasks, and all its tasks are known by the identity of
that one. Contents are represented in the order in which they are discovered; the representatives
of one workflow stand together in that order, and so do the workflows.

A name that starts another name is shorter than that, so the rule on names that start others says
nothing that the rule on lengths does not say. What remains is a lexicographic order, in which only
tasks of one workflow and one depth are equal. All least tasks of a content have these in common,
so it does not matter in which order the tasks are discovered: a representative is of the same
workflow and depth, and it has the same identity but for a space that this may be extended by.
-/

namespace Sweep

namespace Sharing

open ResolvedTask

variable {tasks : List ResolvedTask}

/-! ## Contents in the order of discovery -/

/-- Groups stand in the order in which their contents are discovered. -/
theorem firstOccurrences_gather (tasks : List ResolvedTask) :
    FirstOccurrences (tasks.map fingerprint) ((gather tasks).map content) := by
  rw [map_content_gather]
  induction tasks using List.reverseRecOn with
  | nil => exact .nil
  | append_singleton tasks t ih =>
    rw [List.foldl_append, List.map_append]
    exact keys_gatherOne _ t ▸ ih.concat t.fingerprint

theorem map_fingerprint_representatives (tasks : List ResolvedTask) :
    (representatives tasks).map fingerprint = (gather tasks).map content := by
  rw [representatives, List.map_map]
  conv_rhs => rw [← map_fst_assign [] (gather tasks), List.map_map]
  exact List.map_congr_left fun pair mem => fingerprint_representative mem

/-- A representative is the least task of its group, under that task's identity or the one that
takes its place. -/
theorem exists_of_mem_representatives {r : ResolvedTask} (mem : r ∈ representatives tasks) :
    ∃ g ∈ gather tasks, r = { g.1.least g.2 with id := r.id } ∧
      (r.id = plainId g ∨ r.id = spacedId g) ∧ r.fingerprint = content g := by
  obtain ⟨pair, assigned, rfl⟩ := List.mem_map.1 mem
  obtain ⟨before, same⟩ := eq_representative assigned
  refine ⟨pair.1, fst_mem_of_assign assigned, ?_, ?_, fingerprint_representative assigned⟩
  · rw [same]
    rfl
  · rw [same]
    show sharedId before pair.1 = _ ∨ sharedId before pair.1 = _
    rw [sharedId]
    split
    · exact .inr rfl
    · exact .inl rfl

/-- A representative is a task of its content, but for its identity. -/
theorem exists_source {r : ResolvedTask} (mem : r ∈ representatives tasks) :
    ∃ t ∈ tasks, r = { t with id := r.id } ∧ t.SameContent r := by
  obtain ⟨g, group, same, -, content_eq⟩ := exists_of_mem_representatives mem
  refine ⟨_, mem_gather.2 ⟨g, group, least_mem _ _⟩, same, fingerprint_eq_iff.1 ?_⟩
  rw [content_eq, fingerprint_of_mem group (least_mem _ _)]

/-- The content of every task is represented. -/
theorem exists_representative {t : ResolvedTask} (mem : t ∈ tasks) :
    ∃ r ∈ representatives tasks, r.SameContent t := by
  have among : t.fingerprint ∈ (representatives tasks).map fingerprint := by
    rw [map_fingerprint_representatives, (firstOccurrences_gather tasks).mem_iff]
    exact List.mem_map_of_mem mem
  obtain ⟨r, represents, same⟩ := List.mem_map.1 among
  exact ⟨r, represents, fingerprint_eq_iff.1 same⟩

/-! ## The groups of workflows -/

section Grouping

variable {groups : List (String × List ResolvedTask)} {r : ResolvedTask}

theorem addToGroup_of_new (new : r.workflow ∉ groups.map (·.1)) :
    addToGroup r groups = groups ++ [(r.workflow, [r])] := by
  induction groups with
  | nil => rfl
  | cons group rest ih =>
    rw [List.map_cons, List.mem_cons, not_or] at new
    rw [addToGroup, if_neg (Ne.symm new.1), ih new.2, List.cons_append]

theorem keys_addToGroup_of_known (known : r.workflow ∈ groups.map (·.1)) :
    (addToGroup r groups).map (·.1) = groups.map (·.1) := by
  induction groups with
  | nil => cases known
  | cons group rest ih =>
    rw [addToGroup]
    split
    · rfl
    · next other =>
      rw [List.map_cons, List.map_cons, ih]
      exact (List.mem_cons.1 known).resolve_left (Ne.symm other)

/-- A group of another workflow stays as it is; the one of the workflow gets the representative. -/
theorem mem_addToGroup (distinct : (groups.map (·.1)).Nodup)
    (known : r.workflow ∈ groups.map (·.1)) {group : String × List ResolvedTask}
    (mem : group ∈ addToGroup r groups) :
    ∃ before ∈ groups, group.1 = before.1 ∧
      group.2 = before.2 ++ if before.1 = r.workflow then [r] else [] := by
  induction groups with
  | nil => cases known
  | cons first rest ih =>
    obtain ⟨apart, distinct⟩ := List.nodup_cons.1 distinct
    rw [addToGroup] at mem
    split at mem
    · next own =>
      rcases List.mem_cons.1 mem with rfl | mem
      · exact ⟨first, List.mem_cons_self, rfl, by rw [if_pos own]⟩
      · refine ⟨group, List.mem_cons_of_mem _ mem, rfl, ?_⟩
        have other : group.1 ≠ r.workflow := fun same =>
          apart (List.mem_map.2 ⟨group, mem, same.trans own.symm⟩)
        rw [if_neg other, List.append_nil]
    · next other =>
      rcases List.mem_cons.1 mem with rfl | mem
      · exact ⟨first, List.mem_cons_self, rfl, by rw [if_neg other, List.append_nil]⟩
      · have later := (List.mem_cons.1 known).resolve_left (Ne.symm other)
        obtain ⟨before, among, rest⟩ := ih distinct later mem
        exact ⟨before, List.mem_cons_of_mem _ among, rest⟩

/-- Representatives are grouped by their workflows, in the order in which these occur. -/
structure Grouped (rs : List ResolvedTask) (groups : List (String × List ResolvedTask)) :
    Prop where
  workflows : FirstOccurrences (rs.map (·.workflow)) (groups.map (·.1))
  members : ∀ group ∈ groups, group.2 = rs.filter fun r => r.workflow = group.1

theorem Grouped.add {rs : List ResolvedTask} (h : Grouped rs groups) (r : ResolvedTask) :
    Grouped (rs ++ [r]) (addToGroup r groups) := by
  by_cases known : r.workflow ∈ groups.map (·.1)
  · refine ⟨?_, ?_⟩
    · rw [keys_addToGroup_of_known known, List.map_append]
      exact h.workflows.concat_known ((h.workflows.mem_iff _).1 known)
    · intro group mem
      obtain ⟨before, among, key, members⟩ := mem_addToGroup h.workflows.nodup known mem
      rw [members, h.members before among, List.filter_append, key]
      by_cases own : before.1 = r.workflow
      · simp [own]
      · simp [own, Ne.symm own]
  · have none : r.workflow ∉ rs.map (·.workflow) := mt (h.workflows.mem_iff _).2 known
    rw [addToGroup_of_new known]
    refine ⟨?_, ?_⟩
    · rw [List.map_append, List.map_append]
      exact h.workflows.concat_new none
    · intro group mem
      rw [List.filter_append]
      rcases List.mem_append.1 mem with mem | mem
      · have other : r.workflow ≠ group.1 := fun same => known (same ▸ List.mem_map_of_mem mem)
        rw [h.members group mem]
        simp [other]
      · obtain rfl := List.mem_singleton.1 mem
        have nobody : rs.filter (fun u => u.workflow = r.workflow) = [] := by
          refine List.filter_eq_nil_iff.2 fun u among => ?_
          have other : u.workflow ≠ r.workflow := fun same =>
            none (same ▸ List.mem_map_of_mem among)
          simpa using other
        rw [nobody]
        simp

theorem grouped (rs : List ResolvedTask) :
    Grouped rs (rs.foldl (fun groups r => addToGroup r groups) []) := by
  induction rs using List.reverseRecOn with
  | nil => exact ⟨.nil, nofun⟩
  | append_singleton rs r ih =>
    rw [List.foldl_append]
    exact ih.add r

end Grouping

/-! ## What is left of the tasks -/

/-- Fingerprints tell contents apart. If space and identity tell the tasks, there is exactly one
representative of each content, in the order in which the contents are discovered, which is one of
the tasks but for its identity; every task is known by the identity of the representative of its
content. The groups are those of the representatives of one workflow each, in the order in which the
workflows occur. -/
theorem ofTasks_collapses (identified : Identified tasks) :
    (∀ t u : ResolvedTask, t.fingerprint = u.fingerprint ↔ t.SameContent u) ∧
      ∃ (rs : List ResolvedTask) (workflows : List String),
        (ofTasks tasks).groups.flatten.Perm rs ∧
        FirstOccurrences (tasks.map fingerprint) (rs.map fingerprint) ∧
        (∀ r ∈ rs, ∃ t ∈ tasks, r = { t with id := r.id }) ∧
        (∀ t ∈ tasks, ∃ r ∈ rs, r.SameContent t ∧
          (ofTasks tasks).canonicalId? t.space t.id = some r.id) ∧
        FirstOccurrences (rs.map (·.workflow)) workflows ∧
        List.Forall₂ (fun workflow group =>
          group ≠ [] ∧ group = rs.filter fun r => r.workflow = workflow) workflows
          (ofTasks tasks).groups := by
  have h := grouped (representatives tasks)
  refine ⟨fun t u => fingerprint_eq_iff, representatives tasks, _, (share_gathered tasks).1, ?_, ?_,
    ?_, h.workflows, ?_⟩
  · rw [map_fingerprint_representatives]
    exact firstOccurrences_gather tasks
  · intro r mem
    obtain ⟨t, among, same, -⟩ := exists_source mem
    exact ⟨t, among, same⟩
  · intro t mem
    obtain ⟨pair, assigned, among, known⟩ := identified.canonicalId?_eq mem
    refine ⟨pair.2, List.mem_map_of_mem assigned, fingerprint_eq_iff.1 ?_, known⟩
    rw [fingerprint_representative assigned,
      fingerprint_of_mem (fst_mem_of_assign assigned) among]
  · rw [(share_gathered_all tasks).1, List.forall₂_map_left_iff, List.forall₂_map_right_iff,
      List.forall₂_same]
    intro group mem
    refine ⟨?_, h.members group mem⟩
    have occurs := (h.workflows.mem_iff _).1 (List.mem_map_of_mem mem)
    obtain ⟨r, among, own⟩ := List.mem_map.1 occurs
    rw [h.members group mem]
    exact List.ne_nil_of_mem (List.mem_filter.2 ⟨among, by simpa using own⟩)

def sample (space workflow name : String) (depth : Nat) : ResolvedTask :=
  { id := taskId workflow name, name, workflow, declaredIn := workflow, depth, space
    implementation := "./run.sh", dynamicParameters := ["rate"], staticParameters := ∅
    inputs := [], outputs := ["out"] }

/-- Two tasks that a workflow and its heir have in common, and one of the heir. -/
def inherited : List ResolvedTask :=
  [sample "S1" "A1" "t" 1, sample "S1" "A1" "u" 1, sample "S2" "A" "t" 0]

/-- The task that is inherited is known by its identity in the workflow that it is inherited
from. -/
theorem ofTasks_collapses_inherited : Identified inherited ∧
    (ofTasks inherited).groups.map (fun group => group.map (·.id)) = [["A:t"], ["A1:u"]] ∧
    ∃ r ∈ (ofTasks inherited).groups.flatten, r.SameContent (sample "S1" "A1" "t" 1) ∧
      (ofTasks inherited).canonicalId? "S1" "A1:t" = some r.id := by
  have identified : Identified inherited := by
    unfold Identified
    decide +kernel
  obtain ⟨-, rs, workflows, all, -, -, known, -⟩ := ofTasks_collapses identified
  obtain ⟨r, mem, same, id⟩ := known (sample "S1" "A1" "t" 1) List.mem_cons_self
  exact ⟨identified, by decide +kernel, r, all.mem_iff.2 mem, same, id⟩

end Sharing

/-! ## The order of representatives -/

namespace ResolvedTask

/-- A name that starts another one is shorter. -/
theorem utf8ByteSize_lt_of_startsWith {s start : String} (starts : startsWith s start = true)
    (other : start ≠ s) : start.utf8ByteSize < s.utf8ByteSize := by
  obtain ⟨rest, whole⟩ := List.isPrefixOf_iff_prefix.1 starts
  have parts : s = start ++ String.ofList rest := by
    apply String.toList_inj.1
    rw [String.toList_append, String.toList_ofList, whole]
  have more : rest ≠ [] := by
    rintro rfl
    exact other (by simpa using parts.symm)
  obtain ⟨c, rest, rfl⟩ := List.exists_cons_of_ne_nil more
  rw [parts, String.utf8ByteSize_append]
  have some : (String.ofList (c :: rest)).utf8ByteSize ≠ 0 := by
    rw [Ne, String.utf8ByteSize_eq_zero_iff, ← String.toList_inj, String.toList_ofList]
    exact List.cons_ne_nil c rest
  omega

/-- The order in which a representative is chosen is the lexicographic order of the lengths of the
workflows' names, the depths and the names. -/
theorem representativeOrder_eq : representativeOrder =
    compareLex (compareOn fun t => t.workflow.utf8ByteSize)
      (compareLex (compareOn (·.depth)) (compareOn (·.workflow))) := by
  funext t u
  have spelled : compareLex (compareOn fun t => t.workflow.utf8ByteSize)
      (compareLex (compareOn (·.depth)) (compareOn (·.workflow))) t u =
      (compare t.workflow.utf8ByteSize u.workflow.utf8ByteSize).then
        ((compare t.depth u.depth).then (compare t.workflow u.workflow)) := rfl
  rw [spelled, representativeOrder]
  split
  · next starts =>
    have shorter := utf8ByteSize_lt_of_startsWith starts.2 starts.1
    rw [Nat.compare_eq_lt.2 shorter]
    rfl
  · split
    · next starts =>
      have longer := utf8ByteSize_lt_of_startsWith starts.2 (Ne.symm starts.1)
      rw [Nat.compare_eq_gt.2 longer]
      rfl
    · rfl

instance transCmp_representativeOrder : Std.TransCmp representativeOrder := by
  rw [representativeOrder_eq]
  infer_instance

theorem representativeOrder_eq_eq_iff {t u : ResolvedTask} :
    t.representativeOrder u = .eq ↔ t.workflow = u.workflow ∧ t.depth = u.depth := by
  rw [representativeOrder_eq]
  simp only [compareLex, compareOn, Ordering.then_eq_eq, Std.LawfulEqCmp.compare_eq_iff_eq]
  constructor
  · rintro ⟨-, depth, workflow⟩
    exact ⟨workflow, depth⟩
  · rintro ⟨workflow, depth⟩
    exact ⟨congrArg _ workflow, depth, workflow⟩

/-- The least task of a list comes before none of them. -/
theorem isLE_least {t : ResolvedTask} {rest : List ResolvedTask} :
    ∀ u ∈ t :: rest, ((t.least rest).representativeOrder u).isLE := by
  induction rest generalizing t with
  | nil =>
    intro u mem
    obtain rfl := List.mem_singleton.1 mem
    exact Std.ReflCmp.isLE_rfl
  | cons v rest ih =>
    have step : t.least (v :: rest) =
        (if v.representativeOrder t = .lt then v else t).least rest := rfl
    rw [step]
    split
    · next less =>
      have head := ih v List.mem_cons_self
      intro u mem
      rcases List.mem_cons.1 mem with rfl | mem
      · exact Std.TransCmp.isLE_trans head (Ordering.isLE_of_eq_lt less)
      · exact ih u mem
    · next notLess =>
      have head := ih t List.mem_cons_self
      intro u mem
      rcases List.mem_cons.1 mem with rfl | mem
      · exact head
      · rcases List.mem_cons.1 mem with rfl | mem
        · have above : (t.representativeOrder u).isLE :=
            Ordering.isLE_iff_ne_gt.2 fun more => notLess (Std.OrientedCmp.gt_iff_lt.1 more)
          exact Std.TransCmp.isLE_trans head above
        · exact ih u (List.mem_cons_of_mem _ mem)

end ResolvedTask

namespace Sharing

open ResolvedTask

variable {tasks : List ResolvedTask} {r : ResolvedTask}

/-- A representative comes before no task of its content. -/
theorem isLE_of_mem_representatives (mem : r ∈ representatives tasks) :
    ∀ t ∈ tasks, t.SameContent r → (r.representativeOrder t).isLE := by
  intro t among same
  obtain ⟨g, group, shape, -, content_eq⟩ := exists_of_mem_representatives mem
  obtain ⟨h, group', member⟩ := mem_gather.1 among
  have own : h = g := by
    refine group_unique group' group ?_
    rw [← fingerprint_of_mem group' member, ← content_eq]
    exact fingerprint_eq_iff.2 same
  subst own
  have least := isLE_least t member
  rw [shape]
  exact least

/-- A representative goes by an identity, or by that one and a space that has the content. -/
def GoesBy (tasks : List ResolvedTask) (r : ResolvedTask) (id : String) : Prop :=
  r.id = id ∨ ∃ t ∈ tasks, t.SameContent r ∧ r.id = id ++ "@" ++ t.space

/-- A representative goes by the identity that its name has in its workflow. -/
theorem goesBy_taskId (plain : ∀ t ∈ tasks, t.id = taskId t.workflow t.name)
    (mem : r ∈ representatives tasks) : GoesBy tasks r (taskId r.workflow r.name) := by
  obtain ⟨g, group, shape, id, content_eq⟩ := exists_of_mem_representatives mem
  have own : plainId g = taskId r.workflow r.name := by
    rw [shape]
    exact plain _ (mem_gather.2 ⟨g, group, least_mem _ _⟩)
  rw [← own]
  rcases id with id | id
  · exact .inl id
  · refine .inr ⟨g.1, mem_gather.2 ⟨g, group, List.mem_cons_self⟩, ?_, id⟩
    exact fingerprint_eq_iff.1 content_eq.symm

/-- The order of representatives is a total preorder: it is the lexicographic order of the lengths
of names, the depths and the names, as a name that starts another one is shorter, and tasks are
equal in it exactly if they are of one workflow and one depth. So if tasks are discovered in another
order, every content is represented still, and by a task of the same workflow and depth, which goes
by the same identity. -/
theorem representatives_permute :
    representativeOrder = compareLex (compareOn fun t => t.workflow.utf8ByteSize)
        (compareLex (compareOn (·.depth)) (compareOn (·.workflow))) ∧
      Std.TransCmp representativeOrder ∧
      (∀ t u : ResolvedTask, t.workflow ≠ u.workflow → startsWith u.workflow t.workflow →
        t.workflow.utf8ByteSize < u.workflow.utf8ByteSize) ∧
      (∀ t u : ResolvedTask,
        t.representativeOrder u = .eq ↔ t.workflow = u.workflow ∧ t.depth = u.depth) ∧
      ∀ tasks tasks' : List ResolvedTask, tasks.Perm tasks' →
        (∀ t ∈ tasks, t.id = taskId t.workflow t.name) →
        ∀ r ∈ (ofTasks tasks).groups.flatten,
          (∃ r' ∈ (ofTasks tasks').groups.flatten, r'.SameContent r) ∧
          ∀ r' ∈ (ofTasks tasks').groups.flatten, r'.SameContent r →
            r'.workflow = r.workflow ∧ r'.depth = r.depth ∧
              GoesBy tasks r (taskId r.workflow r.name) ∧
              GoesBy tasks' r' (taskId r.workflow r.name) := by
  refine ⟨representativeOrder_eq, inferInstance,
    fun t u other starts => utf8ByteSize_lt_of_startsWith starts other,
    fun t u => representativeOrder_eq_eq_iff, ?_⟩
  intro tasks tasks' perm plain r mem
  have plain' : ∀ t ∈ tasks', t.id = taskId t.workflow t.name :=
    fun t among => plain t (perm.mem_iff.2 among)
  rw [(share_gathered tasks).1.mem_iff] at mem
  simp only [(share_gathered tasks').1.mem_iff]
  obtain ⟨t, among, source, content⟩ := exists_source mem
  constructor
  · obtain ⟨r', represents, same⟩ := exists_representative (perm.mem_iff.1 among)
    exact ⟨r', represents, same.trans content⟩
  · intro r' mem' same
    obtain ⟨t', among', source', content'⟩ := exists_source mem'
    -- Each of the two comes before the task that the other one is.
    have before : (r'.representativeOrder r).isLE := by
      rw [source]
      exact isLE_of_mem_representatives mem' t (perm.mem_iff.1 among) (content.trans same.symm)
    have after : (r.representativeOrder r').isLE := by
      rw [source']
      exact isLE_of_mem_representatives mem t' (perm.mem_iff.2 among') (content'.trans same)
    obtain ⟨workflow, depth⟩ :=
      representativeOrder_eq_eq_iff.1 (Std.OrientedCmp.isLE_antisymm before after)
    refine ⟨workflow, depth, goesBy_taskId plain mem, ?_⟩
    rw [← workflow, ← same.name]
    exact goesBy_taskId plain' mem'

/-- Two tasks of one workflow and name, of which a space has changed the second. -/
def changed : List ResolvedTask :=
  [sample "S1" "W" "t" 0, { sample "S2" "W" "t" 0 with implementation := "./other.sh" }]

/-- Whichever of the two is discovered first goes by the identity alone; the other one goes by it
and its space. -/
theorem representatives_permute_changed :
    (ofTasks changed).groups.flatten.map (fun r => (r.implementation, r.id)) =
        [("./run.sh", "W:t"), ("./other.sh", "W:t@S2")] ∧
      (ofTasks changed.reverse).groups.flatten.map (fun r => (r.implementation, r.id)) =
        [("./other.sh", "W:t"), ("./run.sh", "W:t@S1")] ∧
      ∀ r ∈ (ofTasks changed).groups.flatten, ∀ r' ∈ (ofTasks changed.reverse).groups.flatten,
        r'.SameContent r → r'.workflow = r.workflow ∧ r'.depth = r.depth := by
  refine ⟨by decide +kernel, by decide +kernel, fun r mem r' mem' same => ?_⟩
  have plain : ∀ t ∈ changed, t.id = taskId t.workflow t.name := by decide +kernel
  obtain ⟨-, -, -, -, permute⟩ := representatives_permute
  obtain ⟨workflow, depth, -⟩ :=
    (permute changed changed.reverse (List.reverse_perm changed).symm plain r mem).2 r' mem' same
  exact ⟨workflow, depth⟩

end Sharing

end Sweep
