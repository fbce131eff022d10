import Sweep.Compile.Sharing
import Sweep.Proofs.Json.Printer

/-!
# What sharing does to tasks

Tasks are gathered by their contents, and a fingerprint is the fingerprint of one content only. Each
group gets one representative. Its identity is its own, unless that has been given to an earlier
group; then it is extended by the space in which the group was discovered. Representatives have
different identities exactly if no extended identity has been given away before, and then the
identity that a task is known by leads to a representative of its content.
-/

namespace Sweep

namespace ResolvedTask

/-- Two tasks do the same, wherever they come from. -/
structure SameContent (t u : ResolvedTask) : Prop where
  name : t.name = u.name
  implementation : t.implementation = u.implementation
  dynamicParameters : t.dynamicParameters = u.dynamicParameters
  staticParameters : t.staticParameters = u.staticParameters
  inputs : t.inputs = u.inputs
  outputs : t.outputs = u.outputs

theorem SameContent.symm {t u : ResolvedTask} (same : t.SameContent u) : u.SameContent t :=
  ⟨same.name.symm, same.implementation.symm, same.dynamicParameters.symm,
    same.staticParameters.symm, same.inputs.symm, same.outputs.symm⟩

theorem SameContent.trans {t u v : ResolvedTask} (h : t.SameContent u) (h' : u.SameContent v) :
    t.SameContent v :=
  ⟨h.name.trans h'.name, h.implementation.trans h'.implementation,
    h.dynamicParameters.trans h'.dynamicParameters,
    h.staticParameters.trans h'.staticParameters, h.inputs.trans h'.inputs,
    h.outputs.trans h'.outputs⟩

theorem ofStrings_injective : Function.Injective Json.ofStrings := by
  intro a b same
  exact (List.map_inj_right fun _ _ h => Json.text.inj h).1 (Json.list.inj same)

/-- Fingerprints are equal exactly if contents are. -/
theorem fingerprint_eq_iff {t u : ResolvedTask} :
    t.fingerprint = u.fingerprint ↔ t.SameContent u := by
  constructor
  · intro same
    have parts := Json.list.inj (Json.compact_injective same)
    simp only [List.cons.injEq, Json.text.injEq, Json.record.injEq, and_true] at parts
    obtain ⟨name, implementation, dynamic, static, inputs, outputs⟩ := parts
    exact ⟨name, implementation, ofStrings_injective dynamic, Table.ext_entries static,
      ofStrings_injective inputs, ofStrings_injective outputs⟩
  · rintro ⟨name, implementation, dynamic, static, inputs, outputs⟩
    rw [fingerprint, fingerprint, name, implementation, dynamic, static, inputs, outputs]

/-- The least task of a list is one of them. -/
theorem least_mem (t : ResolvedTask) (rest : List ResolvedTask) : t.least rest ∈ t :: rest := by
  induction rest generalizing t with
  | nil => exact List.mem_cons_self
  | cons u rest ih =>
    rw [least, List.foldl_cons]
    split
    · exact List.mem_cons_of_mem _ (ih u)
    · rcases List.mem_cons.1 (ih t) with same | mem
      · exact List.mem_cons.2 (.inl same)
      · exact List.mem_cons_of_mem _ (List.mem_cons_of_mem _ mem)

end ResolvedTask

namespace Sharing

open ResolvedTask

/-! ## Groups of equal content -/

/-- The tasks of one content, the one discovered first apart. -/
abbrev Group := ResolvedTask × List ResolvedTask

def members (g : Group) : List ResolvedTask := g.1 :: g.2

def content (g : Group) : String := g.1.fingerprint

/-- Puts one more task to those of its content. -/
def gatherOne (done : List (String × Group)) (t : ResolvedTask) : List (String × Group) :=
  if done.any fun entry => entry.1 == t.fingerprint then
    done.map fun (c, first, rest) =>
      if c == t.fingerprint then (c, first, rest ++ [t]) else (c, first, rest)
  else done ++ [(t.fingerprint, t, [])]

theorem gather_eq (tasks : List ResolvedTask) :
    gather tasks = (tasks.foldl gatherOne []).map (·.2) := rfl

def join (t : ResolvedTask) (entry : String × Group) : String × Group :=
  if entry.1 == t.fingerprint then (entry.1, entry.2.1, entry.2.2 ++ [t]) else entry

@[simp]
theorem fst_join (t : ResolvedTask) (entry : String × Group) : (join t entry).1 = entry.1 := by
  rw [join]
  split <;> rfl

theorem mem_join {t u : ResolvedTask} {entry : String × Group} :
    u ∈ members (join t entry).2 ↔ u ∈ members entry.2 ∨ u = t ∧ entry.1 = t.fingerprint := by
  simp only [join, beq_iff_eq]
  split
  · next same => simp [members, same, or_assoc]
  · next other => simp [other]

theorem gatherOne_of_known {done : List (String × Group)} {t : ResolvedTask}
    (known : done.any fun entry => entry.1 == t.fingerprint) :
    gatherOne done t = done.map (join t) := by
  rw [gatherOne, if_pos known]
  rfl

/-- The content of a task is added to the contents of the groups unless it is known. -/
theorem keys_gatherOne (done : List (String × Group)) (t : ResolvedTask) :
    (gatherOne done t).map (·.1) =
      if t.fingerprint ∈ done.map (·.1) then done.map (·.1)
      else done.map (·.1) ++ [t.fingerprint] := by
  have known_iff : (done.any fun entry => entry.1 == t.fingerprint) ↔
      t.fingerprint ∈ done.map (·.1) := by
    simp only [List.any_eq_true, List.mem_map, beq_iff_eq]
  by_cases known : done.any fun entry => entry.1 == t.fingerprint
  · rw [gatherOne_of_known known, if_pos (known_iff.1 known), List.map_map]
    exact List.map_congr_left fun entry _ => fst_join t entry
  · rw [gatherOne, if_neg known, if_neg (mt known_iff.2 known), List.map_append]
    rfl

structure Gathered (tasks : List ResolvedTask) (done : List (String × Group)) : Prop where
  content : ∀ entry ∈ done, ∀ t ∈ members entry.2, t.fingerprint = entry.1
  distinct : (done.map (·.1)).Nodup
  mem_iff : ∀ t, t ∈ tasks ↔ ∃ entry ∈ done, t ∈ members entry.2

/-- One more task goes into the group of its content, or opens that group. -/
theorem Gathered.add {tasks : List ResolvedTask} {done : List (String × Group)}
    (h : Gathered tasks done) (t : ResolvedTask) : Gathered (tasks ++ [t]) (gatherOne done t) := by
  have distinct : ((gatherOne done t).map (·.1)).Nodup := by
    rw [keys_gatherOne]
    split
    · exact h.distinct
    · next new => exact List.concat_eq_append ▸ h.distinct.concat new
  by_cases known : done.any fun entry => entry.1 == t.fingerprint
  · obtain ⟨entry, mem, same⟩ := List.any_eq_true.1 known
    rw [beq_iff_eq] at same
    rw [gatherOne_of_known known] at distinct ⊢
    refine ⟨?_, distinct, ?_⟩
    · intro entry mem u among
      obtain ⟨entry, found, rfl⟩ := List.mem_map.1 mem
      rw [fst_join]
      rcases mem_join.1 among with among | ⟨rfl, same⟩
      · exact h.content entry found u among
      · exact same.symm
    · intro u
      rw [List.mem_append, List.mem_singleton, h.mem_iff]
      constructor
      · rintro (⟨entry, mem, among⟩ | rfl)
        · exact ⟨join t entry, List.mem_map_of_mem mem, mem_join.2 (.inl among)⟩
        · exact ⟨join u entry, List.mem_map_of_mem mem, mem_join.2 (.inr ⟨rfl, same⟩)⟩
      · rintro ⟨_, mem, among⟩
        obtain ⟨entry, found, rfl⟩ := List.mem_map.1 mem
        rcases mem_join.1 among with among | ⟨rfl, -⟩
        · exact .inl ⟨entry, found, among⟩
        · exact .inr rfl
  · rw [gatherOne, if_neg known] at distinct ⊢
    refine ⟨?_, distinct, ?_⟩
    · intro entry mem u among
      rcases List.mem_append.1 mem with mem | mem
      · exact h.content entry mem u among
      · rw [List.mem_singleton.1 mem] at among ⊢
        rw [List.mem_singleton.1 among]
    · intro u
      rw [List.mem_append, h.mem_iff]
      simp only [List.mem_append, List.mem_singleton]
      constructor
      · rintro (⟨entry, mem, among⟩ | rfl)
        · exact ⟨entry, .inl mem, among⟩
        · exact ⟨_, .inr rfl, List.mem_cons_self⟩
      · rintro ⟨entry, mem | rfl, among⟩
        · exact .inl ⟨entry, mem, among⟩
        · exact .inr (List.mem_singleton.1 among)

theorem gathered (tasks : List ResolvedTask) : Gathered tasks (tasks.foldl gatherOne []) := by
  induction tasks using List.reverseRecOn with
  | nil => exact ⟨by simp, List.nodup_nil, by simp⟩
  | append_singleton tasks t ih =>
    rw [List.foldl_append]
    exact ih.add t

section Groups

variable {tasks : List ResolvedTask} {g : Group} {t : ResolvedTask}

/-- Every task is in a group. -/
theorem mem_gather : t ∈ tasks ↔ ∃ g ∈ gather tasks, t ∈ members g := by
  rw [(gathered tasks).mem_iff, gather_eq]
  simp only [List.mem_map]
  constructor
  · rintro ⟨entry, mem, among⟩
    exact ⟨entry.2, ⟨entry, mem, rfl⟩, among⟩
  · rintro ⟨_, ⟨entry, mem, rfl⟩, among⟩
    exact ⟨entry, mem, among⟩

/-- A group holds tasks of one content. -/
theorem fingerprint_of_mem (mem : g ∈ gather tasks) (among : t ∈ members g) :
    t.fingerprint = content g := by
  obtain ⟨entry, found, rfl⟩ := List.mem_map.1 mem
  have content := (gathered tasks).content entry found
  rw [content t among, Sharing.content, content _ List.mem_cons_self]

theorem map_content_gather (tasks : List ResolvedTask) :
    (gather tasks).map Sharing.content = (tasks.foldl gatherOne []).map (·.1) := by
  rw [gather_eq, List.map_map]
  exact List.map_congr_left fun entry mem =>
    (gathered tasks).content entry mem _ List.mem_cons_self

/-- Different groups have different contents. -/
theorem nodup_contents (tasks : List ResolvedTask) :
    ((gather tasks).map Sharing.content).Nodup :=
  map_content_gather tasks ▸ (gathered tasks).distinct

/-- The group of a task is the one of its content. -/
theorem group_unique {g' : Group} (mem : g ∈ gather tasks) (mem' : g' ∈ gather tasks)
    (same : content g = content g') : g = g' :=
  List.inj_on_of_nodup_map (nodup_contents tasks) mem mem' same

end Groups

/-! ## The identities of representatives -/

/-- The identity of a group's representative under its own workflow. -/
def plainId (g : Group) : String := (g.1.least g.2).id

/-- The identity that takes the place of one that is taken. -/
def spacedId (g : Group) : String := plainId g ++ "@" ++ g.1.space

/-- The identity under which a group is shared, given those of the groups before it. -/
def sharedId (taken : List String) (g : Group) : String :=
  if plainId g ∈ taken then spacedId g else plainId g

def representative (taken : List String) (g : Group) : ResolvedTask :=
  { g.1.least g.2 with id := sharedId taken g }

/-- The groups with their representatives, in the order of discovery. -/
def assign : List String → List Group → List (Group × ResolvedTask)
  | _, [] => []
  | taken, g :: rest => (g, representative taken g) :: assign (sharedId taken g :: taken) rest

/-- Whenever the identity of a representative is taken, the one in its place is not. -/
def Distinguished : List String → List Group → Prop
  | _, [] => True
  | taken, g :: rest =>
    (plainId g ∈ taken → spacedId g ∉ taken) ∧ Distinguished (sharedId taken g :: taken) rest

instance decidableDistinguished : ∀ taken groups, Decidable (Distinguished taken groups)
  | _, [] => .isTrue trivial
  | taken, g :: rest =>
    @instDecidableAnd _ _ inferInstance (decidableDistinguished (sharedId taken g :: taken) rest)

theorem sharedId_notMem_iff {taken : List String} {g : Group} :
    sharedId taken g ∉ taken ↔ (plainId g ∈ taken → spacedId g ∉ taken) := by
  rw [sharedId]
  split
  · next clash => simp [clash]
  · next free => simp [free]

/-- Representatives get identities that differ from each other and from those taken before exactly
if the groups are distinguished. -/
theorem nodup_assign_iff {taken : List String} {groups : List Group} :
    (((assign taken groups).map (·.2.id)).Nodup ∧
      ∀ id ∈ (assign taken groups).map (·.2.id), id ∉ taken) ↔ Distinguished taken groups := by
  induction groups generalizing taken with
  | nil => simp [assign, Distinguished]
  | cons g rest ih =>
    rw [Distinguished, ← ih, ← sharedId_notMem_iff]
    simp only [assign, List.map_cons, List.nodup_cons, List.mem_cons, representative,
      forall_eq_or_imp, not_or]
    constructor
    · rintro ⟨⟨new, rest⟩, free, others⟩
      exact ⟨free, rest, fun id mem => ⟨fun same => new (same ▸ mem), others id mem⟩⟩
    · rintro ⟨free, rest, others⟩
      exact ⟨⟨fun mem => (others _ mem).1 rfl, rest⟩, free, fun id mem => (others id mem).2⟩

theorem map_fst_assign (taken : List String) (groups : List Group) :
    (assign taken groups).map (·.1) = groups := by
  induction groups generalizing taken with
  | nil => rfl
  | cons g rest ih => rw [assign, List.map_cons, ih]

theorem fst_mem_of_assign {taken : List String} {groups : List Group}
    {pair : Group × ResolvedTask} (mem : pair ∈ assign taken groups) : pair.1 ∈ groups :=
  map_fst_assign taken groups ▸ List.mem_map_of_mem mem

theorem eq_representative {taken : List String} {groups : List Group}
    {pair : Group × ResolvedTask} (mem : pair ∈ assign taken groups) :
    ∃ before, pair.2 = representative before pair.1 := by
  induction groups generalizing taken with
  | nil => cases mem
  | cons g rest ih =>
    rcases List.mem_cons.1 mem with rfl | mem
    · exact ⟨taken, rfl⟩
    · exact ih mem

/-- A representative has the content of its group. -/
theorem fingerprint_representative {tasks : List ResolvedTask} {pair : Group × ResolvedTask}
    (mem : pair ∈ assign [] (gather tasks)) : pair.2.fingerprint = content pair.1 := by
  obtain ⟨before, same⟩ := eq_representative mem
  rw [same]
  show (pair.1.1.least pair.1.2).fingerprint = _
  exact fingerprint_of_mem (fst_mem_of_assign mem) (least_mem _ _)

/-! ## Sharing step by step -/

theorem mem_canonical_fold {known : List ((String × String) × String)} {id : String}
    {ts : List ResolvedTask} {entry : (String × String) × String} :
    entry ∈ ts.foldl (fun known t => ((t.space, t.id), id) :: known) known ↔
      entry ∈ known ∨ ∃ t ∈ ts, entry = ((t.space, t.id), id) := by
  induction ts generalizing known with
  | nil => simp
  | cons t ts ih =>
    rw [List.foldl_cons, ih]
    simp only [List.mem_cons, exists_eq_or_imp]
    tauto

theorem perm_addToGroup (t : ResolvedTask) (groups : List (String × List ResolvedTask)) :
    ((addToGroup t groups).flatMap (·.2)).Perm (t :: groups.flatMap (·.2)) := by
  induction groups with
  | nil => exact .refl _
  | cons group rest ih =>
    obtain ⟨workflow, group⟩ := group
    rw [addToGroup]
    split
    · rw [List.flatMap_cons, List.flatMap_cons, List.append_assoc]
      exact List.perm_middle
    · rw [List.flatMap_cons, List.flatMap_cons]
      exact (ih.append_left group).trans List.perm_middle

theorem perm_addAllToGroups (rs : List ResolvedTask) (groups : List (String × List ResolvedTask)) :
    ((rs.foldl (fun groups r => addToGroup r groups) groups).flatMap (·.2)).Perm
      (rs ++ groups.flatMap (·.2)) := by
  induction rs generalizing groups with
  | nil => exact .refl _
  | cons r rest ih =>
    refine (ih _).trans ?_
    exact ((perm_addToGroup r groups).append_left rest).trans List.perm_middle

/-- Whether an identity has been claimed by other content, the latest claim counting. -/
def clashes (claimed : List (String × String)) (id content : String) : Bool :=
  match claimed.find? fun entry => entry.1 == id with
  | some (_, other) => other != content
  | none => false

/-- Content that has claimed nothing itself clashes with every claim of the identity. -/
theorem clashes_eq {claimed : List (String × String)} {id content : String}
    (fresh : content ∉ claimed.map (·.2)) :
    clashes claimed id content = decide (id ∈ claimed.map (·.1)) := by
  unfold clashes
  split
  · next other found =>
    have mem := List.mem_of_find?_eq_some found
    have same := List.find?_some found
    have differs : other ≠ content := fun equal => fresh (List.mem_map.2 ⟨_, mem, equal⟩)
    rw [bne_iff_ne.2 differs, eq_comm, decide_eq_true_iff]
    exact List.mem_map.2 ⟨_, mem, beq_iff_eq.1 same⟩
  · next free =>
    rw [eq_comm, decide_eq_false_iff_not]
    intro mem
    obtain ⟨entry, mem, same⟩ := List.mem_map.1 mem
    exact List.find?_eq_none.1 free entry mem (beq_iff_eq.2 same)

/-- What has been shared after a group is shared under a representative. -/
def Progress.enter (p : Progress) (g : Group) (r : ResolvedTask) : Progress where
  groups := addToGroup r p.groups
  claimed := (r.id, content g) :: p.claimed
  canonical := (members g).foldl (fun known t => ((t.space, t.id), r.id) :: known) p.canonical

/-- Content that has not been shared yet is shared under its representative. -/
theorem share_eq {p : Progress} {g : Group} (fresh : content g ∉ p.claimed.map (·.2)) :
    p.share g.1 g.2 = p.enter g (representative (p.claimed.map (·.1)) g) := by
  have shared : p.share g.1 g.2 = p.enter g
      (if clashes p.claimed (plainId g) (content g) then { g.1.least g.2 with id := spacedId g }
        else g.1.least g.2) := rfl
  rw [shared, clashes_eq fresh, representative, sharedId]
  by_cases taken : plainId g ∈ p.claimed.map (·.1)
  · rw [if_pos (decide_eq_true taken), if_pos taken]
  · rw [if_neg (mt of_decide_eq_true taken), if_neg taken, plainId]

/-- Sharing the contents of groups adds their representatives one after the other to the groups of
their workflows, and makes every task known by the identity of its representative. -/
theorem share_all {groups : List Group} {p : Progress}
    (fresh : ∀ g ∈ groups, content g ∉ p.claimed.map (·.2))
    (distinct : (groups.map content).Nodup) :
    let q := groups.foldl (fun p g => p.share g.1 g.2) p
    let pairs := assign (p.claimed.map (·.1)) groups
    q.groups = (pairs.map (·.2)).foldl (fun groups r => addToGroup r groups) p.groups ∧
      ∀ entry, entry ∈ q.canonical ↔ entry ∈ p.canonical ∨
        ∃ pair ∈ pairs, ∃ t ∈ members pair.1, entry = ((t.space, t.id), pair.2.id) := by
  induction groups generalizing p with
  | nil => exact ⟨rfl, by simp [assign]⟩
  | cons g rest ih =>
    have first := share_eq (fresh g List.mem_cons_self)
    obtain ⟨new, distinct⟩ := List.nodup_cons.1 distinct
    have later : ∀ h ∈ rest, content h ∉ (p.share g.1 g.2).claimed.map (·.2) := by
      intro h mem among
      rw [first, Progress.enter, List.map_cons] at among
      rcases List.mem_cons.1 among with same | among
      · exact new (List.mem_map.2 ⟨h, mem, same⟩)
      · exact fresh h (List.mem_cons_of_mem _ mem) among
    obtain ⟨groups, canonical⟩ := ih later distinct
    rw [first] at groups canonical
    simp only [Progress.enter, List.map_cons] at groups canonical
    simp only [List.foldl_cons, first, Progress.enter, assign, List.map_cons]
    refine ⟨groups, ?_⟩
    intro entry
    rw [canonical, mem_canonical_fold]
    simp only [List.mem_cons, exists_eq_or_imp, or_assoc]
    rfl

/-! ## All tasks of an experiment -/

/-- The tasks of planned spaces: a space runs the tasks of one workflow, and has one task of a
name. -/
structure Planned (tasks : List ResolvedTask) : Prop where
  id_eq : ∀ t ∈ tasks, t.id = taskId t.workflow t.name
  sameWorkflow : ∀ t ∈ tasks, ∀ u ∈ tasks, t.space = u.space → t.workflow = u.workflow
  sameTask : ∀ t ∈ tasks, ∀ u ∈ tasks, t.space = u.space → t.name = u.name → t = u

theorem taskId_inj {workflow name other : String}
    (h : taskId workflow name = taskId workflow other) : name = other := by
  have chars := congrArg String.toList h
  simp only [taskId, String.toList_append] at chars
  exact String.toList_inj.1 (List.append_cancel_left chars)

section All

variable {tasks : List ResolvedTask}

/-- A task of a space is found by its identity. -/
theorem Planned.eq_of_id (h : Planned tasks) {t u : ResolvedTask} (ht : t ∈ tasks)
    (hu : u ∈ tasks) (space : t.space = u.space) (id : t.id = u.id) : t = u := by
  rw [h.id_eq t ht, h.id_eq u hu, h.sameWorkflow t ht u hu space] at id
  exact h.sameTask t ht u hu space (taskId_inj id)

/-- The representatives of all tasks, in the order in which their contents are discovered. -/
def representatives (tasks : List ResolvedTask) : List ResolvedTask :=
  (assign [] (gather tasks)).map (·.2)

theorem share_gathered_all (tasks : List ResolvedTask) :
    (ofTasks tasks).groups =
        ((representatives tasks).foldl (fun groups r => addToGroup r groups) []).map (·.2) ∧
      ∀ entry, entry ∈ (ofTasks tasks).canonical ↔
        ∃ pair ∈ assign [] (gather tasks), ∃ t ∈ members pair.1,
          entry = ((t.space, t.id), pair.2.id) := by
  obtain ⟨groups, canonical⟩ := share_all (p := {}) (by simp) (nodup_contents tasks)
  exact ⟨congrArg (List.map Prod.snd) groups, fun entry => (canonical entry).trans (by simp)⟩

theorem share_gathered (tasks : List ResolvedTask) :
    (ofTasks tasks).groups.flatten.Perm ((assign [] (gather tasks)).map (·.2)) ∧
      ∀ entry, entry ∈ (ofTasks tasks).canonical ↔
        ∃ pair ∈ assign [] (gather tasks), ∃ t ∈ members pair.1,
          entry = ((t.space, t.id), pair.2.id) := by
  obtain ⟨groups, canonical⟩ := share_gathered_all tasks
  refine ⟨?_, canonical⟩
  have perm := perm_addAllToGroups (representatives tasks) []
  rw [List.flatMap_nil, List.append_nil] at perm
  rw [groups, ← List.flatMap_def]
  exact perm

/-- Space and identity tell a task. -/
def Identified (tasks : List ResolvedTask) : Prop :=
  ∀ t ∈ tasks, ∀ u ∈ tasks, t.space = u.space → t.id = u.id → t = u

theorem Planned.identified (planned : Planned tasks) : Identified tasks :=
  fun _ ht _ hu => planned.eq_of_id ht hu

/-- A task that is told by its space and identity is known by the identity of the representative of
its group. -/
theorem Identified.canonicalId?_eq (identified : Identified tasks) {t : ResolvedTask}
    (mem : t ∈ tasks) :
    ∃ pair ∈ assign [] (gather tasks), t ∈ members pair.1 ∧
      (ofTasks tasks).canonicalId? t.space t.id = some pair.2.id := by
  obtain ⟨-, canonical⟩ := share_gathered tasks
  obtain ⟨g, group, among⟩ := mem_gather.1 mem
  have group' := group
  rw [← map_fst_assign [] (gather tasks)] at group'
  obtain ⟨pair, assigned, rfl⟩ := List.mem_map.1 group'
  have known := (canonical _).2 ⟨pair, assigned, t, among, rfl⟩
  rw [canonicalId?]
  cases found : (ofTasks tasks).canonical.find? fun entry => entry.1 == (t.space, t.id) with
  | none => exact absurd (beq_iff_eq.2 rfl) (List.find?_eq_none.1 found _ known)
  | some entry =>
    obtain ⟨other, assigned', u, among', rfl⟩ :=
      (canonical entry).1 (List.mem_of_find?_eq_some found)
    have key := List.find?_some found
    simp only [beq_iff_eq, Prod.mk.injEq] at key
    have group' : other.1 ∈ gather tasks := fst_mem_of_assign assigned'
    have same := identified u (mem_gather.2 ⟨_, group', among'⟩) t mem key.1 key.2
    exact ⟨other, assigned', same ▸ among', rfl⟩

/-! ## Plain names -/

/-- A name without the marks that identities are put together with. -/
def IsPlain (name : String) : Prop := '@' ∉ name.toList ∧ ':' ∉ name.toList

theorem distinguished_of_apart {taken : List String} {groups : List Group}
    (free : ∀ g ∈ groups, spacedId g ∉ taken)
    (apart : groups.Pairwise fun g h => spacedId h ≠ plainId g ∧ spacedId h ≠ spacedId g) :
    Distinguished taken groups := by
  induction groups generalizing taken with
  | nil => exact trivial
  | cons g rest ih =>
    obtain ⟨here, later⟩ := List.pairwise_cons.1 apart
    refine ⟨fun _ => free g List.mem_cons_self, ih ?_ later⟩
    intro h mem
    rw [List.mem_cons, not_or]
    refine ⟨?_, free h (List.mem_cons_of_mem _ mem)⟩
    rw [sharedId]
    split
    · exact (here h mem).2
    · exact (here h mem).1

/-- Groups whose names are plain are distinguished: two groups of which the first tasks come from
one space have different names there. -/
theorem distinguished_of_plain (planned : Planned tasks)
    (plain : ∀ t ∈ tasks, IsPlain t.workflow ∧ IsPlain t.name ∧ IsPlain t.space) :
    Distinguished [] (gather tasks) := by
  have first {g : Group} (mem : g ∈ gather tasks) : g.1 ∈ tasks :=
    mem_gather.2 ⟨g, mem, List.mem_cons_self⟩
  have least {g : Group} (mem : g ∈ gather tasks) : g.1.least g.2 ∈ tasks :=
    mem_gather.2 ⟨g, mem, least_mem _ _⟩
  have name {g : Group} (mem : g ∈ gather tasks) : (g.1.least g.2).name = g.1.name :=
    (fingerprint_eq_iff.1 (fingerprint_of_mem mem (least_mem _ _))).name
  have unmarked {g : Group} (mem : g ∈ gather tasks) : '@' ∉ (plainId g).toList := by
    obtain ⟨workflow, name, -⟩ := plain _ (least mem)
    rw [plainId, planned.id_eq _ (least mem), taskId]
    simp [workflow.1, name.1]
  have apart {g h : Group} (hg : g ∈ gather tasks) (hh : h ∈ gather tasks) (other : g ≠ h) :
      spacedId h ≠ plainId g ∧ spacedId h ≠ spacedId g := by
    refine ⟨fun same => unmarked hg ?_, fun same => other ?_⟩
    · rw [← same, spacedId]
      simp
    have parts : plainId h = plainId g ∧ h.1.space = g.1.space := by
      have chars := congrArg String.toList same
      simp only [spacedId, String.toList_append, List.append_assoc] at chars
      obtain ⟨ids, -, spaces⟩ := (List.append_cons_inj_of_notMem (unmarked hh)
        (plain _ (first hh)).2.2.1).1 chars
      exact ⟨String.toList_inj.1 ids, String.toList_inj.1 spaces⟩
    have names : h.1.name = g.1.name := by
      have chars := congrArg String.toList parts.1
      rw [plainId, plainId, planned.id_eq _ (least hh), planned.id_eq _ (least hg)] at chars
      simp only [taskId, String.toList_append, List.append_assoc, name hh, name hg] at chars
      obtain ⟨-, -, names⟩ := (List.append_cons_inj_of_notMem (plain _ (least hh)).1.2
        (plain _ (first hh)).2.1.2).1 chars
      exact String.toList_inj.1 names
    have same := planned.sameTask _ (first hh) _ (first hg) parts.2 names
    exact group_unique hg hh (by rw [content, content, same])
  have separate : (gather tasks).Pairwise fun g h => spacedId h ≠ plainId g ∧
      spacedId h ≠ spacedId g :=
    (List.Nodup.of_map _ (nodup_contents tasks)).imp_of_mem fun hg hh other => apart hg hh other
  exact distinguished_of_apart (by simp) separate

end All

end Sharing

end Sweep
