import Mathlib.Data.List.Nodup
import Sweep.Compile.Lineage
import Sweep.Proofs.Compile.Merging
import Sweep.Proofs.Table

/-!
# Resolution

From the name of a workflow one climbs to the name of its parent, and on from there. Either the
climb ends at a workflow without parent, and the name has a line of ancestors, or it comes to a
name that is not known, or back to a name that was met before. No name has two lines, and every
workflow of a line has the line that ends with it; so a line does not come back to a name, and a
name from which the climb comes back has no line.

What has been resolved is kept, also by calls that fail further down. It is all that the lines of
the resolved names are merged to, so that it makes no difference whether a walk upwards ends at a
resolved workflow or at the root: a name is resolved to the same, or refused for the same reason,
after any calls as at first.
-/

namespace Sweep

namespace Lineages

/-! ## Climbs and lines -/

/-- A climb from a name over some workflows, each the parent of the one before, to a name that is
still to be looked up. -/
inductive Climbs (models : Table Workflow) (name : String) : List Workflow → String → Prop
  | stay : Climbs models name [] name
  | up {way : List Workflow} {last parent : String} {w : Workflow} : Climbs models name way last →
      models.get? last = some w → w.parent = some parent → Climbs models name (way ++ [w]) parent

/-- The line of a name: its workflow and all ancestors of that, the root first. -/
inductive Line (models : Table Workflow) : String → List Workflow → Prop
  | root {name : String} {w : Workflow} :
      models.get? name = some w → w.parent = none → Line models name [w]
  | child {name parent : String} {w : Workflow} {above : List Workflow} :
      models.get? name = some w → w.parent = some parent → Line models parent above →
        Line models name (above ++ [w])

/-- Workflows are known by their own names. -/
def Keyed (models : Table Workflow) : Prop :=
  ∀ name w, models.get? name = some w → w.name = name

theorem of_get?_ofWorkflows {workflows : List Workflow} {name : String} {w : Workflow}
    (found : (ofWorkflows workflows).models.get? name = some w) :
    w ∈ workflows ∧ w.name = name := by
  rw [ofWorkflows, Table.get?_ofList, Option.map_eq_some_iff] at found
  obtain ⟨entry, first, rfl⟩ := found
  have same := List.find?_some first
  obtain ⟨v, mem, rfl⟩ := List.mem_map.1 (List.mem_reverse.1 (List.mem_of_find?_eq_some first))
  exact ⟨mem, beq_iff_eq.1 same⟩

theorem keyed_ofWorkflows (workflows : List Workflow) : Keyed (ofWorkflows workflows).models :=
  fun _ _ found => (of_get?_ofWorkflows found).2

variable {models : Table Workflow} {name last : String} {way line upper lower : List Workflow}
  {w : Workflow}

namespace Line

theorem unique {line' : List Workflow} (h : Line models name line) (h' : Line models name line') :
    line = line' := by
  induction h generalizing line' with
  | root found top =>
    cases h' with
    | root found' =>
      cases found.symm.trans found'
      rfl
    | child found' below =>
      cases found.symm.trans found'
      cases top.symm.trans below
  | child found below _ ih =>
    cases h' with
    | root found' top =>
      cases found.symm.trans found'
      cases top.symm.trans below
    | child found' below' above =>
      cases found.symm.trans found'
      cases below.symm.trans below'
      rw [ih above]

/-- The last of a line is the workflow of the name. -/
theorem exists_concat (h : Line models name line) :
    ∃ above w, line = above ++ [w] ∧ models.get? name = some w := by
  cases h with
  | root found => exact ⟨[], _, rfl, found⟩
  | child found => exact ⟨_, _, rfl, found⟩

theorem known (h : Line models name (upper ++ [w])) : models.get? name = some w := by
  obtain ⟨above, v, same, found⟩ := h.exists_concat
  obtain ⟨-, last⟩ := List.append_inj' same rfl
  cases last
  exact found

/-- Every workflow of a line has the line down to it. -/
theorem of_append (keyed : Keyed models) (h : Line models name (upper ++ w :: lower)) :
    Line models w.name (upper ++ [w]) := by
  generalize whole : upper ++ w :: lower = line at h
  induction h generalizing lower with
  | @root name v found top =>
    obtain ⟨rfl, rfl, rfl⟩ : upper = [] ∧ w = v ∧ lower = [] := by
      cases upper <;> simp_all
    exact .root (keyed _ _ found ▸ found) top
  | child found below h ih =>
    rcases split_concat whole.symm with ⟨rfl, rfl, rfl⟩ | ⟨rest, rfl, front⟩
    · exact .child (keyed _ _ found ▸ found) below h
    · exact ih front.symm

/-- The workflows of a line are known. -/
theorem known_of_mem (keyed : Keyed models) (h : Line models name line) (mem : w ∈ line) :
    models.get? w.name = some w := by
  obtain ⟨upper, lower, rfl⟩ := List.append_of_mem mem
  exact (h.of_append keyed).known

/-- A line comes back to no name. -/
theorem nodup (keyed : Keyed models) (h : Line models name line) : (line.map (·.name)).Nodup := by
  induction h with
  | root => exact List.nodup_singleton _
  | @child name parent w above found below h ih =>
    obtain rfl := keyed _ _ found
    rw [List.map_append]
    refine ih.append (List.nodup_singleton _) (List.disjoint_singleton.2 fun again => ?_)
    obtain ⟨v, mem, (same : v.name = w.name)⟩ := List.mem_map.1 again
    obtain ⟨upper, lower, rfl⟩ := List.append_of_mem mem
    -- The name would have two lines, one of them above the other.
    have short : Line models w.name (upper ++ [v]) := same ▸ h.of_append keyed
    have lengths := congrArg List.length (short.unique (.child found below h))
    simp only [List.length_append, List.length_cons, List.length_nil] at lengths
    omega

/-- The parent of a workflow of a line is the one above it. -/
theorem parent_eq (keyed : Keyed models) (h : Line models name (upper ++ [w])) :
    w.parent = upper.getLast?.map (·.name) := by
  generalize whole : upper ++ [w] = line at h
  cases h with
  | root _ top =>
    obtain ⟨rfl, last⟩ | ⟨-, absurd⟩ := List.append_eq_singleton_iff.1 whole
    · cases last
      exact top
    · cases absurd
  | child _ below h =>
    obtain ⟨rfl, last⟩ := List.append_inj' whole rfl
    cases last
    obtain ⟨above, v, rfl, found⟩ := h.exists_concat
    rw [below, List.getLast?_concat, Option.map_some, keyed _ _ found]

end Line

namespace Climbs

/-- What is climbed from a name that has a line is the lower part of the line. -/
theorem exists_upper (climb : Climbs models name way last) (h : Line models name line) :
    ∃ upper, Line models last upper ∧ line = upper ++ way.reverse := by
  induction climb with
  | stay => exact ⟨line, h, (List.append_nil line).symm⟩
  | up _ found below ih =>
    obtain ⟨upper, h', rfl⟩ := ih
    cases h' with
    | root found' top =>
      cases found.symm.trans found'
      cases top.symm.trans below
    | child found' below' above =>
      cases found.symm.trans found'
      cases below.symm.trans below'
      exact ⟨_, above, by simp⟩

/-- A climb to a name that has a line makes up the line of the name that it starts from. -/
theorem line_below (climb : Climbs models name way last) (h : Line models last upper) :
    Line models name (upper ++ way.reverse) := by
  induction climb generalizing upper with
  | stay => simpa using h
  | up _ found below ih => simpa using ih (.child found below h)

/-- A climb over a workflow comes to its name, and goes on from there. -/
theorem of_append (keyed : Keyed models) {rest : List Workflow}
    (climb : Climbs models name (way ++ w :: rest) last) :
    Climbs models name way w.name ∧ Climbs models w.name (w :: rest) last := by
  generalize whole : way ++ w :: rest = all at climb
  induction climb generalizing rest with
  | stay => simp at whole
  | @up all last parent v climb found below ih =>
    rcases split_concat whole.symm with ⟨rfl, rfl, rfl⟩ | ⟨rest, rfl, front⟩
    · obtain rfl := keyed _ _ found
      exact ⟨climb, .up .stay found below⟩
    · obtain ⟨first, second⟩ := ih front.symm
      exact ⟨first, second.up found below⟩

theorem known (keyed : Keyed models) (climb : Climbs models name way last) (mem : w ∈ way) :
    models.get? w.name = some w := by
  induction climb with
  | stay => cases mem
  | up _ found _ ih =>
    rcases List.mem_append.1 mem with mem | mem
    · exact ih mem
    · cases List.mem_singleton.1 mem
      exact keyed _ _ found ▸ found

/-- From a workflow that was climbed over, the climb goes on to the same name. -/
theorem from_mem (keyed : Keyed models) (climb : Climbs models name way last) (mem : w ∈ way) :
    ∃ rest, Climbs models w.name (w :: rest) last := by
  obtain ⟨before, rest, rfl⟩ := List.append_of_mem mem
  exact ⟨rest, (climb.of_append keyed).2⟩

/-- A name to which the climb comes back has no line. -/
theorem not_line (keyed : Keyed models) (climb : Climbs models name way last)
    (again : last ∈ way.map (·.name)) : ¬ Line models last line := by
  intro h
  obtain ⟨w, mem, rfl⟩ := List.mem_map.1 again
  obtain ⟨rest, round⟩ := climb.from_mem keyed mem
  obtain ⟨upper, h', same⟩ := round.exists_upper h
  have lengths := congrArg List.length (h.unique h' ▸ same)
  simp only [List.length_append, List.length_reverse, List.length_cons] at lengths
  omega

end Climbs

/-! ## The walk up the ancestors -/

/-- One step of the walk upwards, from a workflow that is neither resolved nor visited before. -/
theorem ancestry_step {resolved : Table ResolvedWorkflow} {unvisited : Table Workflow}
    {path : List String} {name : String} (unresolved : resolved.get? name = none)
    (new : ¬ path.contains name = true) :
    ancestry resolved unvisited path name =
      match unvisited.get? name with
      | none => .error (.undefinedParent (path.getLast?.getD "") name)
      | some w =>
        match w.parent with
        | none => .ok (none, [w])
        | some parent =>
          (ancestry resolved (unvisited.erase name) (path ++ [name]) parent).map
            fun way => (way.1, way.2 ++ [w]) := by
  rw [ancestry, unresolved]
  simp only [if_neg new]
  split
  · next missing => rw [missing]
  · next w found =>
    rw [found]
    dsimp only
    cases w.parent with
    | none => rfl
    | some parent =>
      dsimp only
      cases ancestry resolved (unvisited.erase name) (path ++ [name]) parent with
      | error => rfl
      | ok => rfl

theorem ancestry_again {resolved : Table ResolvedWorkflow} {unvisited : Table Workflow}
    {path : List String} {name : String} (unresolved : resolved.get? name = none)
    (again : path.contains name = true) :
    ancestry resolved unvisited path name = .error (.circularInheritance (path ++ [name])) := by
  rw [ancestry, unresolved]
  simp only [again, if_true]

/-- The workflows that are left when those of a path have been visited. -/
def without (models : Table Workflow) (path : List String) : Table Workflow :=
  path.foldl Table.erase models

theorem without_concat (models : Table Workflow) (path : List String) (name : String) :
    (without models path).erase name = without models (path ++ [name]) :=
  (List.foldl_concat ..).symm

theorem get?_without (models : Table Workflow) {path : List String} {name : String}
    (new : name ∉ path) : (without models path).get? name = models.get? name := by
  induction path generalizing models with
  | nil => rfl
  | cons visited path ih =>
    obtain ⟨apart, later⟩ := not_or.1 fun old => new (List.mem_cons.2 old)
    exact (ih (models.erase visited) later).trans (Table.get?_erase_of_ne (Ne.symm apart))

variable {resolved : Table ResolvedWorkflow}

/-- The walk follows a climb over workflows of different names that are not resolved. -/
theorem ancestry_of_climbs (keyed : Keyed models) (climb : Climbs models name way last)
    (distinct : (way.map (·.name)).Nodup) (unresolved : ∀ w ∈ way, resolved.get? w.name = none) :
    ancestry resolved models [] name =
      (ancestry resolved (without models (way.map (·.name))) (way.map (·.name)) last).map
        fun found => (found.1, found.2 ++ way.reverse) := by
  induction climb with
  | stay =>
    simp only [List.reverse_nil, List.append_nil]
    cases h : ancestry resolved models [] name <;> simp [without, h, Except.map]
  | @up way last parent w climb found below ih =>
    obtain rfl := keyed _ _ found
    rw [List.map_append, List.map_singleton] at distinct ⊢
    obtain ⟨before, -, apart⟩ := List.nodup_append'.1 distinct
    have new : w.name ∉ way.map (·.name) := List.disjoint_singleton.1 apart
    rw [ih before fun v mem => unresolved v (List.mem_append_left _ mem),
      ancestry_step (unresolved w (by simp)) (by simpa using new), get?_without _ new, found,
      without_concat]
    simp only [below]
    generalize ancestry resolved _ _ parent = rest
    cases rest <;> simp [Except.map]

/-- The walk up a line comes to the lowest workflow of it that is resolved. -/
theorem ancestry_of_line (resolved : Table ResolvedWorkflow) {path : List String}
    (h : Line models name line) (keyed : Keyed models) (new : ∀ w ∈ line, w.name ∉ path) :
    ∃ upper base below, line = upper ++ below ∧
      ancestry resolved (without models path) path name = .ok (base, below) ∧
      ((upper = [] ∧ base = none) ∨
        ∃ above w, upper = above ++ [w] ∧ base.isSome ∧ base = resolved.get? w.name) := by
  induction h generalizing path with
  | @root name w found top =>
    obtain rfl := keyed _ _ found
    cases known : resolved.get? w.name with
    | some base =>
      refine ⟨[w], some base, [], rfl, ?_, .inr ⟨[], w, rfl, rfl, known.symm⟩⟩
      rw [ancestry, known]
    | none =>
      have visited := new w List.mem_cons_self
      refine ⟨[], none, [w], rfl, ?_, .inl ⟨rfl, rfl⟩⟩
      rw [ancestry_step known (by simpa using visited), get?_without _ visited, found]
      simp only [top]
  | @child name parent w above found below h ih =>
    obtain rfl := keyed _ _ found
    cases known : resolved.get? w.name with
    | some base =>
      refine ⟨above ++ [w], some base, [], (List.append_nil _).symm, ?_,
        .inr ⟨above, w, rfl, rfl, known.symm⟩⟩
      rw [ancestry, known]
    | none =>
      have visited := new w (by simp)
      have names := (Line.child found below h).nodup keyed
      have new' : ∀ v ∈ above, v.name ∉ path ++ [w.name] := by
        intro v mem
        rw [List.map_append, List.nodup_append'] at names
        rw [List.mem_append, List.mem_singleton, not_or]
        exact ⟨new v (List.mem_append_left _ mem),
          fun same => names.2.2 (List.mem_map_of_mem mem) (by simp [same])⟩
      obtain ⟨upper, base, lower, rfl, walked, reached⟩ := ih new'
      refine ⟨upper, base, lower ++ [w], by simp, ?_, reached⟩
      rw [ancestry_step known (by simpa using visited), get?_without _ visited, found,
        without_concat]
      simp only [below, walked]
      rfl

/-- A climb over workflows of different names comes to a name that is not known or was met before,
or it is part of a line. -/
theorem line_or_stuck (keyed : Keyed models) (climb : Climbs models name way last)
    (distinct : (way.map (·.name)).Nodup) :
    (∃ line, Line models name line) ∨
      ∃ way last, Climbs models name way last ∧ (way.map (·.name)).Nodup ∧
        (models.get? last = none ∨ last ∈ way.map (·.name)) := by
  generalize left : (without models (way.map (·.name))).size = size
  induction size using Nat.strongRecOn generalizing way last with
  | _ size ih =>
    by_cases again : last ∈ way.map (·.name)
    · exact .inr ⟨way, last, climb, distinct, .inr again⟩
    · cases found : models.get? last with
      | none => exact .inr ⟨way, last, climb, distinct, .inl found⟩
      | some w =>
        obtain rfl := keyed _ _ found
        cases below : w.parent with
        | none => exact .inl ⟨_, climb.line_below (.root found below)⟩
        | some parent =>
          -- One more name has been visited, and a table of workflows has only so many.
          have names : ((way ++ [w]).map (·.name)) = way.map (·.name) ++ [w.name] := by simp
          refine ih _ ?_ (climb.up found below) ?_ rfl
          · rw [names, ← without_concat, ← left]
            exact Table.size_erase_lt ((get?_without models again).trans found)
          · rw [names]
            exact distinct.append (List.nodup_singleton _) (List.disjoint_singleton.2 again)

end Lineages

/-- What is bound stays bound to something when any key is bound. -/
theorem Table.isSome_get?_insert {α : Type} {t : Table α} {key other : String} {value : α}
    (bound : (t.get? other).isSome) : ((t.insert key value).get? other).isSome := by
  rw [get?_insert]
  split
  · rfl
  · exact bound

namespace Lineages

open Workflow (mergeAll mergeAll_cons mergeAll_append mergesAll_of_mergeAll)

/-! ## Calls -/

/-- A call of resolution, for one name or for all that are known. -/
inductive Call
  | one (name : String)
  | all

/-- The state that a call leaves, whether it succeeds or not. -/
def called (l : Lineages) : Call → Lineages
  | .one name => (l.resolve name).2
  | .all => l.resolveAll.2

/-- The state in which workflows are resolved after some calls in turn. -/
def after (workflows : List Workflow) (calls : List Call) : Lineages :=
  calls.foldl called (ofWorkflows workflows)

/-- A result that is what the ancestors of a name make of it. If they come to a name that is not
known, or back to one of them, the result tells of that; otherwise they end at a root, and the
result is what is merged from there, or the error of the first merge that fails. -/
structure Decides (models : Table Workflow) (name : String)
    (result : Except CompileError ResolvedWorkflow) : Prop where
  unknown {way : List Workflow} {last : String} : Climbs models name way last →
    (way.map (·.name)).Nodup → models.get? last = none →
      result = .error (.undefinedParent ((way.map (·.name)).getLast?.getD "") last)
  circular {way : List Workflow} {last : String} : Climbs models name way last →
    (way.map (·.name)).Nodup → last ∈ way.map (·.name) →
      result = .error (.circularInheritance (way.map (·.name) ++ [last]))
  merged {line : List Workflow} : Line models name line → result.map some = mergeAll none line
  ends : (∃ line, Line models name line) ∨
    ∃ way last, Climbs models name way last ∧ (way.map (·.name)).Nodup ∧
      (models.get? last = none ∨ last ∈ way.map (·.name))

/-! ## The states that calls leave -/

/-- Nothing is resolved but what the lines of names are merged to, with all workflows of these. -/
structure Sound (models : Table Workflow) (l : Lineages) : Prop where
  known : l.models = models
  merged {name : String} {r : ResolvedWorkflow} : l.resolved.get? name = some r →
    ∃ line, Line models name line ∧ mergeAll none line = .ok (some r) ∧
      ∀ w ∈ line, (l.resolved.get? w.name).isSome

variable {models : Table Workflow} {l : Lineages} {base : Option ResolvedWorkflow}
  {name last : String} {way line upper below : List Workflow}

theorem descend_eq (l : Lineages) (base : Option ResolvedWorkflow) (below : List Workflow) :
    (l.descend base below).1 = mergeAll base below := by
  induction below generalizing l base with
  | nil => rfl
  | cons w below ih =>
    rw [descend, mergeAll_cons]
    cases w.merge base with
    | error => rfl
    | ok merged => exact ih _ (some merged)

namespace Sound

/-- What is merged down a line is kept for the name of each workflow. -/
theorem descend (sound : Sound models l) (keyed : Keyed models)
    (h : Line models name (upper ++ below)) (above : mergeAll none upper = .ok base)
    (bound : ∀ w ∈ upper, (l.resolved.get? w.name).isSome) :
    Sound models (l.descend base below).2 := by
  induction below generalizing l base upper with
  | nil => exact sound
  | cons w below ih =>
    rw [Lineages.descend]
    cases made : w.merge base with
    | error => exact sound
    | ok merged =>
      have here : mergeAll none (upper ++ [w]) = .ok (some merged) := by
        rw [mergeAll_append, above]
        change mergeAll base [w] = _
        rw [mergeAll_cons, made]
        rfl
      have bound' : ∀ v ∈ upper ++ [w],
          ((l.resolved.insert w.name merged).get? v.name).isSome := by
        intro v mem
        rcases List.mem_append.1 mem with mem | mem
        · exact Table.isSome_get?_insert (bound v mem)
        · simp [List.mem_singleton.1 mem]
      have h' : Line models name ((upper ++ [w]) ++ below) := by simpa using h
      refine ih ⟨sound.known, ?_⟩ h' here bound'
      intro other r found
      rw [Table.get?_insert] at found
      split at found
      · next same =>
        cases found
        exact ⟨_, same ▸ h.of_append keyed, here, bound'⟩
      · obtain ⟨line, h', all, kept⟩ := sound.merged found
        exact ⟨line, h', all, fun v mem => Table.isSome_get?_insert (kept v mem)⟩

/-- A name from which one climbs to a name without line is not resolved. -/
theorem get?_eq_none (sound : Sound models l) (climb : Climbs models name way last)
    (stuck : ∀ upper, ¬ Line models last upper) : l.resolved.get? name = none := by
  rw [Option.eq_none_iff_forall_ne_some]
  intro r found
  obtain ⟨line, h, -⟩ := sound.merged found
  obtain ⟨upper, h', -⟩ := climb.exists_upper h
  exact stuck upper h'

/-- The walk follows a climb to a name without line. -/
theorem ancestry_of_stuck (sound : Sound models l) (keyed : Keyed models)
    (climb : Climbs models name way last) (distinct : (way.map (·.name)).Nodup)
    (stuck : ∀ upper, ¬ Line models last upper) :
    ancestry l.resolved l.models [] name =
      (ancestry l.resolved (without models (way.map (·.name))) (way.map (·.name)) last).map
        fun found => (found.1, found.2 ++ way.reverse) := by
  rw [sound.known]
  refine ancestry_of_climbs keyed climb distinct fun w mem => ?_
  obtain ⟨rest, onwards⟩ := climb.from_mem keyed mem
  exact sound.get?_eq_none onwards stuck

theorem resolve_of_unknown (sound : Sound models l) (keyed : Keyed models)
    (climb : Climbs models name way last) (distinct : (way.map (·.name)).Nodup)
    (missing : models.get? last = none) :
    l.resolve name =
      (.error (.undefinedParent ((way.map (·.name)).getLast?.getD "") last), l) := by
  have stuck : ∀ upper, ¬ Line models last upper := by
    intro upper h
    obtain ⟨_, w, -, known⟩ := h.exists_concat
    cases missing.symm.trans known
  have new : last ∉ way.map (·.name) := by
    intro again
    obtain ⟨w, mem, rfl⟩ := List.mem_map.1 again
    cases missing.symm.trans (climb.known keyed mem)
  rw [resolve, sound.ancestry_of_stuck keyed climb distinct stuck,
    ancestry_step (sound.get?_eq_none .stay stuck) (by simpa using new), get?_without _ new,
    missing]
  rfl

theorem resolve_of_circular (sound : Sound models l) (keyed : Keyed models)
    (climb : Climbs models name way last) (distinct : (way.map (·.name)).Nodup)
    (again : last ∈ way.map (·.name)) :
    l.resolve name = (.error (.circularInheritance (way.map (·.name) ++ [last])), l) := by
  have stuck : ∀ upper, ¬ Line models last upper := fun _ => climb.not_line keyed again
  rw [resolve, sound.ancestry_of_stuck keyed climb distinct stuck,
    ancestry_again (sound.get?_eq_none .stay stuck) (List.contains_iff_mem.2 again)]
  rfl

theorem resolve_of_line (sound : Sound models l) (keyed : Keyed models)
    (h : Line models name line) :
    (l.resolve name).1.map some = mergeAll none line ∧ Sound models (l.resolve name).2 := by
  obtain ⟨upper, base, below, rfl, walked, reached⟩ :=
    ancestry_of_line l.resolved h keyed fun _ _ => List.not_mem_nil
  -- What is found resolved is what the line down to it is merged to.
  have above : mergeAll none upper = .ok base ∧ ∀ w ∈ upper, (l.resolved.get? w.name).isSome := by
    rcases reached with ⟨rfl, rfl⟩ | ⟨above, w, rfl, bound, found⟩
    · exact ⟨rfl, fun _ mem => nomatch mem⟩
    · obtain ⟨r, rfl⟩ := Option.isSome_iff_exists.1 bound
      obtain ⟨line, h', merged, kept⟩ := sound.merged found.symm
      rw [List.append_assoc, List.singleton_append] at h
      obtain rfl := (h.of_append keyed).unique h'
      exact ⟨merged, kept⟩
  have whole : mergeAll none (upper ++ below) = mergeAll base below := by
    rw [mergeAll_append, above.1]
    rfl
  have result := descend_eq l base below
  have after := sound.descend keyed h above.1 above.2
  have some : mergeAll none (upper ++ below) ≠ .ok none := by
    intro nothing
    rcases mergesAll_of_mergeAll nothing with ⟨empty, -⟩ | ⟨r, found, -⟩
    · obtain ⟨_, w, same, -⟩ := h.exists_concat
      simp [same] at empty
    · cases found
  rw [← sound.known] at walked
  rw [resolve, show ancestry l.resolved l.models [] name = .ok (base, below) from walked]
  dsimp only
  rw [whole, ← result] at some ⊢
  generalize l.descend base below = out at after some
  obtain ⟨made, l'⟩ := out
  cases made with
  | error e => exact ⟨rfl, after⟩
  | ok found =>
    cases found with
    | none => exact absurd rfl some
    | some r => exact ⟨rfl, after⟩

/-- A call for one name, whether it succeeds or not, leaves a sound state. -/
theorem resolve (sound : Sound models l) (keyed : Keyed models) (name : String) :
    Sound models (l.resolve name).2 := by
  rcases line_or_stuck keyed (.stay : Climbs models name [] name) List.nodup_nil with
    ⟨line, h⟩ | ⟨way, last, climb, distinct, missing | again⟩
  · exact (sound.resolve_of_line keyed h).2
  · rwa [sound.resolve_of_unknown keyed climb distinct missing]
  · rwa [sound.resolve_of_circular keyed climb distinct again]

theorem resolveEach (sound : Sound models l) (keyed : Keyed models) (names : List String)
    (errors : List CompileError) : Sound models (l.resolveEach names errors).2 := by
  induction names generalizing errors l with
  | nil => exact sound
  | cons name names ih =>
    have next := sound.resolve keyed name
    rw [Lineages.resolveEach]
    generalize l.resolve name = out at next
    obtain ⟨result, l'⟩ := out
    cases result with
    | ok => exact ih next errors
    | error => exact ih next _

theorem called (sound : Sound models l) (keyed : Keyed models) (call : Call) :
    Sound models (l.called call) := by
  cases call with
  | one name => exact sound.resolve keyed name
  | all => exact sound.resolveEach keyed l.names []

theorem decides (sound : Sound models l) (keyed : Keyed models) (name : String) :
    Decides models name (l.resolve name).1 where
  unknown climb distinct missing :=
    congrArg Prod.fst (sound.resolve_of_unknown keyed climb distinct missing)
  circular climb distinct again :=
    congrArg Prod.fst (sound.resolve_of_circular keyed climb distinct again)
  merged h := (sound.resolve_of_line keyed h).1
  ends := line_or_stuck keyed .stay List.nodup_nil

/-- What a name is resolved to is what its line is merged to. -/
theorem exists_line (sound : Sound models l) (keyed : Keyed models) {r : ResolvedWorkflow}
    (resolved : (l.resolve name).1 = .ok r) :
    ∃ line, Line models name line ∧ mergeAll none line = .ok (some r) := by
  have decided := sound.decides keyed name
  rw [resolved] at decided
  rcases decided.ends with ⟨line, h⟩ | ⟨way, last, climb, distinct, missing | again⟩
  · exact ⟨line, h, (decided.merged h).symm⟩
  · cases decided.unknown climb distinct missing
  · cases decided.circular climb distinct again

end Sound

/-- The ancestors of a name leave no choice. -/
theorem Decides.unique {result result' : Except CompileError ResolvedWorkflow}
    (h : Decides models name result) (h' : Decides models name result') : result = result' := by
  rcases h.ends with ⟨line, ends⟩ | ⟨way, last, climb, distinct, missing | again⟩
  · have same := (h.merged ends).trans (h'.merged ends).symm
    cases result <;> cases result' <;> cases same <;> rfl
  · rw [h.unknown climb distinct missing, h'.unknown climb distinct missing]
  · rw [h.circular climb distinct again, h'.circular climb distinct again]

/-- After any calls the state is sound. -/
theorem sound_after (workflows : List Workflow) (calls : List Call) :
    Sound (ofWorkflows workflows).models (after workflows calls) := by
  induction calls using List.reverseRecOn with
  | nil => exact ⟨rfl, fun found => nomatch found⟩
  | append_singleton calls call ih =>
    rw [after, List.foldl_concat]
    exact ih.called (keyed_ofWorkflows workflows) call

/-- Resolution always ends, with what the ancestors of the name decide. Calls that were made
before, successful or not, make no difference. -/
theorem resolve_after (workflows : List Workflow) (calls : List Call) (name : String) :
    Decides (ofWorkflows workflows).models name ((after workflows calls).resolve name).1 ∧
      ((after workflows calls).resolve name).1 = ((ofWorkflows workflows).resolve name).1 := by
  have keyed := keyed_ofWorkflows workflows
  have decided := (sound_after workflows calls).decides keyed name
  exact ⟨decided, decided.unique ((sound_after workflows []).decides keyed name)⟩

/-- A cycle that is entered from outside is told from where it was entered, after a call that met
it elsewhere. -/
example :
    ((after [{ name := "A", parent := some "B" }, { name := "B", parent := some "A" },
        { name := "C", parent := some "A" }] [.one "B", .all]).resolve "C").1 =
      .error (.circularInheritance ["C", "A", "B", "A"]) := by
  decide +kernel

end Lineages

end Sweep
