import Mathlib.Data.List.Dedup
import Mathlib.Data.List.Perm.Basic
import Sweep.Proofs.Run.Recording
import Sweep.Proofs.Run.WholeCourse
import Sweep.Proofs.Table

/-!
# Results are what is recorded

The results of a space are looked up set by set and output by output. Two values of a space never
get the same key, so as long as completed sets have all of their outputs recorded, there is exactly
one value for each completed set and each output of the last task.
-/

namespace Sweep

/-! ## Keys -/

theorem resultKey_toList (output : String) (index : Nat) :
    (resultKey output index).toList =
      output.toList ++ "_para".toList ++ 'm' :: Nat.toDigits 10 index := by
  simp [resultKey, toString, Nat.repr]

/-- The digits at the end of a key are the index, whatever the output is called. -/
theorem eq_of_resultKey_eq {o p : String} {i j : Nat} (same : resultKey o i = resultKey p j) :
    o = p ∧ i = j := by
  have digits (n : Nat) (before : List Char) :
      ((before ++ 'm' :: Nat.toDigits 10 n).reverse).takeWhile (·.isDigit) =
        (Nat.toDigits 10 n).reverse := by
    have all : ∀ c ∈ (Nat.toDigits 10 n).reverse, c.isDigit = true := fun c mem =>
      Nat.isDigit_of_mem_toDigits (by decide) (by decide) (List.mem_reverse.1 mem)
    rw [List.reverse_append, List.reverse_cons, List.append_assoc,
      List.takeWhile_append_of_pos all]
    simp
  have lists := congrArg String.toList same
  rw [resultKey_toList, resultKey_toList] at lists
  have indices : Nat.toDigits 10 i = Nat.toDigits 10 j := by
    rw [← List.reverse_inj, ← digits i (o.toList ++ "_para".toList), lists, digits]
  refine ⟨?_, ?_⟩
  · rw [indices] at lists
    exact String.toList_injective (List.append_cancel_right (List.append_cancel_right lists))
  · rw [← Nat.ofDigitChars_ten_toDigits (n := i), indices, Nat.ofDigitChars_ten_toDigits]

/-! ## The values of a space -/

/-- The values of a table are those that a ledger holds for some outputs in some sets. -/
def Ledger.Gathers (l : Ledger) (space : String) (asked : List (String × Nat))
    (values : Table String) : Prop :=
  ∀ key value, values.get? key = some value ↔
    ∃ p ∈ asked, key = resultKey p.1 p.2 ∧ l.values (space, p.2, p.1) = some value

namespace Ledger.Gathers

variable {l : Ledger} {space : String} {asked : List (String × Nat)} {values : Table String}

theorem empty : l.Gathers space [] ∅ := fun key value => by
  simp [show (∅ : Table String) = Table.empty from rfl]

/-- One more value, under a key that is no other's. -/
theorem insert (h : l.Gathers space asked values) {output value : String} {index : Nat}
    (known : l.values (space, index, output) = some value) :
    l.Gathers space (asked ++ [(output, index)])
      (values.insert (resultKey output index) value) := by
  intro key other
  rw [Table.get?_insert]
  split
  · next same =>
    subst same
    refine ⟨fun found => ⟨(output, index), by simp, rfl, known.trans found⟩, ?_⟩
    rintro ⟨⟨p, i⟩, -, key, found⟩
    obtain ⟨rfl, rfl⟩ := eq_of_resultKey_eq key
    exact known.symm.trans found
  · next apart =>
    rw [h key other]
    refine exists_congr fun p => and_congr_left fun ⟨same, _⟩ => ?_
    refine ⟨List.mem_append_left _, fun mem => (List.mem_append.1 mem).resolve_right fun last => ?_⟩
    rw [List.mem_singleton.1 last] at same
    exact apart same.symm

/-- What is not recorded may be asked for without effect. -/
theorem skip (h : l.Gathers space asked values) {output : String} {index : Nat}
    (unknown : l.values (space, index, output) = none) :
    l.Gathers space (asked ++ [(output, index)]) values := by
  intro key other
  rw [h key other]
  refine exists_congr fun p => and_congr_left fun ⟨_, found⟩ => ?_
  refine ⟨List.mem_append_left _, fun mem => (List.mem_append.1 mem).resolve_right fun last => ?_⟩
  rw [List.mem_singleton.1 last, unknown] at found
  cases found

theorem outputsOn (h : l.Gathers space asked values) (index : Nat) (outputs : List String) :
    l.Gathers space (asked ++ outputs.map (·, index))
      (Conduct.outputsOn l space index values outputs) := by
  induction outputs generalizing asked values with
  | nil => rwa [List.map_nil, List.append_nil]
  | cons output rest ih =>
    rw [Conduct.outputsOn, List.foldl_cons, List.map_cons, List.append_cons]
    cases known : l.values (space, index, output) with
    | none => exact ih (h.skip known)
    | some value => exact ih (h.insert known)

theorem setsOn (h : l.Gathers space asked values) (outputs : List String) (indices : List Nat) :
    l.Gathers space (asked ++ (indices.filter fun i => l.sets (space, i) = some .completed).flatMap
      fun i => outputs.map (·, i)) (Conduct.setsOn l space outputs values indices) := by
  induction indices generalizing asked values with
  | nil => rwa [List.filter_nil, List.flatMap_nil, List.append_nil]
  | cons index rest ih =>
    rw [Conduct.setsOn, List.foldl_cons]
    by_cases completed : l.sets (space, index) = some .completed
    · rw [if_pos completed, List.filter_cons, if_pos (by simpa using completed), List.flatMap_cons,
        ← List.append_assoc]
      exact ih (h.outputsOn index outputs)
    · rw [if_neg completed, List.filter_cons, if_neg (by simpa using completed)]
      exact ih h

end Ledger.Gathers

namespace Conduct

variable {S : Type} {c : Conduct S} {l : Ledger} {results : Results}

/-- The results have one entry for each space. -/
theorem resultsOn_spaces (distinct : (c.artifact.spaces.map (·.spaceId)).Nodup)
    (found : c.resultsOn l = .ok results) :
    results.keys.Perm (c.artifact.spaces.map (·.spaceId)) ∧ ∀ space ∈ c.artifact.spaces,
      ∃ values, c.spaceOn l space = .ok values ∧ results.get? space.spaceId = some values := by
  have collected (spaces : List SpaceDefinition) (distinct : (spaces.map (·.spaceId)).Nodup)
      (start : Results) (found : spaces.foldlM (fun results space => do
        return results.insert space.spaceId (← c.spaceOn l space)) start = .ok results) :
      (∀ id, id ∉ spaces.map (·.spaceId) → results.get? id = start.get? id) ∧
      ∀ space ∈ spaces, ∃ values, c.spaceOn l space = .ok values ∧
        results.get? space.spaceId = some values := by
    induction spaces generalizing start with
    | nil =>
      cases found
      exact ⟨fun _ _ => rfl, nofun⟩
    | cons space rest ih =>
      rw [List.map_cons, List.nodup_cons] at distinct
      rw [List.foldlM_cons] at found
      cases here : c.spaceOn l space with
      | error e =>
        rw [here] at found
        cases found
      | ok values =>
        rw [here] at found
        obtain ⟨others, each⟩ := ih distinct.2 (start.insert space.spaceId values) found
        refine ⟨fun id apart => ?_, fun other mem => ?_⟩
        · rw [List.map_cons, List.mem_cons, not_or] at apart
          rw [others id apart.2, Table.get?_insert_of_ne (Ne.symm apart.1)]
        · rcases List.mem_cons.1 mem with rfl | mem
          · exact ⟨values, here, by rw [others _ distinct.1, Table.get?_insert_self]⟩
          · exact each other mem
  obtain ⟨others, each⟩ := collected c.artifact.spaces distinct ∅ found
  refine ⟨(List.perm_ext_iff_of_nodup results.nodup_keys distinct).2 fun id => ?_, each⟩
  rw [Table.mem_keys_iff]
  constructor
  · intro known
    by_contra apart
    rw [others id apart] at known
    cases known
  · intro mem
    obtain ⟨space, inSpaces, rfl⟩ := List.mem_map.1 mem
    obtain ⟨values, -, known⟩ := each space inSpaces
    rw [known]
    rfl

/-- The values in results are those of a space. -/
theorem exists_space_of_resultsOn {results : Results} (known : c.resultsOn l = .ok results)
    {id : String} {values : Table String} (entry : results.get? id = some values) :
    ∃ space ∈ c.artifact.spaces, space.spaceId = id ∧ c.spaceOn l space = .ok values := by
  have collected (spaces : List SpaceDefinition) (start : Results)
      (known : spaces.foldlM (fun results space => do
        return results.insert space.spaceId (← c.spaceOn l space)) start = .ok results) :
      start.get? id = some values ∨
        ∃ space ∈ spaces, space.spaceId = id ∧ c.spaceOn l space = .ok values := by
    induction spaces generalizing start with
    | nil =>
      cases known
      exact .inl entry
    | cons space rest ih =>
      rw [List.foldlM_cons] at known
      cases here : c.spaceOn l space with
      | error e =>
        rw [here] at known
        cases known
      | ok table =>
        rw [here] at known
        obtain before | ⟨other, mem, there⟩ := ih (start.insert space.spaceId table) known
        · rw [Table.get?_insert] at before
          split at before
          · next same =>
            cases before
            exact .inr ⟨space, List.mem_cons_self, same, here⟩
          · exact .inl before
        · exact .inr ⟨other, List.mem_cons_of_mem _ mem, there⟩
  obtain none | found := collected c.artifact.spaces ∅ known
  · cases none
  · exact found

/-- There are values for each space. -/
theorem exists_values_of_resultsOn (known : c.resultsOn l = .ok results) {space : SpaceDefinition}
    (mem : space ∈ c.artifact.spaces) : ∃ values, results.get? space.spaceId = some values := by
  have collected (id : String) (spaces : List SpaceDefinition) (start : Results)
      (known : spaces.foldlM (fun results space => do
        return results.insert space.spaceId (← c.spaceOn l space)) start = .ok results)
      (there : (start.get? id).isSome ∨ ∃ space ∈ spaces, space.spaceId = id) :
      (results.get? id).isSome := by
    induction spaces generalizing start with
    | nil =>
      cases known
      exact there.resolve_right nofun
    | cons space rest ih =>
      rw [List.foldlM_cons] at known
      obtain ⟨_, first, later⟩ := exists_of_bind_ok known
      obtain ⟨table, -, rfl⟩ := exists_of_map_ok first
      refine ih _ later ?_
      rw [Table.get?_insert]
      split
      · exact .inl rfl
      · next other =>
        refine there.imp_right ?_
        rintro ⟨found, mem, same⟩
        obtain rfl | mem := List.mem_cons.1 mem
        · exact absurd same other
        · exact ⟨found, mem, same⟩
  exact Option.isSome_iff_exists.1 (collected _ _ _ known (.inr ⟨space, mem, rfl⟩))

end Conduct

/-! ## What a run has completed -/

namespace RunSnapshot

def completedSets (x : RunSnapshot) (space : String) : List SetRecord :=
  x.sets.filter fun r => r.spaceId == space && r.status == .completed

theorem mem_completedSets {x : RunSnapshot} {space : String} {r : SetRecord} :
    r ∈ x.completedSets space ↔ r ∈ x.sets ∧ r.spaceId = space ∧ r.status = .completed := by
  simp [completedSets]

end RunSnapshot

namespace Artifact

variable {a : Artifact} {space : SpaceDefinition} {name : String}

/-- The names of the results of a space: what its last task puts out, if it has tasks. -/
def resultNames (a : Artifact) (space : SpaceDefinition) : List String :=
  match space.lastTask?.bind a.task? with
  | some t => t.outputData
  | none => []

theorem exists_of_mem_resultNames (mem : name ∈ a.resultNames space) :
    ∃ id ∈ space.tasksOrder, ∃ t, a.task? id = some t ∧ name ∈ t.outputData := by
  rw [resultNames] at mem
  cases last : space.lastTask? with
  | none => simp [last] at mem
  | some id =>
    cases known : a.task? id with
    | none => simp [last, known] at mem
    | some t =>
      simp only [last, Option.bind_some, known] at mem
      exact ⟨id, List.mem_of_getLast? last, t, known, mem⟩

/-- What a task of a space puts out has a last task that puts it out. -/
theorem exists_lastProducer {id : String} (mem : id ∈ space.tasksOrder) {t : TaskDefinition}
    (known : a.task? id = some t) (declared : name ∈ t.outputData) :
    ∃ last, a.lastProducer? space name = some last := by
  refine Option.isSome_iff_exists.1 (List.getLast?_isSome.2 ?_)
  exact List.ne_nil_of_mem (List.mem_filter.2 ⟨mem, by simp [putsOut, known, declared]⟩)

end Artifact

/-- A completed set of a space has this value recorded for one of the space's results. -/
def Artifact.Yields (a : Artifact) (x : RunSnapshot) (space : SpaceDefinition) (name : String)
    (index : Nat) (value : String) : Prop :=
  name ∈ a.resultNames space ∧ index < space.parameters.length ∧
    (∃ r, x.set? space.spaceId index = some r ∧ r.status = .completed) ∧
    ∃ m, x.mapping? space.spaceId index name = some m ∧ m.value = value

namespace RunSnapshot

variable {x : RunSnapshot} {a : Artifact}

/-- The keys of the results of a space: one for each completed set and each name. -/
def resultKeys (x : RunSnapshot) (space : String) (names : List String) : List String :=
  (x.completedSets space).flatMap fun r => names.dedup.map fun name => resultKey name r.index

theorem Keyed.nodup_resultKeys (keyed : x.Keyed) (space : String) (names : List String) :
    (x.resultKeys space names).Nodup := by
  rw [resultKeys, List.nodup_flatMap]
  refine ⟨fun r _ => (List.nodup_dedup names).map fun o p same => (eq_of_resultKey_eq same).1, ?_⟩
  have apart := List.pairwise_map.1 (List.nodup_iff_pairwise_ne.1 keyed.sets)
  refine (apart.filter _).imp_of_mem fun {r q} inR inQ different => ?_
  rintro key first second
  obtain ⟨o, -, rfl⟩ := List.mem_map.1 first
  obtain ⟨p, -, same⟩ := List.mem_map.1 second
  have here := (mem_completedSets.1 inR).2.1
  have there := (mem_completedSets.1 inQ).2.1
  exact different (Prod.ext (here.trans there.symm) (eq_of_resultKey_eq same).2.symm)

namespace Recorded

variable (recorded : x.Recorded a) {space : SpaceDefinition} {index : Nat}

include recorded

/-- What a task of a space puts out is recorded for each completed set, and it is recorded for the
last task that puts it out. -/
theorem mapping (known : a.space? space.spaceId = some space)
    (completed : x.ledger.sets (space.spaceId, index) = some .completed) {id : String}
    (mem : id ∈ space.tasksOrder) {t : TaskDefinition} (task : a.task? id = some t) {name : String}
    (declared : name ∈ t.outputData) : ∃ last, a.lastProducer? space name = some last ∧
      ∃ m, x.mapping? space.spaceId index name = some m ∧ m.taskId = some last := by
  obtain ⟨last, found⟩ := Artifact.exists_lastProducer mem task declared
  obtain ⟨space', known', -, produced⟩ := recorded.produced completed
  cases known.symm.trans known'
  exact ⟨last, found, Option.map_eq_some_iff.1 (produced name last found)⟩

/-- The completed sets of a space are among those that are looked up. -/
theorem mem_completedSets_iff (known : a.space? space.spaceId = some space) :
    (∃ r ∈ x.completedSets space.spaceId, r.index = index) ↔
      index < space.parameters.length ∧
        x.ledger.sets (space.spaceId, index) = some .completed := by
  constructor
  · rintro ⟨r, mem, rfl⟩
    obtain ⟨mem, here, completed⟩ := mem_completedSets.1 mem
    have shown : x.ledger.sets (space.spaceId, r.index) = some .completed := by
      rw [← here, ← completed, recorded.keyed.set_eq mem]
    obtain ⟨space', known', inside, -⟩ := recorded.produced shown
    cases known.symm.trans known'
    exact ⟨inside, shown⟩
  · rintro ⟨-, completed⟩
    obtain ⟨r, mem, here, same, status⟩ := exists_set completed
    exact ⟨r, mem_completedSets.2 ⟨mem, here, status⟩, same⟩

end Recorded

end RunSnapshot

namespace Conduct

variable {S : Type} {c : Conduct S} {x : RunSnapshot} {space : SpaceDefinition}
  {values : Table String}

theorem spaceOn_gathers {l : Ledger} (found : c.spaceOn l space = .ok values) :
    l.Gathers space.spaceId
      (((List.range space.parameters.length).filter fun i =>
        l.sets (space.spaceId, i) = some .completed).flatMap fun i =>
          (c.artifact.resultNames space).map (·, i)) values := by
  have gathers : l.Gathers space.spaceId [] ∅ := Ledger.Gathers.empty
  rw [spaceOn] at found
  rw [Artifact.resultNames]
  cases last : space.lastTask? with
  | none =>
    rw [last] at found
    cases found
    simp only [Option.bind_none, List.map_nil]
    rwa [List.flatMap_eq_nil_iff.2 fun _ _ => rfl]
  | some id =>
    simp only [last] at found
    cases known : c.artifact.task? id with
    | none =>
      rw [known] at found
      cases found
    | some t =>
      rw [known] at found
      cases found
      simpa [known] using gathers.setsOn t.outputData (List.range space.parameters.length)

/-- A value of a space is found under a key exactly if it is recorded for what the key names. -/
theorem spaceOn_yields (found : c.spaceOn x.ledger space = .ok values) :
    (∀ key ∈ values.keys, ∃ name index, key = resultKey name index) ∧
    ∀ name index value, values.get? (resultKey name index) = some value ↔
      c.artifact.Yields x space name index value := by
  have gathers := spaceOn_gathers found
  have shown {i : Nat} : x.ledger.sets (space.spaceId, i) = some .completed ↔
      ∃ r, x.set? space.spaceId i = some r ∧ r.status = .completed := Option.map_eq_some_iff
  have recorded {i : Nat} {o value : String} :
      x.ledger.values (space.spaceId, i, o) = some value ↔
        ∃ m, x.mapping? space.spaceId i o = some m ∧ m.value = value := Option.map_eq_some_iff
  refine ⟨fun key bound => ?_, fun name index value => ?_⟩
  · obtain ⟨value, bound⟩ := Option.isSome_iff_exists.1 (Table.mem_keys_iff.1 bound)
    obtain ⟨⟨name, index⟩, -, same, -⟩ := (gathers key value).1 bound
    exact ⟨name, index, same⟩
  · rw [gathers, Artifact.Yields, ← shown, ← recorded]
    simp only [List.mem_flatMap, List.mem_filter, List.mem_range, decide_eq_true_eq, List.mem_map]
    constructor
    · rintro ⟨_, ⟨i, ⟨inside, completed⟩, o, declared, rfl⟩, key, known⟩
      obtain ⟨rfl, rfl⟩ := eq_of_resultKey_eq key
      exact ⟨declared, inside, completed, known⟩
    · rintro ⟨declared, inside, completed, known⟩
      exact ⟨(name, index), ⟨index, ⟨inside, completed⟩, name, declared, rfl⟩, rfl, known⟩

/-- The values of a space are those that are recorded for its completed sets and the outputs of its
last task, each under its own key. -/
theorem spaceOn_recorded (recorded : x.Recorded c.artifact)
    (known : c.artifact.space? space.spaceId = some space)
    (found : c.spaceOn x.ledger space = .ok values) :
    values.keys.Perm (x.resultKeys space.spaceId (c.artifact.resultNames space)) ∧
    ∀ r ∈ x.completedSets space.spaceId, ∀ name ∈ c.artifact.resultNames space,
      ∃ m, x.mapping? space.spaceId r.index name = some m ∧
        values.get? (resultKey name r.index) = some m.value := by
  have gathers := spaceOn_gathers found
  have looked {name : String} {index : Nat}
      (inSet : ∃ r ∈ x.completedSets space.spaceId, r.index = index)
      (declared : name ∈ c.artifact.resultNames space) :
      ∃ m, x.mapping? space.spaceId index name = some m ∧
        values.get? (resultKey name index) = some m.value := by
    obtain ⟨inside, completed⟩ := (recorded.mem_completedSets_iff known).1 inSet
    obtain ⟨id, mem, t, task, puts⟩ := Artifact.exists_of_mem_resultNames declared
    obtain ⟨last, -, m, there, -⟩ := recorded.mapping known completed mem task puts
    have value := congrArg (Option.map DataMapping.value) there
    refine ⟨m, there, (gathers _ _).2 ⟨(name, index), ?_, rfl, value⟩⟩
    simp [inside, completed, declared]
  refine ⟨(List.perm_ext_iff_of_nodup values.nodup_keys
    (recorded.keyed.nodup_resultKeys _ _)).2 fun key => ?_, fun r mem name declared =>
      looked ⟨r, mem, rfl⟩ declared⟩
  rw [Table.mem_keys_iff, RunSnapshot.resultKeys, List.mem_flatMap]
  constructor
  · intro bound
    obtain ⟨value, bound⟩ := Option.isSome_iff_exists.1 bound
    obtain ⟨⟨name, index⟩, asked, rfl, -⟩ := (gathers key value).1 bound
    simp only [List.mem_flatMap, List.mem_filter, List.mem_range, decide_eq_true_eq, List.mem_map,
      Prod.mk.injEq] at asked
    obtain ⟨i, inSet, o, declared, rfl, rfl⟩ := asked
    obtain ⟨r, mem, rfl⟩ := (recorded.mem_completedSets_iff known).2 inSet
    exact ⟨r, mem, List.mem_map.2 ⟨o, List.mem_dedup.2 declared, rfl⟩⟩
  · rintro ⟨r, mem, among⟩
    obtain ⟨name, declared, rfl⟩ := List.mem_map.1 among
    obtain ⟨m, -, bound⟩ := looked ⟨r, mem, rfl⟩ (List.mem_dedup.1 declared)
    rw [bound]
    rfl

/-- Different outputs or sets have different keys, whatever the outputs are called. So no value of
a space is put in place of another: under each key stands what is recorded for the one output and
the one completed set that the key names, and whatever is recorded for such a pair stands there. -/
theorem results_apart :
    (∀ (o p : String) (i j : Nat), resultKey o i = resultKey p j → o = p ∧ i = j) ∧
    ∀ {S : Type} (c : Conduct S) (s : Session S) (x : RunSnapshot) (results : Results),
      c.host.backend.load c.runId s.store = .ok (some x) → (c.results s).1 = .ok results →
      (∀ space ∈ c.artifact.spaces, ∃ values, results.get? space.spaceId = some values) ∧
      ∀ id values, results.get? id = some values →
        ∃ space ∈ c.artifact.spaces, space.spaceId = id ∧
          (∀ key ∈ values.keys, ∃ name index, key = resultKey name index) ∧
          ∀ name index value, values.get? (resultKey name index) = some value ↔
            c.artifact.Yields x space name index value := by
  refine ⟨fun _ _ _ _ => eq_of_resultKey_eq, fun {S} c s x results loads told => ?_⟩
  obtain ⟨_, eval⟩ := reads_results (c := c) s loads
  rw [eval] at told
  refine ⟨fun space => exists_values_of_resultsOn told, fun id values known => ?_⟩
  obtain ⟨space, mem, same, found⟩ := exists_space_of_resultsOn told known
  exact ⟨space, mem, same, spaceOn_yields found⟩

/-- A space with an output whose name is the key of a value of the other output. -/
def likeKeys : Conduct (Table RunSnapshot) where
  host := .inMemory (fun _ => .ok ⟨.exited 0, .empty, .empty⟩) fun _ => false
  artifact :=
    { experiment := "e"
      version := artifactVersion
      tasks :=
        [[{ taskId := "W:t", workflow := "W", implementation := "./t.sh"
            outputData := ["y", "y_param1"] }]]
      spaces := [{ spaceId := "s", tasksOrder := ["W:t"], parameters := [∅, ∅] }]
      control := ⟨"s", [⟨"s", endMark, none⟩]⟩ }
  options := {}
  runId := "r"

/-- Both sets of the space are completed, and there is a value for both outputs in each. -/
def likeKeysRecorded : RunSnapshot :=
  let completed (index : Nat) : SetRecord := ⟨"s", index, ∅, .completed, .ofSeconds 0, none⟩
  let value (index : Nat) (name value : String) : DataMapping :=
    ⟨"s", index, name, value, none, .ofSeconds 0⟩
  { run :=
      { runId := "r", experiment := "e", version := artifactVersion, artifactHash := ""
        startedAt := .ofSeconds 0, updatedAt := .ofSeconds 0 }
    sets := [completed 0, completed 1]
    mappings := [value 0 "y" "a", value 0 "y_param1" "b", value 1 "y" "c",
      value 1 "y_param1" "d"] }

theorem results_apart_likeKeys :
    let s : Session (Table RunSnapshot) :=
      { store := Table.empty.insert "r" likeKeysRecorded, answers := .scripted [] }
    likeKeys.host.backend.load likeKeys.runId s.store = .ok (some likeKeysRecorded) ∧
    ∃ results values, (likeKeys.results s).1 = .ok results ∧ results.get? "s" = some values ∧
      values.get? (resultKey "y" 1) = some "c" ∧
      values.get? (resultKey "y_param1" 0) = some "b" := by
  intro s
  have loads : likeKeys.host.backend.load likeKeys.runId s.store = .ok (some likeKeysRecorded) :=
    rfl
  have valid : likeKeys.artifact.validate = .ok () := rfl
  obtain ⟨results, found⟩ := exists_resultsOn valid likeKeysRecorded.ledger
  obtain ⟨_, eval⟩ := reads_results (c := likeKeys) s loads
  have told : (likeKeys.results s).1 = .ok results := by
    rw [eval]
    exact found
  obtain ⟨-, collects⟩ := results_apart
  obtain ⟨each, apart⟩ := collects likeKeys s likeKeysRecorded results loads told
  obtain ⟨values, known⟩ := each _ List.mem_cons_self
  obtain ⟨space, mem, -, -, yields⟩ := apart _ values known
  obtain rfl := List.mem_singleton.1 mem
  refine ⟨loads, results, values, told, known, (yields _ _ _).2 ?_, (yields _ _ _).2 ?_⟩
  · exact ⟨by decide, by decide, ⟨_, rfl, rfl⟩, _, rfl, rfl⟩
  · exact ⟨by decide, by decide, ⟨_, rfl, rfl⟩, _, rfl, rfl⟩

end Conduct

/-! ## Over a journey -/

theorem Artifact.space?_of_mem {a : Artifact} (distinct : (a.spaces.map (·.spaceId)).Nodup)
    {space : SpaceDefinition} (mem : space ∈ a.spaces) : a.space? space.spaceId = some space :=
  find?_of_mem (fun id (s : SpaceDefinition) => beq_iff_eq (a := s.spaceId) (b := id)) distinct mem

/-- However a run was called before, and wherever the last call was cut off: for a completed set all
outputs of all tasks of its space are recorded, each for the last task that puts it out, and the
results have one value for each completed set and each output of the last task, and no others. -/
theorem Journey.completed_recorded {S : Type} {u : Subject S} {kept : S → Prop}
    (valid : u.artifact.validate = .ok ())
    (distinct : (u.artifact.spaces.map (·.spaceId)).Nodup) {log : List (LogItem S)}
    {x : RunSnapshot} (journey : Journey u kept log (some x)) :
    (∀ r ∈ x.sets, r.status = .completed → ∃ space ∈ u.artifact.spaces, space.spaceId = r.spaceId ∧
      ∀ id ∈ space.tasksOrder, ∃ t, u.artifact.task? id = some t ∧ ∀ name ∈ t.outputData,
        ∃ last, u.artifact.lastProducer? space name = some last ∧
          ∃ m, x.mapping? r.spaceId r.index name = some m ∧ m.taskId = some last) ∧
    ∀ (c : Conduct S) (s : Session S), c.subject = u →
      c.host.backend.load c.runId s.store = .ok (some x) →
      ∃ results, (c.results s).1 = .ok results ∧
        results.keys.Perm (u.artifact.spaces.map (·.spaceId)) ∧
        ∀ space ∈ u.artifact.spaces, ∃ values, results.get? space.spaceId = some values ∧
          values.keys.Perm (x.resultKeys space.spaceId (u.artifact.resultNames space)) ∧
          ∀ r ∈ x.completedSets space.spaceId, ∀ name ∈ u.artifact.resultNames space,
            ∃ m, x.mapping? space.spaceId r.index name = some m ∧
              values.get? (resultKey name r.index) = some m.value := by
  have recorded : x.Recorded u.artifact := journey.recorded valid x rfl
  refine ⟨fun r mem completed => ?_, fun c s same loads => ?_⟩
  · have shown : x.ledger.sets (r.spaceId, r.index) = some .completed := by
      rw [← completed, recorded.keyed.set_eq mem]
    obtain ⟨space, known, -⟩ := recorded.produced shown
    have inSpaces : space ∈ u.artifact.spaces := List.mem_of_find?_eq_some known
    have here : space.spaceId = r.spaceId := Artifact.space?_spaceId known
    rw [← here] at known shown ⊢
    refine ⟨space, inSpaces, rfl, fun id mem => ?_⟩
    obtain ⟨t, task⟩ := Option.isSome_iff_exists.1
      ((Artifact.validate_eq_ok.1 valid).1 space inSpaces id mem)
    exact ⟨t, task, fun name declared => recorded.mapping known shown mem task declared⟩
  · subst same
    obtain ⟨results, found⟩ := Conduct.exists_resultsOn (c := c) valid x.ledger
    obtain ⟨_, eval⟩ := Conduct.reads_results (c := c) s loads
    obtain ⟨spaces, each⟩ := Conduct.resultsOn_spaces distinct found
    refine ⟨results, by rw [eval]; exact found, spaces, fun space mem => ?_⟩
    obtain ⟨values, here, bound⟩ := each space mem
    exact ⟨values, bound,
      Conduct.spaceOn_recorded recorded (Artifact.space?_of_mem distinct mem) here⟩

/-- A space whose tasks put out the same name, and whose commands are only shown. -/
def twoProducers : Conduct (Table RunSnapshot) where
  host := .inMemory (fun _ => .ok ⟨.exited 0, .empty, .empty⟩) fun _ => false
  artifact :=
    { experiment := "e"
      version := artifactVersion
      tasks :=
        [[{ taskId := "W:t", workflow := "W", implementation := "./t.sh", outputData := ["y"] },
          { taskId := "W:u", workflow := "W", implementation := "./u.sh", outputData := ["y"] }]]
      spaces := [{ spaceId := "s", tasksOrder := ["W:t", "W:u"], parameters := [∅] }]
      control := ⟨"s", [⟨"s", endMark, none⟩]⟩ }
  options := { dryRun := true }
  runId := "r"

open Conduct in
/-- The value of the second task is the one that is left, and the one in the results. -/
theorem Journey.completed_recorded_twoProducers : ∃ log x, twoProducers.artifact.validate = .ok () ∧
    (twoProducers.artifact.spaces.map (·.spaceId)).Nodup ∧
    Journey twoProducers.subject (fun _ => True) log (some x) ∧
    (∃ m, x.mapping? "s" 0 "y" = some m ∧ m.taskId = some "W:u") ∧
    ∃ results values, (twoProducers.results (twoProducers.call .run 2 onEmptyTable).2).1 =
      .ok results ∧ results.get? "s" = some values ∧ values.keys = ["y_param0"] := by
  have valid : twoProducers.artifact.validate = .ok () := rfl
  have distinct : (twoProducers.artifact.spaces.map (·.spaceId)).Nodup := by decide
  have reliable := Host.inMemory_reliable (fun _ => .ok ⟨.exited 0, .empty, .empty⟩)
    (fun _ => false) twoProducers.runId
  have finds : twoProducers.Finds (fun _ => True) onEmptyTable none :=
    ⟨trivial, rfl, fun _ h => nomatch h⟩
  have journey := Journey.start.whole twoProducers .run 2 onEmptyTable rfl reliable finds
  have left := (call_finds (c := twoProducers) reliable valid .run 2 finds).loads
  have noted : ((twoProducers.call .run 2 onEmptyTable).2.store.get? "r").map (fun x =>
      x.sets.map fun r => (r.spaceId, r.index, r.status)) = some [("s", 0, .completed)] := by
    decide +kernel
  obtain ⟨x, loads, sets⟩ := Option.map_eq_some_iff.1 noted
  have same : twoProducers.subject.recordAfter none (twoProducers.callLog .run 2 onEmptyTable) =
      some x := (Except.ok.inj left).symm.trans loads
  rw [same] at journey
  obtain ⟨r, only, key⟩ := List.map_eq_singleton_iff.1 sets
  obtain ⟨here, first, status⟩ : r.spaceId = "s" ∧ r.index = 0 ∧ r.status = .completed := by
    simpa using key
  obtain ⟨all, collects⟩ := journey.completed_recorded valid distinct
  refine ⟨_, x, valid, distinct, journey, ?_, ?_⟩
  · obtain ⟨space, mem, -, tasks⟩ := all r (only ▸ List.mem_singleton_self r) status
    cases List.mem_singleton.1 mem
    obtain ⟨t, known, outputs⟩ := tasks "W:t" List.mem_cons_self
    cases known
    obtain ⟨last, producer, m, found, by_⟩ := outputs "y" List.mem_cons_self
    rw [here, first] at found
    cases producer
    exact ⟨m, found, by_⟩
  · obtain ⟨results, found, -, each⟩ := collects twoProducers _ rfl (congrArg Except.ok loads)
    obtain ⟨values, bound, keys, -⟩ := each _ List.mem_cons_self
    have listed : x.resultKeys "s" ["y"] = ["y_param0"] := by
      simp only [RunSnapshot.resultKeys, RunSnapshot.completedSets, only, List.filter_cons, here,
        status, beq_self_eq_true, Bool.and_self, if_true, List.filter_nil, List.flatMap_cons, first]
      rfl
    exact ⟨results, values, found, bound, List.perm_singleton.1 (listed ▸ keys)⟩

end Sweep
