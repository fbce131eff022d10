import Mathlib.Algebra.Order.Field.Basic
import Mathlib.Data.Rat.Cast.Order
import Sweep.Proofs.Run.Counting
import Sweep.Proofs.Run.Orderly

/-!
# Progress goes forward

The shares of a space that listeners are told of never go back: those of a parameter set lie between
what is done before it and what is done after it, whether they count tasks or sets. No share is zero
or more than the whole, and the divisor is never zero. The last share is that of the last set that
is carried out. It is the whole exactly if this is the last set of the space: sets that are skipped
at the end of a space are not told of. On records that only whole calls have left, the sets that are
skipped are the first ones, so there a visit that carries out a set comes to the whole.
-/

namespace Sweep

variable {S : Type}

namespace ProgressNotice

/-- The share that is done, as an exact quotient. -/
def share? : ProgressNotice → Option ℚ
  | .entered _ => none
  | .reached done total => some (done / total)

def shares (notices : List ProgressNotice) : List ℚ := notices.filterMap share?

theorem mem_shares {q : ℚ} {told : List ProgressNotice} : q ∈ shares told ↔
    ∃ done total : Nat, .reached done total ∈ told ∧ (done / total : ℚ) = q := by
  rw [shares, List.mem_filterMap]
  constructor
  · rintro ⟨index | ⟨done, total⟩, mem, same⟩
    · cases same
    · exact ⟨done, total, mem, Option.some.inj same⟩
  · rintro ⟨done, total, mem, rfl⟩
    exact ⟨_, mem, rfl⟩

theorem shares_ofSet (tasks sets index : Nat) : shares (ofSet tasks sets index) =
    (List.range' (index * tasks + 1) tasks).map
        (fun done : Nat => (done / (tasks * sets : Nat) : ℚ)) ++
      [((index + 1 : Nat) / sets : ℚ)] := by
  rw [shares, ofSet, List.filterMap_cons_none rfl, List.filterMap_append, List.filterMap_map,
    ← List.filterMap_eq_map]
  rfl

/-- What is told of a set lies between what is done before it and what is done after it. -/
theorem bounds_of_mem_ofSet {tasks sets index done total : Nat} (inside : index < sets)
    (mem : .reached done total ∈ ofSet tasks sets index) :
    index * total < done * sets ∧ done * sets ≤ (index + 1) * total := by
  have some_ : 0 < sets := Nat.zero_lt_of_lt inside
  rw [ofSet, List.mem_cons, List.mem_append, List.mem_map, List.mem_singleton] at mem
  rcases mem with other | ⟨i, among, same⟩ | same
  · cases other
  · cases same
    obtain ⟨before, upTo⟩ := List.mem_range'_1.1 among
    rw [← Nat.mul_assoc, ← Nat.mul_assoc]
    refine ⟨Nat.mul_lt_mul_of_pos_right before some_, Nat.mul_le_mul_right sets ?_⟩
    rw [Nat.add_mul, Nat.one_mul]
    omega
  · cases same
    exact ⟨Nat.mul_lt_mul_of_pos_right (Nat.lt_succ_self index) some_, Nat.le_refl _⟩

/-- No divisor is zero, and no more is done than there is. -/
theorem proper_of_mem_ofSet {tasks sets index done total : Nat} (inside : index < sets)
    (mem : .reached done total ∈ ofSet tasks sets index) : 0 < done ∧ done ≤ total := by
  obtain ⟨before, upTo⟩ := bounds_of_mem_ofSet inside mem
  refine ⟨Nat.pos_of_mul_pos_right (Nat.zero_lt_of_lt before), ?_⟩
  refine Nat.le_of_mul_le_mul_right (c := sets) ?_ (Nat.zero_lt_of_lt inside)
  calc done * sets ≤ (index + 1) * total := upTo
    _ ≤ sets * total := Nat.mul_le_mul_right total inside
    _ = total * sets := Nat.mul_comm sets total

/-- The shares that are told of a set lie between the share before it and the one after it. -/
theorem bounds_of_mem_shares {tasks sets index : Nat} {q : ℚ} (inside : index < sets)
    (mem : q ∈ shares (ofSet tasks sets index)) :
    (index / sets : ℚ) < q ∧ q ≤ ((index + 1 : Nat) / sets : ℚ) := by
  obtain ⟨done, total, told, rfl⟩ := mem_shares.1 mem
  obtain ⟨before, upTo⟩ := bounds_of_mem_ofSet inside told
  obtain ⟨some_, most⟩ := proper_of_mem_ofSet inside told
  have sets_pos : (0 : ℚ) < sets := Nat.cast_pos.2 (Nat.zero_lt_of_lt inside)
  have total_pos : (0 : ℚ) < total := Nat.cast_pos.2 (some_.trans_le most)
  rw [div_lt_div_iff₀ sets_pos total_pos, div_le_div_iff₀ total_pos sets_pos]
  exact ⟨mod_cast before, mod_cast upTo⟩

/-- Within a set the shares do not go back. -/
theorem pairwise_shares_ofSet {tasks sets index : Nat} (inside : index < sets) :
    (shares (ofSet tasks sets index)).Pairwise (· ≤ ·) := by
  have upTo (q) (mem : q ∈ shares (ofSet tasks sets index)) := (bounds_of_mem_shares inside mem).2
  rw [shares_ofSet] at upTo ⊢
  refine List.pairwise_append.2 ⟨?_, List.pairwise_singleton .., fun q mem r last => ?_⟩
  · refine List.pairwise_map.2 ((List.pairwise_lt_range').imp fun less => ?_)
    exact div_le_div_of_nonneg_right (Nat.cast_le.2 less.le) (Nat.cast_nonneg _)
  · rw [List.mem_singleton.1 last]
    exact upTo q (List.mem_append_left _ mem)

variable {tasks sets : Nat} {indices : List Nat}

theorem shares_flatMap_ofSet : shares (indices.flatMap (ofSet tasks sets)) =
    indices.flatMap fun index => shares (ofSet tasks sets index) := List.filterMap_flatMap ..

/-- Nor do they from one set to the next, and none is zero or more than one. -/
theorem pairwise_shares (ordered : indices.Pairwise (· < ·)) (inside : ∀ i ∈ indices, i < sets) :
    (shares (indices.flatMap (ofSet tasks sets))).Pairwise (· ≤ ·) := by
  rw [shares_flatMap_ofSet, List.pairwise_flatMap]
  refine ⟨fun i mem => pairwise_shares_ofSet (inside i mem), ?_⟩
  refine ordered.imp_of_mem fun {i j} left right less q here r there => ?_
  have between : ((i + 1 : Nat) / sets : ℚ) ≤ (j / sets : ℚ) :=
    div_le_div_of_nonneg_right (Nat.cast_le.2 less) (Nat.cast_nonneg _)
  calc q ≤ ((i + 1 : Nat) / sets : ℚ) := (bounds_of_mem_shares (inside i left) here).2
    _ ≤ j / sets := between
    _ ≤ r := (bounds_of_mem_shares (inside j right) there).1.le

/-- The last share counts the last set that is told of, and all before it. -/
theorem getLast?_shares : (shares (indices.flatMap (ofSet tasks sets))).getLast? =
    indices.getLast?.map fun index => ((index + 1 : Nat) / sets : ℚ) := by
  rcases List.eq_nil_or_concat indices with rfl | ⟨init, last, rfl⟩
  · rfl
  · rw [List.concat_eq_append, shares_flatMap_ofSet, List.flatMap_append, List.flatMap_singleton,
      shares_ofSet, ← List.append_assoc, List.getLast?_concat, List.getLast?_concat]
    rfl

end ProgressNotice

namespace RunSnapshot

open ProgressNotice

def openSets (x : RunSnapshot) (space : SpaceDefinition) : List Nat :=
  SetBook.openAmong x.ledger.sets space.spaceId (List.range space.parameters.length)

variable {x : RunSnapshot} {space : SpaceDefinition} {index : Nat}

theorem mem_openSets : index ∈ x.openSets space ↔
    index < space.parameters.length ∧ x.ledger.sets (space.spaceId, index) ≠ some .completed := by
  simp [openSets, SetBook.openAmong]

theorem openSets_ordered : (x.openSets space).Pairwise (· < ·) := List.pairwise_lt_range.filter _

/-- The last open set is the last of its space if that one is open. -/
theorem last_openSets_iff (last : (x.openSets space).getLast? = some index) :
    index + 1 = space.parameters.length ↔
      x.ledger.sets (space.spaceId, space.parameters.length - 1) ≠ some .completed := by
  obtain ⟨before, all⟩ := List.getLast?_eq_some_iff.1 last
  have ordered : (x.openSets space).Pairwise (· < ·) := openSets_ordered
  obtain ⟨inside, open_⟩ := mem_openSets.1 (all ▸ List.mem_append_right before List.mem_cons_self)
  constructor
  · intro same
    rwa [← same, Nat.add_sub_cancel]
  · intro openLast
    have among : space.parameters.length - 1 ∈ x.openSets space :=
      mem_openSets.2 ⟨Nat.sub_one_lt (Nat.ne_zero_of_lt inside), openLast⟩
    rw [all] at among ordered
    rcases List.mem_append.1 among with earlier | same
    · have less := (List.pairwise_append.1 ordered).2.2 _ earlier index List.mem_cons_self
      omega
    · rw [← List.mem_singleton.1 same]
      omega

/-- If a set is told of, the last share is one exactly if the last set of the space is open. -/
theorem lastShare_eq_one_iff (open_ : index ∈ x.openSets space) (tasks : Nat) :
    (shares ((x.openSets space).flatMap (ofSet tasks space.parameters.length))).getLast? = some 1 ↔
      x.ledger.sets (space.spaceId, space.parameters.length - 1) ≠ some .completed := by
  obtain ⟨last, found⟩ := Option.isSome_iff_exists.1
    (List.getLast?_isSome.2 (List.ne_nil_of_mem open_))
  have sets_ne : (space.parameters.length : ℚ) ≠ 0 :=
    Nat.cast_ne_zero.2 (Nat.ne_zero_of_lt (mem_openSets.1 open_).1)
  rw [← last_openSets_iff found, getLast?_shares, found, Option.map_some,
    Option.some.injEq, div_eq_one_iff_eq sets_ne, Nat.cast_inj]

end RunSnapshot

namespace Conduct

open ProgressNotice

variable {c : Conduct S} {kept : S → Prop}

/-- In a visit that comes to its end the shares that are told of go forward, and they end at one
exactly if the last parameter set of the space is carried out. -/
theorem visit_progress (reliable : c.host.Reliable c.runId kept) {s s' : Session S}
    {x : RunSnapshot} (sees : c.Sees kept s ⟨x, []⟩) {space : SpaceDefinition}
    (ended : c.visit space s = (.ok (), s')) :
    ∃ told : List ProgressEvent, s'.events = s.events ++ told ∧
      (∀ runId done total message, .progress runId done total message ∈ told →
        0 < done ∧ done ≤ total) ∧
      let notices := told.filterMap ProgressEvent.progress?
      notices = (x.openSets space).flatMap
        (ofSet space.tasksOrder.length space.parameters.length) ∧
      (shares notices).Pairwise (· ≤ ·) ∧ (∀ q ∈ shares notices, 0 < q ∧ q ≤ 1) ∧
      (shares notices).getLast? = (x.openSets space).getLast?.map
        (fun index => ((index + 1 : Nat) / space.parameters.length : ℚ)) ∧
      ((∃ index, .entered index ∈ notices) → ((shares notices).getLast? = some 1 ↔
        x.ledger.sets (space.spaceId, space.parameters.length - 1) ≠ some .completed)) := by
  obtain ⟨told, -, grown, -, same⟩ := counts_visit reliable space s x () s' sees rfl ended
  have same : _ = (x.openSets space).flatMap _ := same
  have inside (index : Nat) (mem : index ∈ x.openSets space) : index < space.parameters.length :=
    (RunSnapshot.mem_openSets.1 mem).1
  have proper {done total : Nat} (mem : .reached done total ∈
      told.filterMap ProgressEvent.progress?) : 0 < done ∧ done ≤ total := by
    rw [same] at mem
    obtain ⟨index, open_, mem⟩ := List.mem_flatMap.1 mem
    exact proper_of_mem_ofSet (inside index open_) mem
  refine ⟨told, grown, fun runId done total message mem => ?_, same, ?_, fun q mem => ?_, ?_, ?_⟩
  · exact proper (List.mem_filterMap.2 ⟨_, mem, rfl⟩)
  · rw [same]
    exact pairwise_shares RunSnapshot.openSets_ordered inside
  · obtain ⟨done, total, told_, rfl⟩ := mem_shares.1 mem
    obtain ⟨some_, most⟩ := proper told_
    have total_pos : (0 : ℚ) < total := Nat.cast_pos.2 (some_.trans_le most)
    exact ⟨div_pos (Nat.cast_pos.2 some_) total_pos,
      (div_le_one₀ total_pos).2 (Nat.cast_le.2 most)⟩
  · rw [same]
    exact getLast?_shares
  · rintro ⟨entered, mem⟩
    rw [same] at mem ⊢
    obtain ⟨index, open_, -⟩ := List.mem_flatMap.1 mem
    exact RunSnapshot.lastShare_eq_one_iff open_ _

def uniform (sets : Nat) : SpaceDefinition :=
  { spaceId := "s", tasksOrder := ["W:t"], parameters := List.replicate sets ∅ }

def onlyDone (index : Nat) : RunSnapshot where
  run :=
    { runId := "r"
      experiment := "e"
      version := artifactVersion
      artifactHash := "h"
      startedAt := ⟨0, 0⟩
      updatedAt := ⟨0, 0⟩ }
  sets := [⟨"s", index, ∅, .completed, ⟨0, 0⟩, some ⟨0, 0⟩⟩]

def afterOnly (index : Nat) : Session (Table RunSnapshot) :=
  { onEmptyTable with store := Table.insert ∅ "r" (onlyDone index) }

/-- A set in the middle that is skipped is made up for by the sets after it. -/
theorem visit_progress_middle :
    twoSets.Sees (fun _ => True) (afterOnly 1) ⟨onlyDone 1, []⟩ ∧
      ∃ s', twoSets.visit (uniform 3) (afterOnly 1) = (.ok (), s') ∧
        s'.events.filterMap ProgressEvent.progress? =
          [.entered 0, .reached 1 3, .reached 1 3, .entered 2, .reached 3 3, .reached 3 3] ∧
        (shares (s'.events.filterMap ProgressEvent.progress?)).Pairwise (· ≤ ·) ∧
        (shares (s'.events.filterMap ProgressEvent.progress?)).getLast? = some 1 := by
  have sees : twoSets.Sees (fun _ => True) (afterOnly 1) ⟨onlyDone 1, []⟩ := ⟨trivial, rfl, rfl⟩
  have succeeds : (twoSets.visit (uniform 3) (afterOnly 1)).1 = .ok () := by decide +kernel
  rcases ended : twoSets.visit (uniform 3) (afterOnly 1) with ⟨r, s'⟩
  obtain rfl : r = .ok () := by rw [← succeeds, ended]
  obtain ⟨told, grown, -, notices, forward, -, -, last⟩ :=
    visit_progress (Host.inMemory_reliable _ _ _) sees ended
  obtain rfl : s'.events = told := grown
  have open_ : (onlyDone 1).openSets (uniform 3) = [0, 2] := by decide +kernel
  rw [open_] at notices
  refine ⟨sees, s', rfl, notices, forward, (last ⟨0, ?_⟩).2 (by decide +kernel)⟩
  rw [notices]
  exact List.mem_cons_self

/-- A set at the end that is skipped is not told of: the shares stop short of one. -/
theorem visit_stopsShort :
    (twoSets.visit (uniform 2) (afterOnly 1)).1 = .ok () ∧
      (twoSets.visit (uniform 2) (afterOnly 1)).2.events.filterMap ProgressEvent.progress? =
        [.entered 0, .reached 1 2, .reached 1 2] ∧
      (shares ((twoSets.visit (uniform 2) (afterOnly 1)).2.events.filterMap
        ProgressEvent.progress?)).getLast? ≠ some 1 := by
  have ended : (twoSets.visit (uniform 2) (afterOnly 1)).1 = .ok () := by decide +kernel
  have notices : (twoSets.visit (uniform 2) (afterOnly 1)).2.events.filterMap
      ProgressEvent.progress? = [.entered 0, .reached 1 2, .reached 1 2] := by decide +kernel
  refine ⟨ended, notices, ?_⟩
  rw [notices]
  decide +kernel

/-- On an orderly record nothing is skipped after an open set, so that a visit that carries out a
set ends at one. -/
theorem visit_reaches_one (reliable : c.host.Reliable c.runId kept) {s s' : Session S}
    {x : RunSnapshot} (sees : c.Sees kept s ⟨x, []⟩) (orderly : x.ledger.Orderly c.artifact)
    {space : SpaceDefinition} (ended : c.visit space s = (.ok (), s'))
    {index : Nat} (open_ : index ∈ x.openSets space) :
    ∃ told : List ProgressEvent, s'.events = s.events ++ told ∧
      (shares (told.filterMap ProgressEvent.progress?)).getLast? = some 1 := by
  obtain ⟨told, -, grown, -, same⟩ := counts_visit reliable space s x () s' sees rfl ended
  have same : _ = (x.openSets space).flatMap _ := same
  refine ⟨told, grown, ?_⟩
  rw [same, RunSnapshot.lastShare_eq_one_iff open_]
  intro completed
  -- If the last set is completed, so are all before it, and none is open.
  obtain ⟨inside, notCompleted⟩ := RunSnapshot.mem_openSets.1 open_
  have before := (orderly.sets (by rw [completed]; nofun)).2.2
  rcases Nat.lt_or_eq_of_le (Nat.le_sub_one_of_lt inside) with less | rfl
  · exact notCompleted (before index less)
  · exact notCompleted completed

end Conduct

end Sweep
