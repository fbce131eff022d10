import Sweep.Proofs.Repository.Agreement
import Sweep.Proofs.Repository.Representation

/-!
# The value recorded last

A repository keeps the values of a run in the order in which they were recorded: a value that is
recorded anew gives up its place and goes to the end, and the others keep their order. So the values
that a run has are those that were not recorded anew since, in the order of the operations that
recorded them, whatever operations of other kinds there were in between.

The value of a name that is found as the latest is the one with the latest time among these, and of
several with that time the one that was recorded last. As long as the clock does not go back this is
the one that was recorded last of all.
-/

namespace Sweep

/-! ## The order of times -/

namespace Timestamp

variable {a b c : Timestamp}

theorem lt_iff : a.lt b = true ↔
    a.seconds < b.seconds ∨ (a.seconds = b.seconds ∧ a.fraction < b.fraction) := by
  simp [lt]

theorem lt_irrefl (a : Timestamp) : a.lt a = false := by
  rw [← Bool.not_eq_true, lt_iff]
  omega

theorem lt_asymm (h : a.lt b = true) : b.lt a = false := by
  rw [← Bool.not_eq_true, lt_iff]
  rw [lt_iff] at h
  omega

/-- What is no later than a time that is earlier than a third is earlier than that. -/
theorem lt_of_not_lt (h : b.lt a = false) (h' : b.lt c = true) : a.lt c = true := by
  rw [← Bool.not_eq_true, lt_iff] at h
  rw [lt_iff] at h' ⊢
  omega

theorem eq_of_not_lt (h : a.lt b = false) (h' : b.lt a = false) : a = b := by
  rw [← Bool.not_eq_true, lt_iff] at h h'
  obtain ⟨s, f⟩ := a
  obtain ⟨s', f'⟩ := b
  simp only at h h'
  obtain ⟨rfl, rfl⟩ : s = s' ∧ f = f' := by omega
  rfl

end Timestamp

/-! ## What is kept of the values that were put -/

/-- A value that was put is current if none was put for the same name in the same parameter set
since. It is told together with its place among all that were put. -/
structure DataMapping.Current (puts : List DataMapping) (m : DataMapping) (place : Nat) :
    Prop where
  put : puts[place]? = some m
  last : ∀ n ∈ puts.drop (place + 1), ¬(n.spaceId = m.spaceId ∧ n.index = m.index ∧ n.name = m.name)

namespace DataMapping

variable {puts : List DataMapping} {m n : DataMapping} {place : Nat}

theorem sameKey_iff :
    m.sameKey n = true ↔ n.spaceId = m.spaceId ∧ n.index = m.index ∧ n.name = m.name := by
  simp [sameKey, isAbout, and_assoc]

theorem Current.place_lt (h : Current puts m place) : place < puts.length :=
  (List.getElem?_eq_some_iff.1 h.put).1

/-- A value that is put last is current, and of those before it the ones of another key are that
were so. -/
theorem current_concat : Current (puts ++ [n]) m place ↔
    Current puts m place ∧ n.sameKey m = false ∨ m = n ∧ place = puts.length := by
  rw [← Bool.not_eq_true, sameKey_iff]
  constructor
  · rintro ⟨put, last⟩
    have bound := (List.getElem?_eq_some_iff.1 put).1
    rw [List.length_append, List.length_singleton] at bound
    by_cases new : place = puts.length
    · subst new
      rw [List.getElem?_concat_length] at put
      exact .inr ⟨(Option.some.inj put).symm, rfl⟩
    · have before : place < puts.length := by omega
      rw [List.getElem?_append_left before] at put
      rw [List.drop_append_of_le_length before] at last
      refine .inl ⟨⟨put, fun k mem => last k (List.mem_append_left _ mem)⟩, ?_⟩
      rintro ⟨space, index, name⟩
      exact last n (by simp) ⟨space.symm, index.symm, name.symm⟩
  · rintro (⟨h, other⟩ | ⟨rfl, rfl⟩)
    · refine ⟨by rw [List.getElem?_append_left h.place_lt, h.put], fun k mem => ?_⟩
      rw [List.drop_append_of_le_length h.place_lt] at mem
      rcases List.mem_append.1 mem with mem | mem
      · exact h.last k mem
      · rw [List.mem_singleton.1 mem]
        rintro ⟨space, index, name⟩
        exact other ⟨space.symm, index.symm, name.symm⟩
    · exact ⟨List.getElem?_concat_length, by simp⟩

end DataMapping

namespace RunSnapshot

open DataMapping

variable {x : RunSnapshot} {puts ms : List DataMapping} {m : DataMapping} {name : String}

/-- The values of a snapshot are those that are current of some that were put, in the order in which
these were put. -/
def Keeps (x : RunSnapshot) (puts : List DataMapping) : Prop :=
  ∃ current : List (DataMapping × Nat), x.mappings = current.map (·.1) ∧
    current.Pairwise (·.2 < ·.2) ∧ ∀ m place, (m, place) ∈ current ↔ Current puts m place

theorem keeps_ofRun (run : RunRecord) : (ofRun run).Keeps [] := by
  refine ⟨[], rfl, .nil, fun m place => ⟨nofun, fun h => ?_⟩⟩
  cases h.put

theorem Keeps.of_mappings (h : x.Keeps puts) {y : RunSnapshot} (same : y.mappings = x.mappings) :
    y.Keeps puts := by
  rwa [Keeps, same]

/-- A value that is put goes to the end, and the values of other keys stay in their order. -/
theorem Keeps.putMapping (h : x.Keeps puts) (m : DataMapping) :
    (x.putMapping m).Keeps (puts ++ [m]) := by
  obtain ⟨current, mappings, ordered, exact⟩ := h
  refine ⟨(current.filter fun entry => !m.sameKey entry.1) ++ [(m, puts.length)], ?_, ?_, ?_⟩
  · rw [RunSnapshot.putMapping, mappings, List.filter_map, List.map_append]
    rfl
  · rw [List.pairwise_append]
    refine ⟨ordered.filter _, List.pairwise_singleton _ _, ?_⟩
    rintro ⟨n, place⟩ mem _ last
    rw [List.mem_singleton.1 last]
    exact ((exact n place).1 (List.mem_filter.1 mem).1).place_lt
  · intro n place
    rw [List.mem_append, List.mem_filter, exact, List.mem_singleton, Prod.mk.injEq, current_concat,
      Bool.not_eq_true']

theorem foldl_later_eq_none_iff : ms.foldl later none = none ↔ ms = [] := by
  constructor
  · intro none
    rcases List.eq_nil_or_concat' ms with empty | ⟨front, k, rfl⟩
    · exact empty
    · have some := later_ne_none (front.foldl later .none) k
      rw [List.foldl_concat] at none
      rw [none] at some
      cases some
  · rintro rfl
    rfl

/-- The latest of some values: none before it is later, and all behind it are earlier. -/
theorem split_of_foldl_later (latest : ms.foldl later none = some m) :
    ∃ before after, ms = before ++ m :: after ∧
      (∀ n ∈ before, m.recordedAt.lt n.recordedAt = false) ∧
      ∀ n ∈ after, n.recordedAt.lt m.recordedAt = true := by
  induction ms using List.reverseRecOn generalizing m with
  | nil => cases latest
  | append_singleton ms last ih =>
    rw [List.foldl_concat] at latest
    cases found : ms.foldl later none with
    | none =>
      obtain rfl := foldl_later_eq_none_iff.1 found
      cases latest
      exact ⟨[], [], rfl, nofun, nofun⟩
    | some l =>
      obtain ⟨before, after, rfl, earlier, later⟩ := ih found
      rw [found] at latest
      simp only [RunSnapshot.later] at latest
      split at latest
      · next less =>
        cases latest
        refine ⟨before, after ++ [last], by simp, earlier, fun n mem => ?_⟩
        rcases List.mem_append.1 mem with mem | mem
        · exact later n mem
        · exact List.mem_singleton.1 mem ▸ less
      · next notLess =>
        cases latest
        refine ⟨before ++ l :: after, [], rfl, fun n mem => ?_, nofun⟩
        rw [Bool.not_eq_true] at notLess
        have upTo : l.recordedAt.lt n.recordedAt = false := by
          rcases List.mem_append.1 mem with mem | mem
          · exact earlier n mem
          · rcases List.mem_cons.1 mem with rfl | mem
            · exact Timestamp.lt_irrefl _
            · exact Timestamp.lt_asymm (later n mem)
        by_contra less
        rw [Bool.not_eq_false] at less
        rw [Timestamp.lt_of_not_lt notLess less] at upTo
        cases upTo

end RunSnapshot

/-! ## The latest value of a name -/

/-- A value is the latest of a name among some that were put: if none was put for the name there is
none, and otherwise it is the current one of the latest time, at the last place of that time. If the
times of the values of the name never decrease, it is the value that was put for the name last. -/
structure DataMapping.IsLatest (puts : List DataMapping) (name : String)
    (found : Option DataMapping) : Prop where
  never : found = none ↔ ∀ m ∈ puts, m.name ≠ name
  greatest : ∀ m ∈ found, m.name = name ∧ ∃ place, Current puts m place ∧
    ∀ n other, Current puts n other → n.name = name →
      m.recordedAt.lt n.recordedAt = false ∧ (n.recordedAt = m.recordedAt → other ≤ place)
  steady : (puts.filter (·.name = name)).Pairwise
      (fun m n => n.recordedAt.lt m.recordedAt = false) →
    found = (puts.filter (·.name = name)).getLast?

namespace RunSnapshot

open DataMapping

variable {x : RunSnapshot} {puts : List DataMapping} {m : DataMapping} {name : String}

/-- What is found as latest is the current value of the latest time, and the last of these. -/
theorem Keeps.greatest (h : x.Keeps puts) (found : x.latestMapping? name = some m) :
    m.name = name ∧ ∃ place, Current puts m place ∧
      ∀ n other, Current puts n other → n.name = name →
        m.recordedAt.lt n.recordedAt = false ∧ (n.recordedAt = m.recordedAt → other ≤ place) := by
  obtain ⟨current, mappings, ordered, exact⟩ := h
  rw [latestMapping?, mappings, List.filter_map] at found
  obtain ⟨before, after, split, noLater, earlier⟩ := split_of_foldl_later found
  obtain ⟨front, rest, named, rfl, shape⟩ := List.map_eq_append_iff.1 split
  obtain ⟨⟨k, place⟩, back, rfl, (rfl : k = m), rfl⟩ := List.map_eq_cons_iff.1 shape
  have among (n : DataMapping) (other : Nat) : (n, other) ∈ front ++ (k, place) :: back ↔
      Current puts n other ∧ n.name = name := by
    rw [← named, List.mem_filter, exact]
    exact and_congr_right fun _ => beq_iff_eq
  have inOrder : (front ++ (k, place) :: back).Pairwise (·.2 < ·.2) := named ▸ ordered.filter _
  obtain ⟨here, its⟩ := (among k place).1 (by simp)
  refine ⟨its, place, here, fun n other current named => ?_⟩
  rcases List.mem_append.1 ((among n other).2 ⟨current, named⟩) with mem | mem
  · have lower : other < place :=
      (List.pairwise_append.1 inOrder).2.2 _ mem _ List.mem_cons_self
    exact ⟨noLater n (List.mem_map_of_mem mem), fun _ => Nat.le_of_lt lower⟩
  · rcases List.mem_cons.1 mem with same | mem
    · cases same
      exact ⟨Timestamp.lt_irrefl _, fun _ => Nat.le_refl _⟩
    · have less := earlier n (List.mem_map_of_mem mem)
      refine ⟨Timestamp.lt_asymm less, fun same => ?_⟩
      rw [same, Timestamp.lt_irrefl] at less
      cases less

/-- Where the last value of a name was put. -/
theorem exists_last {front : List DataMapping}
    (named : puts.filter (fun n => n.name = name) = front ++ [m]) : ∃ before after,
      puts = before ++ m :: after ∧ before.filter (fun n => n.name = name) = front ∧
        m.name = name ∧ ∀ n ∈ after, n.name ≠ name := by
  obtain ⟨left, right, rfl, first, last⟩ := List.filter_eq_append_iff.1 named
  obtain ⟨between, after, rfl, without, here, none⟩ := List.filter_eq_cons_iff.1 last
  refine ⟨left ++ between, after, (List.append_assoc ..).symm, ?_, of_decide_eq_true here, ?_⟩
  · rw [List.filter_append, first, List.filter_eq_nil_iff.2 without, List.append_nil]
  · simpa using List.filter_eq_nil_iff.1 none

/-- What was put last for a name is current. -/
theorem current_of_last {before after : List DataMapping} (others : ∀ n ∈ after, n.name ≠ m.name) :
    Current (before ++ m :: after) m before.length where
  put := by simp
  last n mem := by
    have rest : (before ++ m :: after).drop (before.length + 1) = after := by
      simp [List.drop_append]
    rw [rest] at mem
    exact fun same => others n mem same.2.2

/-- There is a latest value of a name as soon as one was put for it. -/
theorem Keeps.latestMapping?_eq_none_iff (h : x.Keeps puts) :
    x.latestMapping? name = none ↔ ∀ m ∈ puts, m.name ≠ name := by
  obtain ⟨current, mappings, -, exact⟩ := h
  rw [latestMapping?, foldl_later_eq_none_iff, List.filter_eq_nil_iff, mappings]
  constructor
  · intro none m mem named
    rcases List.eq_nil_or_concat' (puts.filter fun n => n.name = name) with empty | ⟨front, k, last⟩
    · exact List.filter_eq_nil_iff.1 empty m mem (by simpa using named)
    · obtain ⟨before, after, rfl, -, rfl, others⟩ := exists_last last
      have there := (exact k _).2 (current_of_last others)
      exact none k (List.mem_map_of_mem there) (beq_self_eq_true _)
  · intro none m mem
    obtain ⟨⟨k, place⟩, there, rfl⟩ := List.mem_map.1 mem
    have put := List.mem_of_getElem? ((exact k place).1 there).put
    simpa using none k put

/-- While times do not decrease, the latest value of a name is the one that was put last. -/
theorem Keeps.eq_getLast? (h : x.Keeps puts)
    (steady : (puts.filter (·.name = name)).Pairwise fun m n =>
      n.recordedAt.lt m.recordedAt = false) :
    x.latestMapping? name = (puts.filter (·.name = name)).getLast? := by
  rcases List.eq_nil_or_concat' (puts.filter fun n => n.name = name) with empty | ⟨front, k, last⟩
  · rw [empty, List.getLast?_nil, h.latestMapping?_eq_none_iff]
    simpa using List.filter_eq_nil_iff.1 empty
  · rw [last] at steady
    obtain ⟨before, after, rfl, rfl, rfl, others⟩ := exists_last last
    rw [last, List.getLast?_concat]
    cases found : x.latestMapping? k.name with
    | none => exact absurd rfl (h.latestMapping?_eq_none_iff.1 found k (by simp))
    | some m =>
      obtain ⟨named, place, current, greatest⟩ := h.greatest found
      obtain ⟨notLess, atLeast⟩ := greatest k _ (current_of_last others) rfl
      have put := current.put
      rcases Nat.lt_trichotomy place before.length with early | rfl | late
      · -- A value before the last one is no later, so it would have to be at a place behind it.
        rw [List.getElem?_append_left early] at put
        have among : m ∈ before.filter fun n => n.name = k.name := by
          simpa [named] using List.mem_of_getElem? put
        have noLater := (List.pairwise_append.1 steady).2.2 m among k (List.mem_singleton_self k)
        exact absurd (atLeast (Timestamp.eq_of_not_lt noLater notLess)) (Nat.not_le.2 early)
      · simpa using put.symm
      · obtain ⟨n, shape⟩ := Nat.exists_eq_add_of_lt late
        rw [List.getElem?_append_right (Nat.le_of_lt late), shape,
          show before.length + n + 1 - before.length = n + 1 by omega,
          List.getElem?_cons_succ] at put
        exact absurd named (others m (List.mem_of_getElem? put))

/-- What is found as the latest value of a name is the latest of those that were put. -/
theorem Keeps.isLatest (h : x.Keeps puts) (name : String) :
    IsLatest puts name (x.latestMapping? name) :=
  ⟨h.latestMapping?_eq_none_iff, fun _ found => h.greatest found, h.eq_getLast?⟩

end RunSnapshot

/-! ## The values that a history puts -/

namespace Operation

/-- What an operation does to the list of values that were put for a run since it was created, which
there is as long as the run is there. -/
def put (runId : String) : Option (List DataMapping) → Operation → Option (List DataMapping)
  | none, .createRun run => if run.runId = runId then some [] else none
  | some puts, .putMapping other m => some (if other = runId then puts ++ [m] else puts)
  | some puts, .deleteRun other => if other = runId then none else some puts
  | puts, _ => puts

variable {op : Operation} {runId : String} {now : Timestamp} {x y : RunSnapshot}
  {change : Timestamp → RunSnapshot → Except RecordKey RunSnapshot}

theorem put_of_looks (effect : op.effect = .looks) (puts : Option (List DataMapping)) :
    op.put runId puts = puts := by
  cases op <;> cases effect <;> cases puts <;> rfl

/-- A change of a run that is not to put a value leaves the values as they are. -/
theorem put_of_changes (effect : op.effect = .changes runId change) :
    (∃ m, op = .putMapping runId m ∧ ∀ now x, change now x = .ok (x.putMapping m)) ∨
      (∀ other puts, op.put other puts = puts) ∧
        ∀ now x y, change now x = .ok y → y.mappings = x.mappings := by
  cases op with
  | putMapping _ m =>
    cases effect
    exact .inl ⟨m, rfl, fun _ _ => rfl⟩
  | setSpaceStatus =>
    cases effect
    refine .inr ⟨fun _ puts => by cases puts <;> rfl, fun now x y changed => ?_⟩
    obtain ⟨_, -, rfl⟩ := RunSnapshot.exists_of_setSpaceStatus changed
    rfl
  | setSetStatus =>
    cases effect
    refine .inr ⟨fun _ puts => by cases puts <;> rfl, fun now x y changed => ?_⟩
    obtain ⟨_, -, rfl⟩ := RunSnapshot.exists_of_setSetStatus changed
    rfl
  | setTaskStatus =>
    cases effect
    refine .inr ⟨fun _ puts => by cases puts <;> rfl, fun now x y changed => ?_⟩
    obtain ⟨_, -, rfl⟩ := RunSnapshot.exists_of_setTaskStatus changed
    rfl
  | updateRun | setRunStatus | setRunPosition | startSpace | resetSpace | startSet | startTask
  | enter =>
    cases effect
    refine .inr ⟨fun _ puts => by cases puts <;> rfl, fun now x y changed => ?_⟩
    cases changed
    rfl
  | _ => cases effect

/-- A change of another run, or of a run that is not there, puts nothing. -/
theorem put_of_other {changed : String} (effect : op.effect = .changes changed change)
    {puts : Option (List DataMapping)} (other : changed = runId → puts = none) :
    op.put runId puts = puts := by
  rcases put_of_changes effect with ⟨m, rfl, -⟩ | ⟨same, -⟩
  · cases puts with
    | none => rfl
    | some puts =>
      have apart : changed ≠ runId := fun named => nomatch other named
      rw [put, if_neg apart]
  · exact same runId puts

/-- The values that a history puts for a run, if the run is there in the end. -/
def putBy (history : List (Timestamp × Operation)) (runId : String) : Option (List DataMapping) :=
  history.foldl (fun puts entry => entry.2.put runId puts) none

/-- What an operation makes of a snapshot of the run keeps what it puts. -/
theorem exists_put_of_change {puts : List DataMapping} (keeps : x.Keeps puts)
    (effect : op.effect = .changes runId change) (made : change now x = .ok y) :
    ∃ all, op.put runId (some puts) = some all ∧ y.Keeps all := by
  rcases put_of_changes effect with ⟨m, rfl, all⟩ | ⟨same, kept⟩
  · rw [all] at made
    cases made
    rw [put, if_pos rfl]
    exact ⟨_, rfl, keeps.putMapping m⟩
  · exact ⟨puts, same .., keeps.of_mappings (kept now x y made)⟩

end Operation

namespace Backend

variable {runs : Table RunSnapshot} {runId : String} {now : Timestamp}
  {puts : Option (List DataMapping)}

/-- A table has what was put for a run since the run was created. -/
def HoldsPuts (runId : String) (puts : Option (List DataMapping)) (runs : Table RunSnapshot) :
    Prop :=
  match puts with
  | none => runs.get? runId = none
  | some puts => ∃ x, runs.get? runId = some x ∧ x.Keeps puts

theorem HoldsPuts.eq_none (holds : HoldsPuts runId puts runs) (absent : runs.get? runId = none) :
    puts = none := by
  cases puts with
  | none => rfl
  | some =>
    obtain ⟨x, found, -⟩ := holds
    rw [absent] at found
    cases found

theorem HoldsPuts.eq_some (holds : HoldsPuts runId puts runs) {x : RunSnapshot}
    (there : runs.get? runId = some x) : ∃ before, puts = some before ∧ x.Keeps before := by
  cases puts with
  | none =>
    rw [show runs.get? runId = none from holds] at there
    cases there
  | some before =>
    obtain ⟨z, found, keeps⟩ := holds
    cases there.symm.trans found
    exact ⟨before, rfl, keeps⟩

theorem HoldsPuts.of_get? {runs' : Table RunSnapshot} (holds : HoldsPuts runId puts runs)
    (same : runs'.get? runId = runs.get? runId) : HoldsPuts runId puts runs' := by
  cases puts with
  | none => exact same.trans holds
  | some => simpa [HoldsPuts, same] using holds

theorem HoldsPuts.create (holds : HoldsPuts runId puts runs) (run : RunRecord) :
    HoldsPuts runId (Operation.put runId puts (.createRun run))
      ((Operation.Effect.adds run).apply now runs) := by
  rw [Operation.Effect.apply]
  cases puts with
  | none =>
    have absent : runs.get? runId = none := holds
    by_cases named : run.runId = runId
    · subst named
      rw [absent, Option.isSome_none, if_neg (by decide), Operation.put, if_pos rfl]
      exact ⟨.ofRun run, Table.get?_insert_self, RunSnapshot.keeps_ofRun run⟩
    · rw [Operation.put, if_neg named]
      split
      · exact holds
      · exact holds.of_get? (Table.get?_insert_of_ne named)
  | some puts =>
    split
    · exact holds
    · next there =>
      refine holds.of_get? (Table.get?_insert_of_ne ?_)
      rintro rfl
      obtain ⟨x, found, -⟩ := holds
      exact there (by rw [found]; rfl)

theorem HoldsPuts.remove (holds : HoldsPuts runId puts runs) (gone : String) :
    HoldsPuts runId (Operation.put runId puts (.deleteRun gone)) (runs.erase gone) := by
  by_cases named : gone = runId
  · subst named
    have nothing : Operation.put gone puts (.deleteRun gone) = none := by
      cases puts with
      | none => rfl
      | some => exact if_pos rfl
    rw [nothing]
    exact Table.get?_erase_self
  · have same : Operation.put runId puts (.deleteRun gone) = puts := by
      cases puts with
      | none => rfl
      | some => exact if_neg named
    rw [same]
    exact holds.of_get? (Table.get?_erase_of_ne named)

theorem HoldsPuts.change {op : Operation} {changed : String}
    {change : Timestamp → RunSnapshot → Except RecordKey RunSnapshot}
    (holds : HoldsPuts runId puts runs) (files : Files runs)
    (effect : op.effect = .changes changed change) :
    HoldsPuts runId (op.put runId puts)
      ((Operation.Effect.changes changed change).apply now runs) := by
  rw [Operation.Effect.apply]
  cases there : runs.get? changed with
  | none =>
    have same : op.put runId puts = puts :=
      Operation.put_of_other effect fun named => holds.eq_none (named ▸ there)
    rwa [same]
  | some x =>
    have filed := files changed x there
    dsimp only
    cases made : change now x with
    | error =>
      rcases Operation.put_of_changes effect with ⟨m, -, puts⟩ | ⟨same, -⟩
      · rw [puts] at made
        cases made
      · rwa [same]
    | ok y =>
      dsimp only
      rw [(op.filed_of_effect effect filed made).named]
      by_cases named : changed = runId
      · subst named
        obtain ⟨before, rfl, keeps⟩ := holds.eq_some there
        obtain ⟨all, put, keeps'⟩ := Operation.exists_put_of_change keeps effect made
        rw [put]
        exact ⟨_, Table.get?_insert_self, keeps'⟩
      · rw [Operation.put_of_other effect fun same => absurd same named]
        exact holds.of_get? (Table.get?_insert_of_ne named)

/-- One operation puts what it is said to put. -/
theorem HoldsPuts.perform (holds : HoldsPuts runId puts runs) (files : Files runs)
    (op : Operation) : HoldsPuts runId (op.put runId puts) (memory.perform op now runs).2 := by
  rw [memory_perform]
  cases effect : op.effect with
  | looks => rwa [Operation.put_of_looks effect]
  | adds run =>
    obtain rfl : op = .createRun run := by cases op <;> cases effect; rfl
    exact holds.create run
  | removes gone =>
    obtain rfl : op = .deleteRun gone := by cases op <;> cases effect; rfl
    exact holds.remove gone
  | changes changed change => exact holds.change files effect

theorem HoldsPuts.after (holds : HoldsPuts runId puts runs) (files : Files runs)
    (history : List (Timestamp × Operation)) :
    HoldsPuts runId (history.foldl (fun puts entry => entry.2.put runId puts) puts)
      (memory.after history runs) := by
  induction history generalizing puts runs with
  | nil => exact holds
  | cons entry rest ih => exact ih (holds.perform files entry.2) (files.perform entry.2)

/-! ## What is answered -/

/-- The answer about the latest value of a name, of a run for which values were put since it was
created, or which is not there. -/
def AnswersLatest (runId name : String) (puts : Option (List DataMapping))
    (answer : Except RepositoryError Reply) : Prop :=
  match puts with
  | none => answer = .error (.runNotFound runId)
  | some puts => ∃ found, answer = .ok (.mapping found) ∧ DataMapping.IsLatest puts name found

theorem HoldsPuts.answers (holds : HoldsPuts runId puts runs) (name : String) (now : Timestamp) :
    AnswersLatest runId name puts (memory.perform (.latestMapping runId name) now runs).1 := by
  have asked : memory.perform (.latestMapping runId name) now runs =
      (Dialogue.look runId fun x => .mapping (x.latestMapping? name)).hold memory runs :=
    perform_eq_hold _
  rw [asked, Dialogue.hold_look_memory]
  cases puts with
  | none =>
    rw [show runs.get? runId = none from holds]
    rfl
  | some puts =>
    obtain ⟨x, found, keeps⟩ := holds
    rw [found]
    exact ⟨_, rfl, keeps.isLatest name⟩

/-- A repository answers for the latest value of a name, after any history of operations, the
current value of the latest time, and of several of that time the one that was put last; while times
do not decrease, it is the value that was put last of all. In memory this holds for every history,
in an empty directory for every one that the directory can store. -/
theorem latestMapping_answers (history : List (Timestamp × Operation)) (now : Timestamp)
    (runId name : String) :
    AnswersLatest runId name (Operation.putBy history runId)
      (memory.perform (.latestMapping runId name) now (memory.after history ∅)).1 ∧
    ∀ {own : String → Prop} {directory : String} {t : FileTree}, t.list directory = .ok [] →
      Apart own directory → ¬own "" →
      (∀ entry ∈ history ++ [(now, .latestMapping runId name)], Admits own entry.1 entry.2) →
      AnswersLatest runId name (Operation.putBy history runId)
        ((Backend.directory directory).perform (.latestMapping runId name) now
          ((Backend.directory directory).after history t)).1 := by
  have nothing : HoldsPuts runId none ∅ := rfl
  have answered := (nothing.after files_empty history).answers name now
  refine ⟨answered, fun {own directory t} empty apart nameless admits => ?_⟩
  obtain ⟨way, stored⟩ : ∃ way, Stored own directory way t ∅ := stored_empty empty
  have nonempty (runId : String) (named : own runId) : fileStem runId ≠ "" := by
    rw [ne_eq, fileStem_eq_empty]
    rintro rfl
    exact nameless named
  have same := stored.replies_agree apart nonempty admits
  rw [replies_concat, replies_concat] at same
  rw [← List.concat_eq_append, ← List.concat_eq_append, List.concat_inj] at same
  rw [same.2]
  exact answered

/-- A value of a name in one of two parameter sets. -/
def valueAt (index : Nat) (name value : String) (seconds : Int) : DataMapping :=
  { spaceId := "S", index, name, value, recordedAt := ⟨seconds, 0⟩ }

/-- A run in which a value is recorded anew at the time at which another one was, and the clock goes
back for a second name. -/
def rewritten : List (Timestamp × Operation) :=
  [.createRun (bareRun "r"), .putMapping "r" (valueAt 0 "x" "1" 5),
    .putMapping "r" (valueAt 1 "x" "2" 7), .putMapping "r" (valueAt 0 "x" "3" 7),
    .setRunStatus "r" .running none, .putMapping "r" (valueAt 0 "y" "4" 9),
    .putMapping "r" (valueAt 1 "y" "5" 8)].map fun op => (default, op)

/-- The latest value of the first name is the one that was recorded anew, in memory and in a
directory; that of the second name is not the one that was recorded last. -/
theorem latestMapping_answers_rewritten :
    (memory.perform (.latestMapping "r" "x") default (memory.after rewritten ∅)).1 =
        .ok (.mapping (some (valueAt 0 "x" "3" 7))) ∧
      ((Backend.directory "/runs").perform (.latestMapping "r" "x") default
        ((Backend.directory "/runs").after rewritten emptyRuns)).1 =
          .ok (.mapping (some (valueAt 0 "x" "3" 7))) ∧
      ∃ m, (memory.perform (.latestMapping "r" "y") default (memory.after rewritten ∅)).1 =
        .ok (.mapping (some m)) ∧ m ≠ valueAt 1 "y" "5" 8 := by
  have put : Operation.putBy rewritten "r" = some [valueAt 0 "x" "1" 5, valueAt 1 "x" "2" 7,
      valueAt 0 "x" "3" 7, valueAt 0 "y" "4" 9, valueAt 1 "y" "5" 8] := rfl
  have answers {answer : Except RepositoryError Reply}
      (holds : AnswersLatest "r" "x" (Operation.putBy rewritten "r") answer) :
      answer = .ok (.mapping (some (valueAt 0 "x" "3" 7))) := by
    rw [put] at holds
    obtain ⟨found, told, latest⟩ := holds
    rw [told, latest.steady (by decide)]
    rfl
  have apart : Apart (· = "r") "/runs" := .single ⟨by decide, by decide +kernel, by decide +kernel⟩
  have admits : ∀ entry ∈ rewritten ++ [(default, .latestMapping "r" "x")],
      Admits (· = "r") entry.1 entry.2 := by
    have value (index : Nat) (bound : index ≤ 1) (name value : String) {seconds : Int}
        (proper : (⟨seconds, 0⟩ : Timestamp).Proper) :
        Admits (· = "r") default (.putMapping "r" (valueAt index name value seconds)) :=
      ⟨proper_default, ⟨Nat.le_trans bound (by decide), proper⟩,
        fun _ named => (Option.some.inj named).symm⟩
    simp only [rewritten, List.map_cons, List.map_nil, List.cons_append, List.nil_append,
      List.forall_mem_cons]
    exact ⟨⟨proper_default, storable_bareRun "r", fun _ named => (Option.some.inj named).symm⟩,
      value 0 (by decide) _ _ (by decide), value 1 (by decide) _ _ (by decide),
      value 0 (by decide) _ _ (by decide),
      ⟨proper_default, trivial, fun _ named => (Option.some.inj named).symm⟩,
      value 0 (by decide) _ _ (by decide), value 1 (by decide) _ _ (by decide),
      ⟨proper_default, trivial, fun _ named => (Option.some.inj named).symm⟩,
      List.forall_mem_nil _⟩
  obtain ⟨inMemory, inDirectory⟩ := latestMapping_answers rewritten default "r" "x"
  obtain ⟨second, -⟩ := latestMapping_answers rewritten default "r" "y"
  rw [put] at second
  obtain ⟨found, told, latest⟩ := second
  refine ⟨answers inMemory, answers (inDirectory list_emptyRuns apart (by decide) admits), ?_⟩
  cases found with
  | none =>
    have named := latest.never.1 rfl (valueAt 0 "y" "4" 9) (by simp)
    exact absurd rfl named
  | some m =>
    obtain ⟨-, place, -, greatest⟩ := latest.greatest m rfl
    obtain ⟨noLater, -⟩ := greatest (valueAt 0 "y" "4" 9) 3 ⟨rfl, by decide⟩ rfl
    refine ⟨m, told, ?_⟩
    rintro rfl
    cases noLater

end Backend

end Sweep
