import Mathlib.Data.List.Nodup
import Mathlib.Logic.Function.Basic
import Sweep.Run.Snapshot

/-!
# Ledgers

A ledger is what a snapshot answers when it is asked by key: how the run, a space, a parameter set
or a task stands, which value a data name has in a parameter set, and which value of the name was
recorded last. Times and the order of the records are not part of it.

Every change of a snapshot is a change of its ledger at one key, and a change that needs a record
succeeds exactly when the ledger knows the key. Only the value recorded last depends on the clock:
it is the new one if no earlier record carries a later time.

A snapshot holds at most one record for every key: whatever is recorded anew takes the place of the
record of its key, and to set a status changes no key. In such a snapshot a record is found by its
key, so what the ledger says of a key is what the one record of the key says.
-/

namespace Sweep

/-- What is recorded of a run, by key. -/
structure Ledger where
  hash : String
  status : RunStatus
  control : Option String
  spaces : String → Option UnitStatus
  sets : String × Nat → Option UnitStatus
  tasks : String × Nat × String → Option UnitStatus
  values : String × Nat × String → Option String
  /-- The value recorded last for a data name in any space. -/
  latest : String → Option String

namespace Ledger

/-- The ledger of a run of which nothing is recorded yet. -/
def blank (hash : String) : Ledger where
  hash
  status := .running
  control := none
  spaces _ := none
  sets _ := none
  tasks _ := none
  values _ := none
  latest _ := none

variable (l : Ledger)

def setStatus (status : RunStatus) : Ledger := { l with status }

def enter (space : String) : Ledger := { l with control := some space }

def setSpace (space : String) (status : UnitStatus) : Ledger :=
  { l with spaces := Function.update l.spaces space (some status) }

def setSet (space : String) (index : Nat) (status : UnitStatus) : Ledger :=
  { l with sets := Function.update l.sets (space, index) (some status) }

def setTask (space : String) (index : Nat) (task : String) (status : UnitStatus) : Ledger :=
  { l with tasks := Function.update l.tasks (space, index, task) (some status) }

/-- Forgets how a space, its parameter sets and their tasks stand. -/
def reset (space : String) : Ledger :=
  { l with
    spaces := Function.update l.spaces space none
    sets := fun k => if k.1 = space then none else l.sets k
    tasks := fun k => if k.1 = space then none else l.tasks k }

/-- Puts a value; `last` is the value of the name that counts as the latest afterwards. -/
def put (space : String) (index : Nat) (name value last : String) : Ledger :=
  { l with
    values := Function.update l.values (space, index, name) (some value)
    latest := Function.update l.latest name (some last) }

end Ledger

/-! ## Records found by key -/

section Records

variable {α κ β : Type} [DecidableEq κ] {key : α → κ} {about : κ → α → Bool}

/-- A record put in place of those of its key is what the key finds; other keys find what they
found before. -/
theorem find?_replace (isAbout : ∀ k x, about k x = true ↔ key x = k) (g : α → β) (xs : List α)
    (x : α) (k : κ) :
    (((xs.filter fun y => !about (key x) y) ++ [x]).find? (about k)).map g =
      Function.update (fun k => (xs.find? (about k)).map g) (key x) (some (g x)) k := by
  by_cases h : k = key x
  · subst h
    have none : (xs.filter fun y => !about (key x) y).find? (about (key x)) = none := by
      rw [List.find?_eq_none]
      intro y mem
      simpa using (List.mem_filter.1 mem).2
    rw [Function.update_self, List.find?_append, none]
    simp [(isAbout _ x).2 rfl]
  · have same : (xs.filter fun y => !about (key x) y).find? (about k) = xs.find? (about k) := by
      rw [List.find?_filter]
      congr 1
      funext y
      by_cases hy : key y = k
      · have apart : about (key x) y = false := by
          rw [Bool.eq_false_iff, ne_eq, isAbout, hy]
          exact h
        simp [apart]
      · simp [Bool.eq_false_iff.2 fun t => hy ((isAbout k y).1 t)]
    have missed : about k x = false := by
      rw [Bool.eq_false_iff, ne_eq, isAbout]
      exact Ne.symm h
    rw [Function.update_of_ne h, List.find?_append, same]
    simp [missed]

/-- Dropped records are not found, others are found as before. -/
theorem find?_drop {p q : α → Bool} (xs : List α) :
    (∀ y, q y = true → p y = true) → (xs.filter fun y => !p y).find? q = none := by
  intro all
  rw [List.find?_eq_none]
  intro y mem hit
  simpa [all y hit] using (List.mem_filter.1 mem).2

theorem find?_keep {p q : α → Bool} (xs : List α) :
    (∀ y, q y = true → p y = false) → (xs.filter fun y => !p y).find? q = xs.find? q := by
  intro apart
  rw [List.find?_filter]
  congr 1
  funext y
  cases h : q y
  · simp
  · simp [apart y h]

/-- A change of the first record of a key succeeds if there is one. -/
theorem exists_updateFirst? {p : α → Bool} {f : α → α} {xs : List α}
    (known : (xs.find? p).isSome) : ∃ ys, updateFirst? p f xs = some ys := by
  induction xs with
  | nil => simp at known
  | cons x rest ih =>
    cases h : p x
    · obtain ⟨ys, updated⟩ := ih (by simpa [h] using known)
      exact ⟨x :: ys, by simp [updateFirst?, h, updated]⟩
    · exact ⟨f x :: rest, by simp [updateFirst?, h]⟩

/-- A change of the first record of a key shows at that key only. -/
theorem find?_updateFirst? (isAbout : ∀ k x, about k x = true ↔ key x = k) {f : α → α} {k : κ}
    {xs ys : List α} (updated : updateFirst? (about k) f xs = some ys)
    (kept : ∀ x, key (f x) = key x) {g : α → β} {v : β} (becomes : ∀ x, g (f x) = v) (other : κ) :
    (ys.find? (about other)).map g =
      Function.update (fun k => (xs.find? (about k)).map g) k (some v) other := by
  have aboutKept : ∀ k x, about k (f x) = about k x := by
    intro k x
    rw [Bool.eq_iff_iff, isAbout, isAbout, kept]
  induction xs generalizing ys with
  | nil => simp [updateFirst?] at updated
  | cons x rest ih =>
    cases h : about k x
    · simp only [updateFirst?, h, Bool.false_eq_true, if_false, Option.map_eq_some_iff] at updated
      obtain ⟨zs, inRest, rfl⟩ := updated
      have later := ih inRest
      by_cases same : other = k
      · subst same
        simpa [h] using later
      · cases hit : about other x <;> simp [hit, Function.update_of_ne same] at later ⊢
        exact later
    · simp only [updateFirst?, h, if_true, Option.some.injEq] at updated
      subst updated
      by_cases same : other = k
      · subst same
        simp [aboutKept, h, becomes]
      · have missed : about other x = false := by
          rw [Bool.eq_false_iff, ne_eq, isAbout, (isAbout k x).1 h]
          exact Ne.symm same
        simp [aboutKept, missed, Function.update_of_ne same]

/-- What holds of all records holds of them after a change of the first of a key that keeps it. -/
theorem forall_mem_of_updateFirst? {p : α → Bool} {f : α → α} {P : α → Prop} {xs ys : List α}
    (updated : updateFirst? p f xs = some ys) (kept : ∀ x, P x → P (f x))
    (all : ∀ x ∈ xs, P x) : ∀ y ∈ ys, P y := by
  induction xs generalizing ys with
  | nil => cases updated
  | cons x rest ih =>
    rw [List.forall_mem_cons] at all
    rw [updateFirst?] at updated
    split at updated
    · cases updated
      exact List.forall_mem_cons.2 ⟨kept x all.1, all.2⟩
    · obtain ⟨zs, later, rfl⟩ := Option.map_eq_some_iff.1 updated
      exact List.forall_mem_cons.2 ⟨all.1, ih later all.2⟩

/-- What holds of all records holds of them when one of which it holds is put in place of others. -/
theorem forall_mem_replace {p : α → Bool} {P : α → Prop} {xs : List α} {x : α}
    (all : ∀ y ∈ xs, P y) (new : P x) : ∀ y ∈ xs.filter p ++ [x], P y := by
  rw [List.forall_mem_append]
  exact ⟨fun y mem => all y (List.mem_filter.1 mem).1, List.forall_mem_singleton.2 new⟩

end Records

theorem SpaceRecord.isAbout_iff (space : String) (r : SpaceRecord) :
    r.isAbout space = true ↔ r.spaceId = space := by
  simp [isAbout]

theorem SetRecord.isAbout_iff (k : String × Nat) (r : SetRecord) :
    r.isAbout k.1 k.2 = true ↔ (r.spaceId, r.index) = k := by
  obtain ⟨space, index⟩ := k
  simp [isAbout]

theorem TaskRecord.isAbout_iff (k : String × Nat × String) (r : TaskRecord) :
    r.isAbout k.1 k.2.1 k.2.2 = true ↔ (r.spaceId, r.index, r.taskId) = k := by
  obtain ⟨space, index, task⟩ := k
  simp [isAbout, and_assoc]

theorem DataMapping.isAbout_iff (k : String × Nat × String) (m : DataMapping) :
    m.isAbout k.1 k.2.1 k.2.2 = true ↔ (m.spaceId, m.index, m.name) = k := by
  obtain ⟨space, index, name⟩ := k
  simp [isAbout, and_assoc]

namespace RunSnapshot

/-! ## Records whose status is set -/

section StatusSet

variable {x y : RunSnapshot} {now : Timestamp}

/-- To set the status of a space changes the first record of the space and nothing else. -/
theorem exists_of_setSpaceStatus {space : String} {status : UnitStatus}
    (changed : x.setSpaceStatus now space status = .ok y) :
    ∃ spaces, updateFirst? (·.isAbout space)
        (fun r => { r with status, finishedAt := status.finishAt now }) x.spaces = some spaces ∧
      y = { x with spaces } := by
  rw [setSpaceStatus] at changed
  split at changed
  · next spaces updated =>
    cases changed
    exact ⟨spaces, updated, rfl⟩
  · cases changed

theorem exists_of_setSetStatus {space : String} {index : Nat} {status : UnitStatus}
    (changed : x.setSetStatus now space index status = .ok y) :
    ∃ sets, updateFirst? (·.isAbout space index)
        (fun r => { r with status, finishedAt := status.finishAt now }) x.sets = some sets ∧
      y = { x with sets } := by
  rw [setSetStatus] at changed
  split at changed
  · next sets updated =>
    cases changed
    exact ⟨sets, updated, rfl⟩
  · cases changed

theorem exists_of_setTaskStatus {space : String} {index : Nat} {task : String}
    {status : UnitStatus} {error : Option String}
    (changed : x.setTaskStatus now space index task status error = .ok y) :
    ∃ tasks, updateFirst? (·.isAbout space index task)
        (fun r => { r with status, error, finishedAt := status.finishAt now }) x.tasks =
          some tasks ∧
      y = { x with tasks } := by
  rw [setTaskStatus] at changed
  split at changed
  · next tasks updated =>
    cases changed
    exact ⟨tasks, updated, rfl⟩
  · cases changed

end StatusSet

/-! ## The ledger of a snapshot -/

variable (s : RunSnapshot) (now : Timestamp)

def ledger : Ledger where
  hash := s.run.artifactHash
  status := s.run.status
  control := s.control.map (·.space)
  spaces space := (s.space? space).map (·.status)
  sets k := (s.set? k.1 k.2).map (·.status)
  tasks k := (s.task? k.1 k.2.1 k.2.2).map (·.status)
  values k := (s.mapping? k.1 k.2.1 k.2.2).map (·.value)
  latest name := (s.latestMapping? name).map (·.value)

@[simp] theorem ledger_touch : (s.touch now).ledger = s.ledger := rfl

@[simp] theorem ledger_setStatus (status : RunStatus) (error : Option String) :
    (s.setStatus now status error).ledger = s.ledger.setStatus status := rfl

@[simp] theorem ledger_setPosition (space : Option String) (index : Option Nat)
    (task : Option String) : (s.setPosition space index task).ledger = s.ledger := rfl

@[simp] theorem ledger_enter (space : String) :
    (s.enter now space).ledger = s.ledger.enter space := rfl

/-! ## Spaces, parameter sets and tasks -/

theorem ledger_startSpace (space : String) :
    (s.startSpace now space).ledger = s.ledger.setSpace space .running :=
  congrArg (fun spaces => { s.ledger with spaces }) <| funext <|
    find?_replace SpaceRecord.isAbout_iff (·.status) s.spaces ⟨space, .running, now, none⟩

theorem ledger_startSet (space : String) (index : Nat) (parameters : ParameterSet) :
    (s.startSet now space index parameters).ledger = s.ledger.setSet space index .running :=
  congrArg (fun sets => { s.ledger with sets }) <| funext <|
    find?_replace SetRecord.isAbout_iff (·.status) s.sets
      ⟨space, index, parameters, .running, now, none⟩

theorem ledger_startTask (space : String) (index : Nat) (task : String) :
    (s.startTask now space index task).ledger = s.ledger.setTask space index task .running :=
  congrArg (fun tasks => { s.ledger with tasks }) <| funext <|
    find?_replace TaskRecord.isAbout_iff (·.status) s.tasks
      ⟨space, index, task, .running, now, none, none⟩

theorem ledger_setSpaceStatus {space : String} {status : UnitStatus}
    (known : (s.ledger.spaces space).isSome) :
    ∃ t, s.setSpaceStatus now space status = .ok t ∧ t.run = s.run ∧ t.mappings = s.mappings ∧
      t.ledger = s.ledger.setSpace space status := by
  obtain ⟨spaces, updated⟩ := exists_updateFirst?
    (f := fun r : SpaceRecord => { r with status, finishedAt := status.finishAt now })
    (by simpa [ledger, space?] using known)
  refine ⟨{ s with spaces }, by simp only [setSpaceStatus]; rw [updated], rfl, rfl, ?_⟩
  exact congrArg (fun spaces => { s.ledger with spaces }) <| funext <|
    find?_updateFirst? (g := (·.status)) SpaceRecord.isAbout_iff updated (fun _ => rfl)
      fun _ => rfl

theorem ledger_setSetStatus {space : String} {index : Nat} {status : UnitStatus}
    (known : (s.ledger.sets (space, index)).isSome) :
    ∃ t, s.setSetStatus now space index status = .ok t ∧ t.run = s.run ∧
      t.mappings = s.mappings ∧ t.ledger = s.ledger.setSet space index status := by
  obtain ⟨sets, updated⟩ := exists_updateFirst?
    (f := fun r : SetRecord => { r with status, finishedAt := status.finishAt now })
    (by simpa [ledger, set?] using known)
  refine ⟨{ s with sets }, by simp only [setSetStatus]; rw [updated], rfl, rfl, ?_⟩
  exact congrArg (fun sets => { s.ledger with sets }) <| funext <|
    find?_updateFirst? (k := (space, index)) (g := (·.status)) SetRecord.isAbout_iff updated
      (fun _ => rfl) fun _ => rfl

theorem ledger_setTaskStatus {space : String} {index : Nat} {task : String}
    {status : UnitStatus} {error : Option String}
    (known : (s.ledger.tasks (space, index, task)).isSome) :
    ∃ t, s.setTaskStatus now space index task status error = .ok t ∧ t.run = s.run ∧
      t.mappings = s.mappings ∧ t.ledger = s.ledger.setTask space index task status := by
  obtain ⟨tasks, updated⟩ := exists_updateFirst?
    (f := fun r : TaskRecord => { r with status, error, finishedAt := status.finishAt now })
    (by simpa [ledger, task?] using known)
  refine ⟨{ s with tasks }, by simp only [setTaskStatus]; rw [updated], rfl, rfl, ?_⟩
  exact congrArg (fun tasks => { s.ledger with tasks }) <| funext <|
    find?_updateFirst? (k := (space, index, task)) (g := (·.status)) TaskRecord.isAbout_iff updated
      (fun _ => rfl) fun _ => rfl

theorem ledger_resetSpace (space : String) :
    (s.resetSpace space).ledger = s.ledger.reset space := by
  simp only [ledger, Ledger.reset, Ledger.mk.injEq]
  refine ⟨rfl, rfl, rfl, funext ?_, funext ?_, funext ?_, rfl, rfl⟩
  · intro other
    by_cases h : other = space
    · subst h
      rw [Function.update_self, space?, resetSpace, Option.map_eq_none_iff]
      exact find?_drop s.spaces fun r about => about
    · rw [Function.update_of_ne h, space?, resetSpace]
      refine congrArg _ (find?_keep s.spaces ?_)
      intro r about
      rw [(SpaceRecord.isAbout_iff other r).1 about]
      simpa using h
  · rintro ⟨other, index⟩
    have about {r : SetRecord} (h : r.isAbout other index = true) : r.spaceId = other :=
      congrArg Prod.fst ((SetRecord.isAbout_iff (other, index) r).1 h)
    split
    · next h =>
      rw [set?, resetSpace, Option.map_eq_none_iff]
      exact find?_drop s.sets fun r hit => by simpa [about hit] using h
    · next h =>
      rw [set?, resetSpace]
      exact congrArg _ (find?_keep s.sets fun r hit => by simpa [about hit] using h)
  · rintro ⟨other, index, task⟩
    have about {r : TaskRecord} (h : r.isAbout other index task = true) : r.spaceId = other :=
      congrArg Prod.fst ((TaskRecord.isAbout_iff (other, index, task) r).1 h)
    split
    · next h =>
      rw [task?, resetSpace, Option.map_eq_none_iff]
      exact find?_drop s.tasks fun r hit => by simpa [about hit] using h
    · next h =>
      rw [task?, resetSpace]
      exact congrArg _ (find?_keep s.tasks fun r hit => by simpa [about hit] using h)

/-! ## Values -/

theorem later_ne_none (latest : Option DataMapping) (m : DataMapping) :
    (later latest m).isSome := by
  cases latest with
  | none => rfl
  | some l =>
    simp only [later]
    split <;> rfl

theorem later_mem {latest : Option DataMapping} {m n : DataMapping}
    (h : later latest m = some n) : latest = some n ∨ n = m := by
  cases latest with
  | none => exact .inr (Option.some.inj h).symm
  | some l =>
    simp only [later] at h
    split at h
    · exact .inl h
    · exact .inr (Option.some.inj h).symm

/-- The latest of some mappings is one of them. -/
theorem foldl_later_mem {ms : List DataMapping} {start : Option DataMapping} {n : DataMapping}
    (h : ms.foldl later start = some n) : start = some n ∨ n ∈ ms := by
  induction ms generalizing start with
  | nil => exact .inl h
  | cons m rest ih =>
    rcases ih h with first | mem
    · rcases later_mem first with old | new
      · exact .inl old
      · exact .inr (new ▸ List.mem_cons_self)
    · exact .inr (List.mem_cons_of_mem _ mem)

/-- The mappings of a name after one was put, if the name is its own. -/
theorem filter_name_putMapping_other {m : DataMapping} {name : String} (h : name ≠ m.name) :
    (s.putMapping m).mappings.filter (fun n => n.name == name) =
      s.mappings.filter fun n => n.name == name := by
  simp only [putMapping, List.filter_append, List.filter_filter]
  have dropped : [m].filter (fun n => n.name == name) = [] := by simp [Ne.symm h]
  rw [dropped, List.append_nil]
  congr 1
  funext n
  by_cases hn : n.name = name
  · simp [DataMapping.sameKey, DataMapping.isAbout, hn, h]
  · simp [hn]

theorem latestMapping?_putMapping_other {m : DataMapping} {name : String} (h : name ≠ m.name) :
    (s.putMapping m).latestMapping? name = s.latestMapping? name := by
  simp only [latestMapping?, filter_name_putMapping_other s h]

/-- After a value was put its name has a latest value: the new one, unless a mapping of a later
time is kept. -/
theorem latestMapping?_putMapping_self (m : DataMapping) :
    ∃ n, (s.putMapping m).latestMapping? m.name = some n ∧
      ((∀ k ∈ s.mappings, m.recordedAt.lt k.recordedAt = false) → n = m) := by
  let before := (s.mappings.filter fun n => !m.sameKey n).filter fun n => n.name == m.name
  have shape : (s.putMapping m).latestMapping? m.name = later (before.foldl later none) m := by
    simp [latestMapping?, putMapping, before, List.filter_append]
  obtain ⟨n, found⟩ := Option.isSome_iff_exists.1 (later_ne_none (before.foldl later none) m)
  refine ⟨n, shape.trans found, ?_⟩
  intro ahead
  cases earlier : before.foldl later none with
  | none =>
    rw [earlier] at found
    exact (Option.some.inj found).symm
  | some l =>
    have mem : l ∈ s.mappings := by
      rcases foldl_later_mem earlier with start | mem
      · cases start
      · exact (List.mem_filter.1 (List.mem_filter.1 mem).1).1
    rw [earlier] at found
    simp only [later, ahead l mem, Bool.false_eq_true, if_false] at found
    exact (Option.some.inj found).symm

theorem ledger_putMapping (m : DataMapping) :
    ∃ last, (s.putMapping m).ledger = s.ledger.put m.spaceId m.index m.name m.value last ∧
      ((∀ k ∈ s.mappings, m.recordedAt.lt k.recordedAt = false) → last = m.value) := by
  obtain ⟨n, found, newest⟩ := s.latestMapping?_putMapping_self m
  refine ⟨n.value, ?_, fun ahead => congrArg _ (newest ahead)⟩
  simp only [ledger, Ledger.put, Ledger.mk.injEq]
  refine ⟨rfl, rfl, rfl, rfl, rfl, rfl, ?_, ?_⟩
  · funext other
    exact find?_replace DataMapping.isAbout_iff (·.value) s.mappings m other
  · funext name
    by_cases h : name = m.name
    · subst h
      simp [found]
    · simp [Function.update_of_ne h, latestMapping?_putMapping_other s h]

end RunSnapshot

/-! ## One record for every key -/

section Keys

variable {α κ : Type} {key : α → κ} {about : κ → α → Bool} {xs ys : List α}

theorem nodup_replace (isAbout : ∀ k x, about k x = true ↔ key x = k) (x : α)
    (distinct : (xs.map key).Nodup) :
    (((xs.filter fun y => !about (key x) y) ++ [x]).map key).Nodup := by
  rw [List.map_append, List.map_singleton, List.nodup_append]
  refine ⟨(List.filter_sublist.map key).nodup distinct, List.nodup_singleton _, ?_⟩
  rintro k among _ last rfl
  obtain ⟨y, mem, rfl⟩ := List.mem_map.1 among
  have kept := (List.mem_filter.1 mem).2
  rw [(isAbout _ y).2 (List.mem_singleton.1 last)] at kept
  cases kept

theorem map_updateFirst? {p : α → Bool} {f : α → α} (updated : updateFirst? p f xs = some ys)
    (kept : ∀ x, key (f x) = key x) : ys.map key = xs.map key := by
  induction xs generalizing ys with
  | nil => cases updated
  | cons x rest ih =>
    rw [updateFirst?] at updated
    split at updated
    · cases updated
      simp [kept]
    · obtain ⟨zs, later, rfl⟩ := Option.map_eq_some_iff.1 updated
      simp [ih later]

/-- Among records of distinct keys a record is the one that its key finds. -/
theorem find?_of_mem (isAbout : ∀ k x, about k x = true ↔ key x = k)
    (distinct : (xs.map key).Nodup) {x : α} (mem : x ∈ xs) :
    xs.find? (about (key x)) = some x := by
  induction xs with
  | nil => cases mem
  | cons y rest ih =>
    rw [List.map_cons, List.nodup_cons] at distinct
    by_cases same : y = x
    · rw [same, List.find?_cons, (isAbout _ x).2 rfl]
    · have later : x ∈ rest := (List.mem_cons.1 mem).resolve_left (Ne.symm same)
      have missed : about (key x) y = false := by
        rw [Bool.eq_false_iff, ne_eq, isAbout]
        intro alike
        exact distinct.1 (alike ▸ List.mem_map_of_mem later)
      rw [List.find?_cons, missed]
      exact ih distinct.2 later

end Keys

/-- A snapshot that holds at most one record for every key. -/
structure RunSnapshot.Keyed (x : RunSnapshot) : Prop where
  spaces : (x.spaces.map (·.spaceId)).Nodup
  sets : (x.sets.map fun r => (r.spaceId, r.index)).Nodup
  tasks : (x.tasks.map fun r => (r.spaceId, r.index, r.taskId)).Nodup
  mappings : (x.mappings.map fun m => (m.spaceId, m.index, m.name)).Nodup

namespace RunSnapshot.Keyed

variable {x y : RunSnapshot} {now : Timestamp}

theorem touch (h : x.Keyed) : (x.touch now).Keyed := ⟨h.spaces, h.sets, h.tasks, h.mappings⟩

theorem setStatus (h : x.Keyed) (status : RunStatus) (error : Option String) :
    (x.setStatus now status error).Keyed :=
  ⟨h.spaces, h.sets, h.tasks, h.mappings⟩

theorem setPosition (h : x.Keyed) (space : Option String) (index : Option Nat)
    (task : Option String) : (x.setPosition space index task).Keyed :=
  ⟨h.spaces, h.sets, h.tasks, h.mappings⟩

theorem enter (h : x.Keyed) (space : String) : (x.enter now space).Keyed :=
  ⟨h.spaces, h.sets, h.tasks, h.mappings⟩

theorem startSpace (h : x.Keyed) (space : String) : (x.startSpace now space).Keyed :=
  { h with spaces := nodup_replace SpaceRecord.isAbout_iff ⟨space, .running, now, none⟩ h.spaces }

theorem startSet (h : x.Keyed) (space : String) (index : Nat) (parameters : ParameterSet) :
    (x.startSet now space index parameters).Keyed :=
  { h with
    sets := nodup_replace SetRecord.isAbout_iff ⟨space, index, parameters, .running, now, none⟩
      h.sets }

theorem startTask (h : x.Keyed) (space : String) (index : Nat) (task : String) :
    (x.startTask now space index task).Keyed :=
  ⟨h.spaces, h.sets,
    nodup_replace TaskRecord.isAbout_iff ⟨space, index, task, .running, now, none, none⟩ h.tasks,
    h.mappings⟩

theorem putMapping (h : x.Keyed) (m : DataMapping) : (x.putMapping m).Keyed :=
  { h with mappings := nodup_replace DataMapping.isAbout_iff m h.mappings }

theorem setSpaceStatus (h : x.Keyed) {space : String} {status : UnitStatus}
    (changed : x.setSpaceStatus now space status = .ok y) : y.Keyed := by
  obtain ⟨spaces, updated, rfl⟩ := exists_of_setSpaceStatus changed
  have same : spaces.map (·.spaceId) = x.spaces.map (·.spaceId) :=
    map_updateFirst? updated fun _ => rfl
  exact { h with spaces := same ▸ h.spaces }

theorem setSetStatus (h : x.Keyed) {space : String} {index : Nat} {status : UnitStatus}
    (changed : x.setSetStatus now space index status = .ok y) : y.Keyed := by
  obtain ⟨sets, updated, rfl⟩ := exists_of_setSetStatus changed
  have same : (sets.map fun r => (r.spaceId, r.index)) =
      x.sets.map fun r => (r.spaceId, r.index) := map_updateFirst? updated fun _ => rfl
  exact { h with sets := same ▸ h.sets }

theorem setTaskStatus (h : x.Keyed) {space : String} {index : Nat} {task : String}
    {status : UnitStatus} {error : Option String}
    (changed : x.setTaskStatus now space index task status error = .ok y) : y.Keyed := by
  obtain ⟨tasks, updated, rfl⟩ := exists_of_setTaskStatus changed
  have same : (tasks.map fun r => (r.spaceId, r.index, r.taskId)) =
      x.tasks.map fun r => (r.spaceId, r.index, r.taskId) :=
    map_updateFirst? updated fun _ => rfl
  exact { h with tasks := same ▸ h.tasks }

theorem resetSpace (h : x.Keyed) (space : String) : (x.resetSpace space).Keyed :=
  { h with
    spaces := (List.filter_sublist.map _).nodup h.spaces
    sets := (List.filter_sublist.map _).nodup h.sets
    tasks := (List.filter_sublist.map _).nodup h.tasks }

/-! ## Records and the ledger -/

theorem space_eq (h : x.Keyed) {r : SpaceRecord} (mem : r ∈ x.spaces) :
    x.ledger.spaces r.spaceId = some r.status :=
  congrArg (Option.map SpaceRecord.status) (find?_of_mem SpaceRecord.isAbout_iff h.spaces mem)

theorem set_eq (h : x.Keyed) {r : SetRecord} (mem : r ∈ x.sets) :
    x.ledger.sets (r.spaceId, r.index) = some r.status :=
  congrArg (Option.map SetRecord.status) (find?_of_mem SetRecord.isAbout_iff h.sets mem)

theorem task_eq (h : x.Keyed) {r : TaskRecord} (mem : r ∈ x.tasks) :
    x.ledger.tasks (r.spaceId, r.index, r.taskId) = some r.status :=
  congrArg (Option.map TaskRecord.status) (find?_of_mem TaskRecord.isAbout_iff h.tasks mem)

end RunSnapshot.Keyed

namespace RunSnapshot

variable {x : RunSnapshot}

/-- What the ledger says of a set is said by a record. -/
theorem exists_set {space : String} {index : Nat} {status : UnitStatus}
    (known : x.ledger.sets (space, index) = some status) :
    ∃ r ∈ x.sets, r.spaceId = space ∧ r.index = index ∧ r.status = status := by
  obtain ⟨r, found, same⟩ := Option.map_eq_some_iff.1 known
  have about := (SetRecord.isAbout_iff (space, index) r).1 (List.find?_some found)
  exact ⟨r, List.mem_of_find?_eq_some found, congrArg Prod.fst about, congrArg Prod.snd about, same⟩

/-- A run of which the ledger is blank has no records. -/
theorem keyed_of_blank {hash : String} (blank : x.ledger = .blank hash) : x.Keyed := by
  have spaces : x.spaces = [] := List.eq_nil_iff_forall_not_mem.2 fun r mem => by
    have none : x.ledger.spaces r.spaceId = none := by rw [blank]; rfl
    exact List.find?_eq_none.1 (Option.map_eq_none_iff.1 none) r mem
      ((SpaceRecord.isAbout_iff _ r).2 rfl)
  have sets : x.sets = [] := List.eq_nil_iff_forall_not_mem.2 fun r mem => by
    have none : x.ledger.sets (r.spaceId, r.index) = none := by rw [blank]; rfl
    exact List.find?_eq_none.1 (Option.map_eq_none_iff.1 none) r mem
      ((SetRecord.isAbout_iff (r.spaceId, r.index) r).2 rfl)
  have tasks : x.tasks = [] := List.eq_nil_iff_forall_not_mem.2 fun r mem => by
    have none : x.ledger.tasks (r.spaceId, r.index, r.taskId) = none := by rw [blank]; rfl
    exact List.find?_eq_none.1 (Option.map_eq_none_iff.1 none) r mem
      ((TaskRecord.isAbout_iff (r.spaceId, r.index, r.taskId) r).2 rfl)
  have mappings : x.mappings = [] := List.eq_nil_iff_forall_not_mem.2 fun m mem => by
    have none : x.ledger.values (m.spaceId, m.index, m.name) = none := by rw [blank]; rfl
    exact List.find?_eq_none.1 (Option.map_eq_none_iff.1 none) m mem
      ((DataMapping.isAbout_iff (m.spaceId, m.index, m.name) m).2 rfl)
  constructor <;> simp [spaces, sets, tasks, mappings]

end RunSnapshot

end Sweep
