import Mathlib.Data.List.Induction
import Mathlib.Data.List.Nodup
import Sweep.Table

/-!
# Keys of tables

A key is bound in a table exactly if it is listed, and a table built from entries binds exactly
their keys. To bind a key, or to drop it, leaves what all other keys are bound to.
-/

namespace Sweep

namespace Table

variable {α : Type}

theorem mem_keys_iff {t : Table α} {key : String} : key ∈ t.keys ↔ (t.get? key).isSome := by
  rw [get?, Option.isSome_map, List.find?_isSome, keys, List.mem_map]
  simp only [beq_iff_eq]

theorem contains_eq (t : Table α) (key : String) : t.contains key = (t.get? key).isSome := by
  rw [Bool.eq_iff_iff, get?, Option.isSome_map, List.find?_isSome, contains, List.any_eq_true]

/-- No key is bound twice. -/
theorem nodup_keys (t : Table α) : t.keys.Nodup := by
  rw [keys, List.nodup_iff_pairwise_ne, List.pairwise_map]
  exact t.sorted.imp String.ne_of_lt

/-- The values of a table that is built from entries are among theirs. -/
theorem mem_of_mem_values_ofList {entries : List (String × α)} {value : α}
    (mem : value ∈ (ofList entries).values) : ∃ key, (key, value) ∈ entries := by
  have built {rest : List (String × α)} {start : Table α} {entry : String × α}
      (mem : entry ∈ (rest.foldl (fun t entry => t.insert entry.1 entry.2) start).entries) :
      entry ∈ rest ∨ entry ∈ start.entries := by
    induction rest generalizing start with
    | nil => exact .inr mem
    | cons first rest ih =>
      rcases ih mem with later | put
      · exact .inl (List.mem_cons_of_mem _ later)
      · rcases mem_insertEntry put with rfl | old
        · exact .inl List.mem_cons_self
        · exact .inr old
  obtain ⟨⟨key, _⟩, among, rfl⟩ := List.mem_map.1 mem
  exact ⟨key, (built among).resolve_right List.not_mem_nil⟩

/-- An entry of a key above all others is put at the end. -/
theorem insertEntry_of_forall_lt {key : String} {value : α} {entries : List (String × α)}
    (above : ∀ entry ∈ entries, entry.1 < key) :
    insertEntry key value entries = entries ++ [(key, value)] := by
  induction entries with
  | nil => rfl
  | cons head rest ih =>
    have less : head.1 < key := above head List.mem_cons_self
    rw [insertEntry, if_neg fun more => String.lt_irrefl _ (String.lt_trans less more), if_pos less,
      ih fun entry mem => above entry (List.mem_cons_of_mem _ mem), List.cons_append]

/-- A table is built from its entries. -/
theorem ofList_entries (t : Table α) : ofList t.entries = t := by
  have built {rest : List (String × α)} {start : Table α}
      (sorted : (start.entries ++ rest).Pairwise fun a b => a.1 < b.1) :
      (rest.foldl (fun t entry => t.insert entry.1 entry.2) start).entries =
        start.entries ++ rest := by
    induction rest generalizing start with
    | nil => rw [List.foldl_nil, List.append_nil]
    | cons entry rest ih =>
      have above : ∀ other ∈ start.entries, other.1 < entry.1 := fun other mem =>
        (List.pairwise_append.1 sorted).2.2 other mem entry List.mem_cons_self
      have put : (start.insert entry.1 entry.2).entries = start.entries ++ [entry] :=
        insertEntry_of_forall_lt above
      rw [List.append_cons] at sorted ⊢
      rw [← put] at sorted ⊢
      exact ih sorted
  exact ext_entries (built t.sorted)

/-- Of several entries of one key the last counts. -/
theorem get?_ofList (entries : List (String × α)) (key : String) :
    (ofList entries).get? key = (entries.reverse.find? fun entry => entry.1 == key).map (·.2) := by
  induction entries using List.reverseRecOn with
  | nil => rfl
  | append_singleton rest entry ih =>
    have last : ofList (rest ++ [entry]) = (ofList rest).insert entry.1 entry.2 := by
      rw [ofList, List.foldl_append]
      rfl
    rw [last, get?_insert, ih, List.reverse_append, List.reverse_singleton, List.singleton_append]
    by_cases same : entry.1 = key
    · simp [same]
    · simp [same]

theorem isSome_get?_ofList {entries : List (String × α)} {key : String} :
    ((ofList entries).get? key).isSome ↔ key ∈ entries.map (·.1) := by
  rw [get?_ofList, Option.isSome_map, List.find?_isSome, List.mem_map]
  simp only [List.mem_reverse, beq_iff_eq]

/-- Of entries of different keys each is found. -/
theorem get?_ofList_eq_some {entries : List (String × α)} (distinct : (entries.map (·.1)).Nodup)
    {key : String} {value : α} :
    (ofList entries).get? key = some value ↔ (key, value) ∈ entries := by
  rw [get?_ofList, Option.map_eq_some_iff]
  constructor
  · rintro ⟨entry, found, rfl⟩
    have same := List.find?_some found
    rw [beq_iff_eq] at same
    rw [← same]
    exact List.mem_reverse.1 (List.mem_of_find?_eq_some found)
  · intro mem
    have bound : (entries.reverse.find? fun entry => entry.1 == key).isSome := by
      rw [List.find?_isSome]
      exact ⟨_, List.mem_reverse.2 mem, beq_self_eq_true key⟩
    obtain ⟨entry, found⟩ := Option.isSome_iff_exists.1 bound
    have same := List.find?_some found
    rw [beq_iff_eq] at same
    have among := List.mem_reverse.1 (List.mem_of_find?_eq_some found)
    obtain rfl := List.inj_on_of_nodup_map distinct among mem same
    exact ⟨_, found, rfl⟩

theorem get?_erase (t : Table α) (key other : String) :
    (t.erase key).get? other = if key = other then none else t.get? other := by
  rw [erase, get?, List.find?_filter]
  split
  · next same =>
    subst same
    rw [List.find?_eq_none.2, Option.map_none]
    intro entry _ both
    simp at both
  · next differ =>
    have alike (entry : String × α) :
        decide ((entry.1 != key) = true ∧ (entry.1 == other) = true) = (entry.1 == other) := by
      by_cases h : entry.1 = other <;> simp [h, Ne.symm differ]
    simp only [alike, get?]

/-! ## One key is bound or dropped -/

section OneKey

variable {t : Table α} {key other : String} {value : α}

@[simp] theorem get?_insert_self : (t.insert key value).get? key = some value := by
  rw [get?_insert, if_pos rfl]

theorem get?_insert_of_ne (apart : key ≠ other) :
    (t.insert key value).get? other = t.get? other := by
  rw [get?_insert, if_neg apart]

@[simp] theorem get?_erase_self : (t.erase key).get? key = none := by
  rw [get?_erase, if_pos rfl]

theorem get?_erase_of_ne (apart : key ≠ other) : (t.erase key).get? other = t.get? other := by
  rw [get?_erase, if_neg apart]

variable {P : String → α → Prop}

/-- What holds of all that is bound holds of it after a key is bound to something of which it
holds. -/
theorem forall_get?_insert (all : ∀ k v, t.get? k = some v → P k v) (new : P key value) :
    ∀ k v, (t.insert key value).get? k = some v → P k v := by
  intro k v found
  rw [get?_insert] at found
  split at found
  · next same =>
    cases found
    exact same ▸ new
  · exact all k v found

theorem forall_get?_erase (all : ∀ k v, t.get? k = some v → P k v) :
    ∀ k v, (t.erase key).get? k = some v → P k v := by
  intro k v found
  rw [get?_erase] at found
  split at found
  · cases found
  · exact all k v found

end OneKey

/-! ## The order of keys -/

/-- Keys are listed in increasing order. -/
theorem pairwise_keys (t : Table α) : t.keys.Pairwise (· ≤ ·) := by
  rw [keys, List.pairwise_map]
  refine t.sorted.imp fun less => String.not_lt.1 fun more => ?_
  exact String.lt_irrefl _ (String.lt_trans less more)

/-- Distinct names in increasing order that are the bound keys are listed as these are. -/
theorem eq_keys_of_mem_iff {t : Table α} {names : List String} (sorted : names.Pairwise (· ≤ ·))
    (nodup : names.Nodup) (same : ∀ name, name ∈ names ↔ name ∈ t.keys) : names = t.keys := by
  exact List.Perm.eq_of_pairwise (fun _ _ _ _ => String.le_antisymm) sorted t.pairwise_keys
    ((List.perm_ext_iff_of_nodup nodup t.nodup_keys).2 same)

/-! ## Look-ups tell tables apart -/

theorem get?_of_mem {t : Table α} {key : String} {value : α} (mem : (key, value) ∈ t.entries) :
    t.get? key = some value := by
  rw [← ofList_entries t]
  exact (get?_ofList_eq_some t.nodup_keys).2 mem

/-- The entries of a table are its keys with what they are bound to. -/
theorem entries_eq (t : Table α) :
    t.entries = t.keys.filterMap fun key => (t.get? key).map fun value => (key, value) := by
  have each : ∀ entry ∈ t.entries,
      ((t.get? entry.1).map fun value => (entry.1, value)) = some entry := by
    intro entry mem
    rw [get?_of_mem mem]
    rfl
  rw [keys, List.filterMap_map]
  exact ((List.filterMap_congr each).trans List.filterMap_some).symm

/-- Two tables that answer every look-up alike are equal. -/
theorem ext_get? {s t : Table α} (same : ∀ key, s.get? key = t.get? key) : s = t := by
  have keys : s.keys = t.keys := by
    refine eq_keys_of_mem_iff s.pairwise_keys s.nodup_keys fun key => ?_
    rw [mem_keys_iff, mem_keys_iff, same]
  apply ext_entries
  rw [entries_eq s, entries_eq t, keys]
  simp only [same]

/-! ## What is taken from keys -/

section Keys

variable {β : Type} {g : String → Option β} {key : String}

/-- A key of which nothing is taken may be added. -/
theorem filterMap_keys_insert (t : Table α) (value : α) (nothing : g key = none) :
    (t.insert key value).keys.filterMap g = t.keys.filterMap g := by
  obtain ⟨entries, sorted⟩ := t
  simp only [keys, insert]
  clear sorted
  induction entries with
  | nil => simp [insertEntry, nothing]
  | cons head rest ih =>
    obtain ⟨k, v⟩ := head
    simp only [insertEntry]
    split
    · simp [nothing]
    · next notLess =>
      split
      · rw [List.map_cons, List.map_cons, List.filterMap_cons, List.filterMap_cons, ih]
      · next notMore =>
        have same : key = k :=
          String.le_antisymm (String.not_lt.1 notMore) (String.not_lt.1 notLess)
        rw [same, List.map_cons, List.map_cons]

theorem filterMap_keys_erase (t : Table α) (nothing : g key = none) :
    (t.erase key).keys.filterMap g = t.keys.filterMap g := by
  obtain ⟨entries, sorted⟩ := t
  simp only [keys, erase]
  clear sorted
  induction entries with
  | nil => rfl
  | cons head rest ih =>
    rw [List.filter_cons]
    split
    · rw [List.map_cons, List.map_cons, List.filterMap_cons, List.filterMap_cons, ih]
    · next gone =>
      have same : head.1 = key := by simpa using gone
      rw [List.map_cons, List.filterMap_cons, same, nothing, ih]

/-- To bind a bound key anew adds no key. -/
theorem keys_insert_of_bound (t : Table α) (value : α) (bound : (t.get? key).isSome) :
    (t.insert key value).keys = t.keys := by
  refine eq_keys_of_mem_iff (pairwise_keys _) (nodup_keys _) fun other => ?_
  rw [mem_keys_iff, mem_keys_iff, get?_insert]
  split
  · next same =>
    subst same
    simp [bound]
  · rfl

end Keys

/-! ## Tables under a function on the values -/

section Map

variable {β : Type} (f : α → β) (t : Table α) (key : String)

@[simp] theorem get?_map : (t.map f).get? key = (t.get? key).map f := by
  rw [get?, get?, map, List.find?_map, Option.map_map, Option.map_map]
  rfl

@[simp] theorem keys_map : (t.map f).keys = t.keys := by
  rw [keys, keys, map, List.map_map]
  rfl

@[simp] theorem contains_map : (t.map f).contains key = t.contains key := by
  rw [contains, contains, map, List.any_map]
  rfl

theorem map_erase : (t.erase key).map f = (t.map f).erase key := by
  apply ext_entries
  simp only [map, erase, List.filter_map]
  rfl

theorem map_insert (value : α) : (t.insert key value).map f = (t.map f).insert key (f value) := by
  apply ext_entries
  obtain ⟨entries, sorted⟩ := t
  simp only [map, insert]
  clear sorted
  induction entries with
  | nil => rfl
  | cons head rest ih =>
    simp only [insertEntry, List.map_cons]
    split
    · rfl
    · split
      · rw [List.map_cons, ih]
      · rfl

end Map

end Table

theorem mem_sortDistinct {names : List String} {name : String} :
    name ∈ sortDistinct names ↔ name ∈ names := by
  rw [sortDistinct, Table.mem_keys_iff, Table.isSome_get?_ofList, List.map_map]
  simp

theorem pairwise_sortDistinct (names : List String) : (sortDistinct names).Pairwise (· < ·) :=
  ((Table.pairwise_keys _).and (Table.nodup_keys _)).imp fun ⟨le, ne⟩ => Std.lt_of_le_of_ne le ne

end Sweep
