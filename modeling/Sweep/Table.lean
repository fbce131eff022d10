/-!
# Finite maps in key order

`Table α` maps strings to values of `α` and lists its entries in increasing order of the keys.
Parameter sets, input data, results and settings are tables: two tables are equal exactly when
they answer every look-up alike, and what is printed from one does not depend on how it was built.
-/

namespace Sweep

/-- A finite map from strings, held as a list of entries with increasing keys. -/
structure Table (α : Type u) where
  entries : List (String × α)
  sorted : entries.Pairwise fun a b => a.1 < b.1

namespace Table

variable {α : Type u} {β : Type v}

@[ext] theorem ext_entries {s t : Table α} (h : s.entries = t.entries) : s = t := by
  cases s
  cases t
  simp_all

instance [DecidableEq α] : DecidableEq (Table α) := fun s t =>
  if h : s.entries = t.entries then .isTrue (ext_entries h)
  else .isFalse fun e => h (e ▸ rfl)

/-- The map without entries. -/
def empty : Table α := ⟨[], .nil⟩

instance : EmptyCollection (Table α) := ⟨empty⟩

instance : Inhabited (Table α) := ⟨empty⟩

/-- Puts an entry at its place in a list with increasing keys, over one of the same key. -/
def insertEntry (key : String) (value : α) : List (String × α) → List (String × α)
  | [] => [(key, value)]
  | (k, v) :: rest =>
    if key < k then (key, value) :: (k, v) :: rest
    else if k < key then (k, v) :: insertEntry key value rest
    else (key, value) :: rest

theorem mem_insertEntry {key : String} {value : α} {entries : List (String × α)}
    {entry : String × α} (h : entry ∈ insertEntry key value entries) :
    entry = (key, value) ∨ entry ∈ entries := by
  induction entries with
  | nil => simpa [insertEntry] using h
  | cons head rest ih =>
    obtain ⟨k, v⟩ := head
    simp only [insertEntry] at h
    split at h
    · simpa using h
    · split at h
      · rcases List.mem_cons.1 h with h | h
        · simp [h]
        · rcases ih h with h | h <;> simp [h]
      · rcases List.mem_cons.1 h with h | h <;> simp [h]

theorem pairwise_insertEntry {key : String} {value : α} {entries : List (String × α)}
    (h : entries.Pairwise fun a b => a.1 < b.1) :
    (insertEntry key value entries).Pairwise fun a b => a.1 < b.1 := by
  induction entries with
  | nil => simp [insertEntry]
  | cons head rest ih =>
    obtain ⟨k, v⟩ := head
    obtain ⟨first, tail⟩ := List.pairwise_cons.1 h
    simp only [insertEntry]
    split
    · next lt =>
      refine List.pairwise_cons.2 ⟨?_, h⟩
      intro entry mem
      rcases List.mem_cons.1 mem with rfl | mem
      · exact lt
      · exact String.lt_trans lt (first entry mem)
    · next notLt =>
      split
      · next lt =>
        refine List.pairwise_cons.2 ⟨?_, ih tail⟩
        intro entry mem
        rcases mem_insertEntry mem with rfl | mem
        · exact lt
        · exact first entry mem
      · next notGt =>
        have same : key = k :=
          String.le_antisymm (String.not_lt.1 notGt) (String.not_lt.1 notLt)
        exact List.pairwise_cons.2 ⟨fun entry mem => same ▸ first entry mem, tail⟩

/-- The map with `key` bound to `value`. -/
def insert (t : Table α) (key : String) (value : α) : Table α :=
  ⟨insertEntry key value t.entries, pairwise_insertEntry t.sorted⟩

/-- The value bound to a key. -/
def get? (t : Table α) (key : String) : Option α :=
  (t.entries.find? fun entry => entry.1 == key).map (·.2)

/-- Whether a key is bound. -/
def contains (t : Table α) (key : String) : Bool :=
  t.entries.any fun entry => entry.1 == key

/-- The map without a binding of `key`. -/
def erase (t : Table α) (key : String) : Table α :=
  ⟨t.entries.filter fun entry => entry.1 != key, t.sorted.filter _⟩

/-- The map built from a list of entries, in which a later entry of a key replaces an earlier. -/
def ofList (entries : List (String × α)) : Table α :=
  entries.foldl (fun t entry => t.insert entry.1 entry.2) empty

/-- The bound keys, in increasing order. -/
def keys (t : Table α) : List String :=
  t.entries.map (·.1)

/-- The values, in the order of their keys. -/
def values (t : Table α) : List α :=
  t.entries.map (·.2)

/-- The number of bound keys. -/
def size (t : Table α) : Nat :=
  t.entries.length

/-- Whether no key is bound. -/
def isEmpty (t : Table α) : Bool :=
  t.entries.isEmpty

/-- The map with a function applied to every value. -/
def map (f : α → β) (t : Table α) : Table β :=
  ⟨t.entries.map fun entry => (entry.1, f entry.2), t.sorted.map _ fun _ _ h => h⟩

@[simp] theorem get?_empty (key : String) : (empty : Table α).get? key = none := rfl

theorem get?_insert (t : Table α) (key other : String) (value : α) :
    (t.insert key value).get? other = if key = other then some value else t.get? other := by
  obtain ⟨entries, sorted⟩ := t
  simp only [insert, get?]
  clear sorted
  induction entries with
  | nil => by_cases h : key = other <;> simp [insertEntry, h]
  | cons head rest ih =>
    obtain ⟨k, v⟩ := head
    simp only [insertEntry]
    split
    · by_cases h : key = other <;> simp [h, List.find?_cons]
    · next notLt =>
      split
      · next lt =>
        by_cases hk : k = other
        · have : key ≠ other := fun e => String.lt_irrefl key (by
            subst e; subst hk; exact lt)
          simp [hk, this]
        · simpa [hk, List.find?_cons] using ih
      · next notGt =>
        have same : key = k :=
          String.le_antisymm (String.not_lt.1 notGt) (String.not_lt.1 notLt)
        subst same
        by_cases h : key = other <;> simp [h]

end Table

/-- The distinct strings of a list, in increasing order. -/
def sortDistinct (names : List String) : List String :=
  (Table.ofList (names.map fun name => (name, ()))).keys

end Sweep
