import Mathlib.Data.List.Nodup
import Mathlib.Order.Lattice
import Sweep.Number.Binary64
import Sweep.Proofs.Json.Proper
import Sweep.Proofs.Json.Reading
import Sweep.Proofs.Lists
import Sweep.Workflow.Codec

/-!
# Records and lists as documents

A record that lists fields of different known names is read as these fields: what is found under a
name is what was written there, or nothing. A list is read item by item. So a model whose parts are
read as they were written is read as it was written.

Conversely, whatever a reader of records and lists hands on comes from a part of the value that it
reads: it is not nested as deep as the value, and its numbers are among those of the value. So what
is true of the numbers of a value, and a bound on its depth, are true of all that is read from it.
-/

namespace Sweep

open Document (ofJson ofItems ofFields fields? named? knownFields? fieldName? text? json? double?
  list? nullable?)

/-! ## Fields of records -/

namespace Json

/-- The value of the field of a name, if there is one. -/
def lookUp (name : String) (fields : List (String × Json)) : Option Json :=
  (fields.find? fun f => f.1 == name).map (·.2)

variable {name other : String} {value : Json} {optional : Option Json}
  {fields rest : List (String × Json)}

@[simp] theorem lookUp_nil : lookUp name [] = none := rfl

@[simp] theorem lookUp_cons :
    lookUp name ((other, value) :: rest) =
      if other = name then some value else lookUp name rest := by
  rw [lookUp, List.find?_cons]
  by_cases same : other = name
  · simp [same]
  · simp [beq_eq_false_iff_ne.2 same, same, lookUp]

@[simp] theorem lookUp_append :
    lookUp name (fields ++ rest) = (lookUp name fields).or (lookUp name rest) := by
  rw [lookUp, lookUp, lookUp, List.find?_append, Option.map_or]

@[simp] theorem lookUp_optionalField :
    lookUp name (optionalField other optional) = if other = name then optional else none := by
  cases optional <;> simp [optionalField]

@[simp] theorem lookUp_listField {items : List Json} :
    lookUp name (listField other items) =
      if other = name then (if items.isEmpty then none else some (.list items)) else none := by
  cases items <;> simp [listField]

@[simp] theorem lookUp_ite {empty : Prop} [Decidable empty] :
    lookUp name (if empty then [] else [(other, value)]) =
      if other = name then (if empty then none else some value) else none := by
  split <;> simp

/-- A field that may be left out stands where its name does. -/
theorem names_optionalField (name : String) (optional : Option Json) :
    ((optionalField name optional).map (·.1)).Sublist [name] := by
  cases optional with
  | none => exact List.nil_sublist _
  | some => exact List.Sublist.refl _

theorem names_listField (name : String) (items : List Json) :
    ((listField name items).map (·.1)).Sublist [name] := by
  cases items with
  | nil => exact List.nil_sublist _
  | cons => exact List.Sublist.refl _

theorem forall_mem_optionalField {P : String × Json → Prop} :
    (∀ f ∈ optionalField name optional, P f) ↔ ∀ value ∈ optional, P (name, value) := by
  cases optional <;> simp [optionalField]

theorem forall_mem_listField {P : String × Json → Prop} {items : List Json}
    (all : P (name, .list items)) : ∀ f ∈ listField name items, P f := by
  cases items with
  | nil => nofun
  | cons => simpa [listField] using all

end Json

namespace Document

/-! ## Lists -/

theorem ofItems_eq_map (items : List Json) : ofItems items = items.map ofJson := by
  induction items with
  | nil => rfl
  | cons item rest ih => rw [ofItems, ih, List.map_cons]

theorem ofFields_eq_map (fields : List (String × Json)) :
    ofFields fields = fields.map fun f => (.text f.1, ofJson f.2) := by
  induction fields with
  | nil => rfl
  | cons field rest ih => rw [ofFields, ih, List.map_cons]

theorem exists_of_list? {α : Type} {read? : Document → Option α} {d : Document} {xs : List α}
    (h : list? read? d = some xs) : ∀ x ∈ xs, ∃ d, read? d = some x := by
  intro x mem
  rw [list?.eq_def] at h
  split at h
  · obtain ⟨d, -, read⟩ := exists_of_mapM_eq_some h x mem
    exact ⟨d, read⟩
  · obtain ⟨d, -, read⟩ := exists_of_mapM_eq_some h x mem
    exact ⟨d, read⟩
  · cases h
    cases mem
  · cases h

theorem list?_ofItems {α : Type} {encode : α → Json} {read? : Document → Option α} {xs : List α}
    (each : ∀ x ∈ xs, read? (ofJson (encode x)) = some x) :
    list? read? (.list (ofItems (xs.map encode))) = some xs := by
  rw [list?, ofItems_eq_map, List.map_map]
  exact (mapM_map_eq_some (f := id) each).trans (by rw [List.map_id])

theorem list?_single {α : Type} {read? : Document → Option α} {v : Json} {x : α}
    (read : read? (ofJson v) = some x) : list? read? (ofJson (.list [v])) = some [x] := by
  rw [ofJson, list?, ofItems, ofItems, List.mapM_cons, read]
  rfl

theorem list?_ofStrings (names : List String) :
    list? text? (ofJson (.ofStrings names)) = some names :=
  list?_ofItems fun _ _ => rfl

@[simp] theorem text?_text (s : String) : text? (ofJson (.text s)) = some s := by
  rw [ofJson, text?]

/-! ## Records -/

def Fields.ofRecord (fields : List (String × Json)) : Fields :=
  ⟨fields.map fun f => (f.1, ofJson f.2)⟩

theorem knownFields?_ofFields {known : List String} {fields : List (String × Json)}
    {done : List (String × Document)} (knows : ∀ f ∈ fields, f.1 ∈ known)
    (distinct : (fields.map (·.1)).Nodup) (new : ∀ f ∈ fields, ∀ entry ∈ done, entry.1 ≠ f.1) :
    knownFields? known (ofFields fields) done =
      some ⟨done.reverse ++ (Fields.ofRecord fields).entries⟩ := by
  induction fields generalizing done with
  | nil => simp [ofFields, knownFields?, Fields.ofRecord]
  | cons f rest ih =>
    obtain ⟨name, value⟩ := f
    rw [List.map_cons, List.nodup_cons] at distinct
    have here : known.contains name = true := List.contains_iff_mem.2 (knows _ List.mem_cons_self)
    have fresh : (done.any fun entry => entry.1 == name) = false := by
      rw [List.any_eq_false]
      intro entry mem
      simpa using new _ List.mem_cons_self entry mem
    have new' : ∀ f ∈ rest, ∀ entry ∈ (name, ofJson value) :: done, entry.1 ≠ f.1 := by
      intro f mem entry among
      rcases List.mem_cons.1 among with rfl | among
      · rintro rfl
        exact distinct.1 (List.mem_map.2 ⟨f, mem, rfl⟩)
      · exact new f (List.mem_cons_of_mem _ mem) entry among
    have later := ih (fun f mem => knows f (List.mem_cons_of_mem _ mem)) distinct.2 new'
    rw [ofFields, knownFields?, fieldName?]
    simp only [here, fresh, if_true, Bool.false_eq_true, if_false, later]
    simp [Fields.ofRecord]

/-- A record is read as its fields if they are known and stand in the order they are known in. -/
theorem named?_record {known : List String} {fields : List (String × Json)}
    (ordered : (fields.map (·.1)).Sublist known) (distinct : known.Nodup) :
    named? known (ofJson (.record fields)) = some (.ofRecord fields) := by
  have knows : ∀ f ∈ fields, f.1 ∈ known := fun f mem => ordered.subset (List.mem_map_of_mem mem)
  exact knownFields?_ofFields knows (distinct.sublist ordered) nofun

theorem fields?_record {known : List String} {fields : List (String × Json)}
    (ordered : (fields.map (·.1)).Sublist known) (distinct : known.Nodup) :
    fields? known (ofJson (.record fields)) = some (.ofRecord fields) :=
  named?_record ordered distinct

namespace Fields

variable {α : Type} {read? : Document → Option α} {name : String} {fields : List (String × Json)}

theorem get?_ofRecord : (ofRecord fields).get? name = (Json.lookUp name fields).map ofJson := by
  rw [get?, ofRecord, List.find?_map, Option.map_map, Json.lookUp, Option.map_map]
  rfl

theorem required?_ofRecord {value : Json} {x : α} (found : Json.lookUp name fields = some value)
    (read : read? (ofJson value) = some x) : (ofRecord fields).required? name read? = some x := by
  rw [required?, get?_ofRecord, found]
  exact read

theorem withDefault?_ofRecord {value : Json} {default x : α}
    (found : Json.lookUp name fields = some value) (read : read? (ofJson value) = some x) :
    (ofRecord fields).withDefault? name default read? = some x := by
  rw [withDefault?, get?_ofRecord, found]
  exact read

/-- What is written only if it is not the value that stands for what is missing. -/
theorem withDefault?_ofRecord_or {value : Json} {default x : α}
    (found : Json.lookUp name fields = some value ∨ Json.lookUp name fields = none ∧ x = default)
    (read : read? (ofJson value) = some x) :
    (ofRecord fields).withDefault? name default read? = some x := by
  rcases found with found | ⟨missing, rfl⟩
  · exact withDefault?_ofRecord found read
  · rw [withDefault?, get?_ofRecord, missing]
    rfl

/-- What may be absent is read back if it is not written as null. -/
theorem optional?_ofRecord {encode : α → Json} {x : Option α}
    (found : Json.lookUp name fields = x.map encode) (present : ∀ y ∈ x, encode y ≠ .null)
    (read : ∀ y ∈ x, read? (ofJson (encode y)) = some y) :
    (ofRecord fields).optional? name read? = some x := by
  rw [optional?, withDefault?, get?_ofRecord, found]
  cases x with
  | none => rfl
  | some y =>
    have whole := read y rfl
    simp only [Option.map_some]
    cases written : encode y with
    | null => exact absurd written (present y rfl)
    | _ =>
      rw [written] at whole
      simp only [ofJson] at whole ⊢
      simp only [nullable?, whole, Option.map_some]

/-- A list that is written only if it has items is read back. -/
theorem withDefault?_listField {encode : α → Json} {xs : List α}
    (found : Json.lookUp name fields =
      if (xs.map encode).isEmpty then none else some (.list (xs.map encode)))
    (each : ∀ x ∈ xs, read? (ofJson (encode x)) = some x) :
    (ofRecord fields).withDefault? name [] (list? read?) = some xs := by
  have read : list? read? (ofJson (.list (xs.map encode))) = some xs := list?_ofItems each
  refine withDefault?_ofRecord_or ?_ read
  rw [found]
  cases xs with
  | nil => exact .inr ⟨rfl, rfl⟩
  | cons => exact .inl rfl

theorem optional?_text {x : Option String} (found : Json.lookUp name fields = x.map .text) :
    (ofRecord fields).optional? name text? = some x :=
  optional?_ofRecord found (fun _ _ => nofun) fun s _ => text?_text s

/-- What is read from a field that may be missing is what stands for that, or is read from
somewhere. -/
theorem eq_or_exists_of_withDefault? {fields : Fields} {default x : α}
    (h : fields.withDefault? name default read? = some x) :
    x = default ∨ ∃ d, read? d = some x := by
  rw [withDefault?] at h
  split at h
  · exact .inl (Option.some.inj h).symm
  · exact .inr ⟨_, h⟩

theorem exists_of_required? {fields : Fields} {x : α}
    (h : fields.required? name read? = some x) : ∃ d, read? d = some x :=
  (Option.bind_eq_some_iff.1 h).imp fun _ found => found.2

end Fields

end Document

/-! ## Integers as doubles

An integer is rounded to its leading 53 bits, so that an integer of 64 bits becomes a double that is
far below the infinite ones.
-/

namespace Binary64

theorem roundShift_le (n places : Nat) : roundShift n places ≤ n >>> places + 1 := by
  rw [roundShift]
  split
  · next none =>
    rw [none]
    exact Nat.le_succ n
  · dsimp only
    split
    · omega
    · split <;> omega

/-- A number cut to the places below its leading 53 is less than a power of two. -/
theorem shiftRight_lt (n : Nat) : n >>> (n.log2 - 52) < 2 ^ 53 := by
  have below : n < 2 ^ (n.log2 + 1) := Nat.lt_log2_self
  rw [Nat.shiftRight_eq_div_pow, Nat.div_lt_iff_lt_mul (Nat.two_pow_pos _), ← Nat.pow_add]
  exact below.trans_le (Nat.pow_le_pow_right Nat.zero_lt_two (by omega))

/-- Integers of little more than 64 bits are far from too large for a double. -/
theorem isFinite_ofInt {n : Int} (bits : n.natAbs.log2 ≤ 64) : (ofInt n).isFinite = true := by
  have least : (0 : Nat) < infinityMagnitude := by decide
  rw [ofInt, isFinite, decide_eq_true_eq, nearestScaled]
  dsimp only
  split
  · exact least
  · have exponent : ((n.natAbs.log2 : Int) + unitExponent - 52).toNat = n.natAbs.log2 + 1022 := by
      rw [unitExponent]
      omega
    rw [exponent]
    refine (Nat.min_le_right _ _).trans_lt ?_
    have digits : (if (unitExponent : Int) ≤ (n.natAbs.log2 + 1022 : Nat) then
        roundShift n.natAbs (((n.natAbs.log2 + 1022 : Nat) : Int) - unitExponent).toNat
        else n.natAbs <<< ((unitExponent : Int) - (n.natAbs.log2 + 1022 : Nat)).toNat) ≤
          2 ^ 53 := by
      split
      · have places : (((n.natAbs.log2 + 1022 : Nat) : Int) - unitExponent).toNat =
            n.natAbs.log2 - 52 := by
          rw [unitExponent]
          omega
        rw [places]
        exact (roundShift_le _ _).trans (shiftRight_lt _)
      · next small =>
        have below : n.natAbs < 2 ^ (n.natAbs.log2 + 1) := Nat.lt_log2_self
        rw [unitExponent] at small ⊢
        rw [Nat.shiftLeft_eq]
        refine (Nat.mul_le_mul_right _ below.le).trans ?_
        rw [← Nat.pow_add]
        exact Nat.pow_le_pow_right Nat.zero_lt_two (by omega)
    have room : (n.natAbs.log2 + 1022) * binade + 2 ^ 53 < infinityMagnitude := by
      have value : binade = 2 ^ 52 := by decide
      rw [infinityMagnitude, value]
      omega
    exact (Nat.add_le_add_left digits _).trans_lt room

end Binary64

/-! ## Parts of a value -/

/-- A number that a value in a document can have: an integer of 64 bits, or a finite double. -/
def JsonNumber.Fits : JsonNumber → Prop
  | .integer n => -(2 ^ 63) ≤ n ∧ n < 2 ^ 64
  | .double x => x.isFinite = true

namespace Json

/-- A value that is nested to some levels at most and has numbers that a document can have. -/
structure Within (levels : Nat) (v : Json) : Prop where
  shallow : v.depth ≤ levels
  fits : ∀ n ∈ v.numbers, n.Fits

namespace Within

variable {levels : Nat}

theorem item {items : List Json} (h : (list items).Within (levels + 1)) :
    ∀ v ∈ items, v.Within levels := by
  obtain ⟨shallow, fits⟩ := h
  rw [depth, Nat.add_le_add_iff_right] at shallow
  rw [numbers] at fits
  induction items with
  | nil => nofun
  | cons item rest ih =>
    rw [depthItems, Nat.max_le] at shallow
    rw [numbersItems, List.forall_mem_append] at fits
    exact List.forall_mem_cons.2 ⟨⟨shallow.1, fits.1⟩, ih shallow.2 fits.2⟩

theorem field {fields : List (String × Json)} (h : (record fields).Within (levels + 1)) :
    ∀ f ∈ fields, f.2.Within levels := by
  obtain ⟨shallow, fits⟩ := h
  rw [depth, Nat.add_le_add_iff_right] at shallow
  rw [numbers] at fits
  induction fields with
  | nil => nofun
  | cons field rest ih =>
    rw [depthFields, Nat.max_le] at shallow
    rw [numbersFields, List.forall_mem_append] at fits
    exact List.forall_mem_cons.2 ⟨⟨shallow.1, fits.1⟩, ih shallow.2 fits.2⟩

end Within

theorem depth_list_le {levels : Nat} {items : List Json} (h : ∀ v ∈ items, v.depth ≤ levels) :
    (list items).depth ≤ levels + 1 := by
  refine Nat.succ_le_succ ?_
  induction items with
  | nil => exact Nat.zero_le _
  | cons item rest ih =>
    obtain ⟨first, others⟩ := List.forall_mem_cons.1 h
    exact Nat.max_le.2 ⟨first, ih others⟩

theorem depth_record_le {levels : Nat} {fields : List (String × Json)}
    (h : ∀ f ∈ fields, f.2.depth ≤ levels) : (record fields).depth ≤ levels + 1 := by
  refine Nat.succ_le_succ ?_
  induction fields with
  | nil => exact Nat.zero_le _
  | cons field rest ih =>
    obtain ⟨first, others⟩ := List.forall_mem_cons.1 h
    exact Nat.max_le.2 ⟨first, ih others⟩

theorem depth_ofStrings_le (names : List String) : (ofStrings names).depth ≤ 1 := by
  refine depth_list_le fun v mem => ?_
  obtain ⟨s, -, rfl⟩ := List.mem_map.1 mem
  exact Nat.le_refl 0

end Json

namespace Document

variable {α : Type} {read? : Document → Option α} {levels : Nat} {v : Json} {name : String}

theorem exists_of_mem_ofItems {items : List Json} {d : Document} (mem : d ∈ ofItems items) :
    ∃ v ∈ items, d = ofJson v := by
  rw [ofItems_eq_map] at mem
  obtain ⟨v, among, rfl⟩ := List.mem_map.1 mem
  exact ⟨v, among, rfl⟩

theorem exists_of_mem_ofFields {fields : List (String × Json)} {d d' : Document}
    (mem : (d, d') ∈ ofFields fields) : ∃ f ∈ fields, d' = ofJson f.2 := by
  rw [ofFields_eq_map] at mem
  obtain ⟨f, among, same⟩ := List.mem_map.1 mem
  cases same
  exact ⟨f, among, rfl⟩

/-- The known fields of a record are fields of the record. -/
theorem mem_of_knownFields? {known : List String} {fields : List (Document × Document)}
    {done : List (String × Document)} {found : Fields}
    (h : knownFields? known fields done = some found) :
    ∀ entry ∈ found.entries, entry ∈ done ∨ ∃ d, (d, entry.2) ∈ fields := by
  induction fields generalizing done with
  | nil =>
    cases h
    exact fun entry mem => .inl (List.mem_reverse.1 mem)
  | cons field rest ih =>
    obtain ⟨d, value⟩ := field
    have later {done' : List (String × Document)}
        (h : knownFields? known rest done' = some found)
        (old : ∀ entry ∈ done', entry ∈ done ∨ entry.2 = value) :
        ∀ entry ∈ found.entries, entry ∈ done ∨ ∃ d', (d', entry.2) ∈ (d, value) :: rest := by
      intro entry mem
      rcases ih h entry mem with before | ⟨d', among⟩
      · rcases old entry before with before | here
        · exact .inl before
        · exact .inr ⟨d, here ▸ List.mem_cons_self⟩
      · exact .inr ⟨d', List.mem_cons_of_mem _ among⟩
    rw [knownFields?] at h
    split at h
    · cases h
    · exact later h fun entry mem => .inl mem
    · split at h
      · split at h
        · cases h
        · refine later h fun entry mem => ?_
          rcases List.mem_cons.1 mem with rfl | mem
          · exact .inr rfl
          · exact .inl mem
      · exact later h fun entry mem => .inl mem

/-- Fields that hold parts of some value. -/
def Fields.Within (levels : Nat) (fields : Fields) : Prop :=
  ∀ entry ∈ fields.entries, ∃ v : Json, v.Within levels ∧ entry.2 = ofJson v

theorem within_of_named? {known : List String} {fields : Fields} (h : v.Within (levels + 1))
    (read : named? known (ofJson v) = some fields) : fields.Within levels := by
  cases v with
  | record given =>
    intro entry mem
    obtain ⟨d, among⟩ := (mem_of_knownFields? read entry mem).resolve_left List.not_mem_nil
    obtain ⟨f, part, same⟩ := exists_of_mem_ofFields among
    exact ⟨f.2, h.field f part, same⟩
  | _ => cases read

theorem within_of_fields? {known : List String} {fields : Fields} (h : v.Within (levels + 1))
    (read : fields? known (ofJson v) = some fields) : fields.Within levels := by
  cases v with
  | list items =>
    rw [ofJson, fields?] at read
    split at read
    · cases read
      intro entry mem
      obtain ⟨v, part, same⟩ := exists_of_mem_ofItems (List.of_mem_zip mem).2
      exact ⟨v, h.item v part, same⟩
    · cases read
  | record => exact within_of_named? h read
  | _ => cases read

namespace Fields.Within

variable {fields : Fields}

theorem of_get? (h : fields.Within levels) {d : Document} (found : fields.get? name = some d) :
    ∃ v : Json, v.Within levels ∧ d = ofJson v := by
  obtain ⟨entry, first, rfl⟩ := Option.map_eq_some_iff.1 found
  exact h entry (List.mem_of_find?_eq_some first)

theorem of_required? (h : fields.Within levels) {x : α}
    (read : fields.required? name read? = some x) :
    ∃ v : Json, v.Within levels ∧ read? (ofJson v) = some x := by
  obtain ⟨d, found, read⟩ := Option.bind_eq_some_iff.1 read
  obtain ⟨v, within, rfl⟩ := h.of_get? found
  exact ⟨v, within, read⟩

theorem of_withDefault? (h : fields.Within levels) {default x : α}
    (read : fields.withDefault? name default read? = some x) :
    x = default ∨ ∃ v : Json, v.Within levels ∧ read? (ofJson v) = some x := by
  rw [withDefault?] at read
  split at read
  · exact .inl (Option.some.inj read).symm
  · next found =>
    obtain ⟨v, within, rfl⟩ := h.of_get? found
    exact .inr ⟨v, within, read⟩

/-- What is not absent is not read from null. -/
theorem of_optional? (h : fields.Within levels) {x : Option α}
    (read : fields.optional? name read? = some x) :
    ∀ y ∈ x, ∃ v : Json, v.Within levels ∧ v ≠ .null ∧ read? (ofJson v) = some y := by
  rintro y rfl
  obtain ⟨v, within, read⟩ := (h.of_withDefault? read).resolve_left nofun
  cases v with
  | null => cases read
  | _ =>
    obtain ⟨_, read, same⟩ := Option.map_eq_some_iff.1 read
    cases same
    exact ⟨_, within, nofun, read⟩

end Fields.Within

theorem within_of_list? {xs : List α} (h : v.Within (levels + 1))
    (read : list? read? (ofJson v) = some xs) :
    ∀ x ∈ xs, ∃ v : Json, v.Within levels ∧ read? (ofJson v) = some x := by
  cases v with
  | list items =>
    intro x mem
    rw [ofJson, list?] at read
    obtain ⟨d, among, read⟩ := exists_of_mapM_eq_some read x mem
    obtain ⟨v, part, rfl⟩ := exists_of_mem_ofItems among
    exact ⟨v, h.item v part, read⟩
  | _ => cases read

/-- A double that is read from a value is finite. -/
theorem isFinite_of_double? {x : Binary64} (h : v.Within levels)
    (read : double? (ofJson v) = some x) : x.isFinite = true := by
  cases v with
  | number n =>
    have fits := h.fits n List.mem_cons_self
    cases n with
    | integer n =>
      cases read
      obtain ⟨low, high⟩ := fits
      refine Binary64.isFinite_ofInt (Nat.lt_succ_iff.1 ?_)
      by_cases zero : n.natAbs = 0
      · simp [zero]
      · rw [Nat.log2_lt zero]
        omega
    | double x =>
      cases read
      exact fits
  | _ => cases read

/-! ## Values -/

theorem depthFields_insertField_le (name : String) (v : Json) (fields : List (String × Json)) :
    Json.depthFields (Json.insertField name v fields) ≤ max v.depth (Json.depthFields fields) := by
  induction fields with
  | nil => exact Nat.le_refl _
  | cons field rest ih =>
    rw [Json.insertField]
    split_ifs
    · exact Nat.le_refl _
    · simp only [Json.depthFields]
      omega
    · simp only [Json.depthFields]
      omega

mutual

/-- Putting the fields of records in order makes no value deeper. -/
theorem depth_le_of_value? : ∀ {v w : Json}, (ofJson v).value? = some w → w.depth ≤ v.depth
  | .null, _, h | .bool _, _, h | .text _, _, h | .number (.integer _), _, h => by
    cases h
    exact Nat.le_refl 0
  | .number (.double x), _, h => by
    cases h
    rw [Json.ofDouble]
    split <;> exact Nat.le_refl 0
  | .list items, _, h => by
    obtain ⟨values, held, rfl⟩ := Option.map_eq_some_iff.1 h
    exact Nat.succ_le_succ (depthItems_le_of_valueItems? held)
  | .record fields, _, h => by
    obtain ⟨values, held, rfl⟩ := Option.map_eq_some_iff.1 h
    have all := depthFields_le_of_valueFields? held
    rw [Json.depthFields, Nat.max_zero] at all
    exact Nat.succ_le_succ all

theorem depthItems_le_of_valueItems? : ∀ {items values : List Json},
    valueItems? (ofItems items) = some values → Json.depthItems values ≤ Json.depthItems items
  | [], _, h => by
    cases h
    exact Nat.le_refl 0
  | item :: rest, _, h => by
    simp only [ofItems, valueItems?, Option.bind_eq_bind, Option.bind_eq_some_iff] at h
    obtain ⟨value, first, values, others, same⟩ := h
    cases same
    have here := depth_le_of_value? first
    have later := depthItems_le_of_valueItems? others
    simp only [Json.depthItems]
    omega

theorem depthFields_le_of_valueFields? : ∀ {fields done values : List (String × Json)},
    valueFields? (ofFields fields) done = some values →
    Json.depthFields values ≤ max (Json.depthFields fields) (Json.depthFields done)
  | [], _, _, h => by
    cases h
    exact Nat.le_max_right _ _
  | (name, value) :: rest, done, _, h => by
    simp only [ofFields, valueFields?, Option.bind_eq_bind, Option.bind_eq_some_iff] at h
    obtain ⟨v, held, later⟩ := h
    have here := depth_le_of_value? held
    have all := depthFields_le_of_valueFields? later
    have put := depthFields_insertField_le name v done
    simp only [Json.depthFields]
    omega

end

/-- What is read from a value is proper and no deeper than the value, and it is null only if the
value is. -/
theorem of_json? {w : Json} (h : v.Within levels) (read : json? (ofJson v) = some w) :
    w.Proper ∧ w.depth ≤ levels ∧ (v ≠ .null → w ≠ .null) := by
  have held : (ofJson v).value? = some w := by
    rwa [json?, resolve?_ofJson, Option.bind_some] at read
  refine ⟨proper_of_json? read, (depth_le_of_value? held).trans h.shallow, fun some => ?_⟩
  cases v with
  | null => exact absurd rfl some
  | number n =>
    have fits := h.fits n List.mem_cons_self
    cases n with
    | integer n =>
      cases held
      simp
    | double x =>
      cases held
      have finite : x.isFinite = true := fits
      rw [Json.ofDouble, if_pos finite]
      simp
  | list | record =>
    obtain ⟨_, -, rfl⟩ := Option.map_eq_some_iff.1 held
    simp
  | _ =>
    cases held
    simp

end Document

end Sweep
