import Sweep.Document.Reading
import Sweep.Proofs.Table

/-!
# Proper data values

A value is proper if the fields of its records stand in increasing order of their names and its
numbers are finite. Whatever is taken out of a document is a proper value, and a proper value is
taken out of the document that it makes.
-/

namespace Sweep

namespace Json

mutual

/-- The fields of all records stand in increasing order of their names, and no number is
infinite. -/
def Proper : Json → Prop
  | .number (.double x) => x.isFinite = true
  | .list items => ProperItems items
  | .record fields => (fields.Pairwise fun a b => a.1 < b.1) ∧ ProperFields fields
  | _ => True

def ProperItems : List Json → Prop
  | [] => True
  | item :: rest => item.Proper ∧ ProperItems rest

def ProperFields : List (String × Json) → Prop
  | [] => True
  | (_, value) :: rest => value.Proper ∧ ProperFields rest

end

theorem insertField_eq_insertEntry (name : String) (value : Json) (fields : List (String × Json)) :
    insertField name value fields = Table.insertEntry name value fields := by
  induction fields with
  | nil => rfl
  | cons field rest ih => rw [insertField, Table.insertEntry, ih]

theorem ProperFields.insertField {name : String} {value : Json} {fields : List (String × Json)}
    (hv : value.Proper) (h : ProperFields fields) :
    ProperFields (insertField name value fields) := by
  induction fields with
  | nil => exact ⟨hv, trivial⟩
  | cons field rest ih =>
    obtain ⟨first, others⟩ := h
    rw [Json.insertField]
    split_ifs
    · exact ⟨hv, first, others⟩
    · exact ⟨first, ih others⟩
    · exact ⟨hv, others⟩

theorem proper_ofDouble (x : Binary64) : (ofDouble x).Proper := by
  rw [ofDouble]
  split
  · next finite => exact finite
  · trivial

end Json

namespace Document

open Json (Proper ProperItems ProperFields insertField)

/-! ## From a document -/

mutual

/-- What a document holds is a proper value. -/
theorem proper_of_value? : ∀ {d : Document} {v : Json}, d.value? = some v → v.Proper
  | .null, _, h | .bool _, _, h | .text _, _, h | .number (.integer _), _, h => by
    cases h
    trivial
  | .number (.double x), _, h => by
    cases h
    exact Json.proper_ofDouble x
  | .list items, _, h => by
    obtain ⟨values, held, rfl⟩ := Option.map_eq_some_iff.1 h
    exact properItems_of_valueItems? held
  | .record fields, _, h => by
    obtain ⟨values, held, rfl⟩ := Option.map_eq_some_iff.1 h
    exact properFields_of_valueFields? held .nil trivial

theorem properItems_of_valueItems? : ∀ {items : List Document} {values : List Json},
    valueItems? items = some values → ProperItems values
  | [], _, h => by
    cases h
    trivial
  | item :: rest, _, h => by
    simp only [valueItems?, Option.bind_eq_bind, Option.bind_eq_some_iff] at h
    obtain ⟨value, first, values, others, same⟩ := h
    cases same
    exact ⟨proper_of_value? first, properItems_of_valueItems? others⟩

theorem properFields_of_valueFields? : ∀ {fields : List (Document × Document)}
    {done values : List (String × Json)}, valueFields? fields done = some values →
    (done.Pairwise fun a b => a.1 < b.1) → ProperFields done →
    (values.Pairwise fun a b => a.1 < b.1) ∧ ProperFields values
  | [], _, _, h, sorted, proper => by
    cases h
    exact ⟨sorted, proper⟩
  | (.text name, value) :: rest, done, _, h, sorted, proper => by
    simp only [valueFields?, Option.bind_eq_bind, Option.bind_eq_some_iff] at h
    obtain ⟨v, held, later⟩ := h
    refine properFields_of_valueFields? later ?_ (proper.insertField (proper_of_value? held))
    rw [Json.insertField_eq_insertEntry]
    exact Table.pairwise_insertEntry sorted

end

theorem proper_of_json? {d : Document} {v : Json} (h : d.json? = some v) : v.Proper := by
  obtain ⟨resolved, -, held⟩ := Option.bind_eq_some_iff.1 h
  exact proper_of_value? held

/-! ## To a document -/

theorem resolveName?_text (name : String) : (text name).resolveName? = some (text name) := by
  rw [resolveName?, resolve?]
  rintro _ _ ⟨⟩

mutual

theorem resolve?_ofJson : ∀ v : Json, (ofJson v).resolve? = some (ofJson v)
  | .null | .bool _ | .number _ | .text _ => by rw [ofJson, resolve?]
  | .list items => by rw [ofJson, resolve?, resolveItems?_ofItems, Option.map_some]
  | .record fields => by rw [ofJson, resolve?, resolveFields?_ofFields, Option.map_some]

theorem resolveItems?_ofItems : ∀ items : List Json,
    resolveItems? (ofItems items) = some (ofItems items)
  | [] => by rw [ofItems, resolveItems?]
  | item :: rest => by
    rw [ofItems, resolveItems?, resolve?_ofJson, resolveItems?_ofItems]
    rfl

theorem resolveFields?_ofFields : ∀ fields : List (String × Json),
    resolveFields? (ofFields fields) = some (ofFields fields)
  | [] => by rw [ofFields, resolveFields?]
  | (name, value) :: rest => by
    rw [ofFields, resolveFields?, resolveName?_text, resolve?_ofJson, resolveFields?_ofFields]
    rfl

end

mutual

/-- The document of a proper value holds the value. -/
theorem value?_ofJson : ∀ {v : Json}, v.Proper → (ofJson v).value? = some v
  | .null, _ | .bool _, _ | .number (.integer _), _ | .text _, _ => rfl
  | .number (.double x), finite => by
    rw [Proper] at finite
    rw [ofJson, value?, Json.ofDouble, if_pos finite]
  | .list items, proper => by rw [ofJson, value?, valueItems?_ofItems proper, Option.map_some]
  | .record fields, ⟨sorted, proper⟩ => by
    have held : valueFields? (ofFields fields) [] = some fields :=
      valueFields?_ofFields proper sorted
    rw [ofJson, value?, held, Option.map_some]

theorem valueItems?_ofItems : ∀ {items : List Json}, ProperItems items →
    valueItems? (ofItems items) = some items
  | [], _ => rfl
  | item :: rest, ⟨first, others⟩ => by
    rw [ofItems, valueItems?, value?_ofJson first, valueItems?_ofItems others]
    rfl

theorem valueFields?_ofFields : ∀ {fields done : List (String × Json)}, ProperFields fields →
    ((done ++ fields).Pairwise fun a b => a.1 < b.1) →
    valueFields? (ofFields fields) done = some (done ++ fields)
  | [], _, _, _ => by rw [ofFields, valueFields?, List.append_nil]
  | (name, value) :: rest, done, ⟨first, others⟩, sorted => by
    have above : ∀ field ∈ done, field.1 < name := fun field mem =>
      (List.pairwise_append.1 sorted).2.2 field mem _ List.mem_cons_self
    have put : insertField name value done = done ++ [(name, value)] := by
      rw [Json.insertField_eq_insertEntry, Table.insertEntry_of_forall_lt above]
    rw [List.append_cons] at sorted ⊢
    rw [ofFields, valueFields?, value?_ofJson first, ← valueFields?_ofFields others sorted, ← put]
    rfl

end

/-- A proper value is read from its document. -/
theorem json?_ofJson {v : Json} (proper : v.Proper) : (ofJson v).json? = some v := by
  rw [json?, resolve?_ofJson, Option.bind_some, value?_ofJson proper]

end Document

end Sweep
