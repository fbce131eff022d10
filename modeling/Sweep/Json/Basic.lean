import Sweep.Number.Binary64

/-!
# Data values

The values that parameters, stored documents and answers are made of. A record lists its fields in
the order in which they are written; a value proper has them in increasing order of the names, each
once, and `Json.normalize` brings any tree of values into that form.
-/

namespace Sweep

/-- A number of a data value: an integer of 64 bits, signed or unsigned, or a double. -/
inductive JsonNumber where
  | integer (n : Int)
  | double (x : Binary64)
deriving DecidableEq, Repr

/-- A data value. -/
inductive Json where
  | null
  | bool (b : Bool)
  | number (n : JsonNumber)
  | text (s : String)
  | list (items : List Json)
  | record (fields : List (String × Json))
deriving Inhabited, Repr

namespace Json

mutual

/-- Equality of values is decided by walking both trees together. -/
def decEq : (a b : Json) → Decidable (a = b)
  | .null, .null => .isTrue rfl
  | .bool a, .bool b => decidable_of_iff (a = b) (by simp)
  | .number a, .number b => decidable_of_iff (a = b) (by simp)
  | .text a, .text b => decidable_of_iff (a = b) (by simp)
  | .list a, .list b => @decidable_of_iff _ (a = b) (by simp) (decEqItems a b)
  | .record a, .record b => @decidable_of_iff _ (a = b) (by simp) (decEqFields a b)
  | .null, .bool _ | .null, .number _ | .null, .text _ | .null, .list _ | .null, .record _
  | .bool _, .null | .bool _, .number _ | .bool _, .text _ | .bool _, .list _
  | .bool _, .record _ | .number _, .null | .number _, .bool _ | .number _, .text _
  | .number _, .list _ | .number _, .record _ | .text _, .null | .text _, .bool _
  | .text _, .number _ | .text _, .list _ | .text _, .record _ | .list _, .null
  | .list _, .bool _ | .list _, .number _ | .list _, .text _ | .list _, .record _
  | .record _, .null | .record _, .bool _ | .record _, .number _ | .record _, .text _
  | .record _, .list _ => .isFalse (by simp)

def decEqItems : (a b : List Json) → Decidable (a = b)
  | [], [] => .isTrue rfl
  | [], _ :: _ | _ :: _, [] => .isFalse (by simp)
  | x :: a, y :: b =>
    @decidable_of_iff _ (x = y ∧ a = b) (by simp)
      (@instDecidableAnd _ _ (decEq x y) (decEqItems a b))

def decEqFields : (a b : List (String × Json)) → Decidable (a = b)
  | [], [] => .isTrue rfl
  | [], _ :: _ | _ :: _, [] => .isFalse (by simp)
  | (k, x) :: a, (l, y) :: b =>
    @decidable_of_iff _ (k = l ∧ x = y ∧ a = b) (by simp [and_assoc])
      (@instDecidableAnd _ _ (inferInstanceAs (Decidable (k = l)))
        (@instDecidableAnd _ _ (decEq x y) (decEqFields a b)))

end

instance : DecidableEq Json := decEq

/-- An integer as a value. -/
def ofInt (n : Int) : Json := .number (.integer n)

/-- A natural number as a value. -/
def ofNat (n : Nat) : Json := ofInt n

/-- A double as a value; what is no finite number has no written form and becomes `null`. -/
def ofDouble (x : Binary64) : Json :=
  if x.isFinite then .number (.double x) else .null

/-- A text, or null. -/
def ofText? (s : Option String) : Json := (s.map text).getD null

def ofStrings (names : List String) : Json := .list (names.map .text)

/-- Puts a field at its place among fields with increasing names, over one of the same name. -/
def insertField (name : String) (value : Json) :
    List (String × Json) → List (String × Json)
  | [] => [(name, value)]
  | (k, v) :: rest =>
    if name < k then (name, value) :: (k, v) :: rest
    else if k < name then (k, v) :: insertField name value rest
    else (name, value) :: rest

mutual

/-- The same value with the fields of every record in increasing order of their names. Of several
fields of one name the last is kept. -/
def normalize : Json → Json
  | .list items => .list (normalizeItems items)
  | .record fields => .record (normalizeFields fields [])
  | value => value

def normalizeItems : List Json → List Json
  | [] => []
  | item :: rest => normalize item :: normalizeItems rest

def normalizeFields : List (String × Json) → List (String × Json) → List (String × Json)
  | [], done => done
  | (name, value) :: rest, done => normalizeFields rest (insertField name (normalize value) done)

end

/-- The value of a record's first field of a given name. -/
def field? (name : String) : Json → Option Json
  | .record fields => (fields.find? fun f => f.1 == name).map (·.2)
  | _ => none

end Json

end Sweep
