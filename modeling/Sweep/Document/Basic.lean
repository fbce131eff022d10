import Sweep.Json.Basic

/-!
# Documents

A document is a text that has been cut into its parts but not yet given a meaning. It is either a
data value, or it was written by hand; then its unquoted scalars still know their spelling, and its
lists are lists of written parts. `Document.resolve?` replaces every spelling by what it means.

A part may have the form of a value and yet hold none. That does no harm where nobody asks for it.
-/

namespace Sweep

inductive Document where
  | null
  | bool (b : Bool)
  | number (n : JsonNumber)
  | text (s : String)
  | list (items : List Document)
  | record (fields : List (Document × Document))
  /-- An unquoted scalar of a written document: its spelling, and the value that it means. -/
  | plain (written : String) (meaning : Json)
  /-- A list of a written document. -/
  | sequence (items : List Document)
  /-- A part that has the form of a value and holds none. -/
  | unreadable
deriving Inhabited, Repr

namespace Document

mutual

/-- A data value as a document. -/
def ofJson : Json → Document
  | .null => .null
  | .bool b => .bool b
  | .number n => .number n
  | .text s => .text s
  | .list items => .list (ofItems items)
  | .record fields => .record (ofFields fields)

def ofItems : List Json → List Document
  | [] => []
  | item :: rest => ofJson item :: ofItems rest

def ofFields : List (String × Json) → List (Document × Document)
  | [] => []
  | (name, value) :: rest => (.text name, ofJson value) :: ofFields rest

end

/-- Whether a spelling starts with a minus. -/
def isNegated (written : String) : Bool := written.toList.head? == some '-'

/-- Whether a number is one that a data value can hold: an integer of 64 bits, or a double. -/
def fits : JsonNumber → Bool
  | .integer n => decide (-((1 <<< 63 : Nat) : Int) ≤ n) && decide (n < (1 <<< 64 : Nat))
  | .double _ => true

mutual

/-- The document with every spelling replaced by its meaning. There is none if an integer does not
fit into 64 bits, or if a part is unreadable. -/
def resolve? : Document → Option Document
  | .plain _ (.number n) => if fits n then some (.number n) else none
  | .plain _ meaning => some (ofJson meaning)
  | .sequence items => (resolveItems? items).map .list
  | .list items => (resolveItems? items).map .list
  | .record fields => (resolveFields? fields).map .record
  | .null => some .null
  | .bool b => some (.bool b)
  | .number n => some (.number n)
  | .text s => some (.text s)
  | .unreadable => none

/-- The items of a list with every spelling replaced. -/
def resolveItems? : List Document → Option (List Document)
  | [] => some []
  | item :: rest => do
    let item ← resolve? item
    let rest ← resolveItems? rest
    return item :: rest

/-- The fields of a record with every spelling replaced. -/
def resolveFields? : List (Document × Document) → Option (List (Document × Document))
  | [] => some []
  | (name, value) :: rest => do
    let name ← resolveName? name
    let value ← resolve? value
    let rest ← resolveFields? rest
    return (name, value) :: rest

/-- The name of a field with every spelling replaced. An unsigned number names a field by its place;
a zero with a minus is no such number, and names none. -/
def resolveName? : Document → Option Document
  | .plain written (.number (.integer n)) =>
    if n = 0 ∧ isNegated written then some .unreadable
    else if fits (.integer n) then some (.number (.integer n)) else none
  | name => resolve? name

end

mutual

/-- The data value that a resolved document holds; the names of fields have to be texts. -/
def value? : Document → Option Json
  | .null => some .null
  | .bool b => some (.bool b)
  | .number (.double x) => some (.ofDouble x)
  | .number n => some (.number n)
  | .text s => some (.text s)
  | .list items => (valueItems? items).map .list
  | .record fields => (valueFields? fields []).map .record
  | .plain _ _ => none
  | .sequence _ => none
  | .unreadable => none

/-- The items of a list as data values. -/
def valueItems? : List Document → Option (List Json)
  | [] => some []
  | item :: rest => do
    let item ← value? item
    let rest ← valueItems? rest
    return item :: rest

/-- The fields of a record as data values, put in order before the fields already read. -/
def valueFields? :
    List (Document × Document) → List (String × Json) → Option (List (String × Json))
  | [], done => some done
  | (.text name, value) :: rest, done => do
    let value ← value? value
    valueFields? rest (Json.insertField name value done)
  | _ :: _, _ => none

end

mutual

/-- The document without the lists and records below a number of levels. -/
def cut : Nat → Document → Document
  | 0, .list _ | 0, .sequence _ | 0, .record _ => .unreadable
  | levels + 1, .list items => .list (cutItems levels items)
  | levels + 1, .sequence items => .sequence (cutItems levels items)
  | levels + 1, .record fields => .record (cutFields levels fields)
  | _, d => d

/-- The items of a list without what is too deep. -/
def cutItems (levels : Nat) : List Document → List Document
  | [] => []
  | item :: rest => cut levels item :: cutItems levels rest

/-- The fields of a record without what is too deep. -/
def cutFields (levels : Nat) : List (Document × Document) → List (Document × Document)
  | [] => []
  | (name, value) :: rest => (cut levels name, cut levels value) :: cutFields levels rest

end

end Document

end Sweep
