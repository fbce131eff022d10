import Sweep.Document.Basic

/-!
# Reading records from documents

What the models are decoded with. A record is read by the names of its fields: unknown fields are
passed over, a known field given twice is an error. A data value may also give a record as a list,
in which the fields stand in the order of their declaration.

In a written document an unquoted scalar is read as its spelling wherever a text is asked for, and
nothing at all stands for an empty list or record.
-/

namespace Sweep.Document

def text? : Document → Option String
  | .text s => some s
  | .plain written _ => some written
  | _ => none

/-- Reads a double; an integer counts as one. -/
def double? : Document → Option Binary64
  | .number (.double x) | .plain _ (.number (.double x)) => some x
  | .number (.integer n) | .plain _ (.number (.integer n)) => some (Binary64.ofInt n)
  | _ => none

/-- Reads a natural number below `2 ^ 64`, which has to be spelled without a minus. -/
def nat? : Document → Option Nat
  | .number (.integer n) => if 0 ≤ n ∧ n < (1 <<< 64 : Nat) then some n.toNat else none
  | .plain written (.number (.integer n)) =>
    if !isNegated written && n < (1 <<< 64 : Nat) then some n.toNat else none
  | _ => none

/-- Reads any data value. -/
def json? (d : Document) : Option Json :=
  d.resolve?.bind value?

/-- Reads something that may also be null. -/
def nullable? (read? : Document → Option α) : Document → Option (Option α)
  | .null | .plain _ .null => some none
  | d => (read? d).map some

def list? (read? : Document → Option α) : Document → Option (List α)
  | .list items | .sequence items => items.mapM read?
  | .plain "" _ => some []
  | _ => none

/-- The name of a field: a spelling or a text. An unsigned number names the known field at its
place, if there are so many. -/
def fieldName? (known : List String) : Document → Option (Option String)
  | .text s => some (some s)
  | .plain written _ => some (some written)
  | .number (.integer n) => if 0 ≤ n then some known[n.toNat]? else none
  | _ => none

/-- The fields of a record that are known to its reader, each at most once. -/
structure Fields where
  entries : List (String × Document)

namespace Fields

/-- Looks a field up. -/
def get? (fields : Fields) (name : String) : Option Document :=
  (fields.entries.find? fun entry => entry.1 == name).map (·.2)

def required? (fields : Fields) (name : String) (read? : Document → Option α) : Option α :=
  (fields.get? name).bind read?

/-- Reads a field that has a value when it is missing. -/
def withDefault? (fields : Fields) (name : String) (default : α) (read? : Document → Option α) :
    Option α :=
  match fields.get? name with
  | none => some default
  | some d => read? d

/-- Reads a field that may be missing or null. -/
def optional? (fields : Fields) (name : String) (read? : Document → Option α) :
    Option (Option α) :=
  fields.withDefault? name none (nullable? read?)

end Fields

/-- The known fields among named ones, unless one is given twice or a name cannot be read. -/
def knownFields? (known : List String) :
    List (Document × Document) → List (String × Document) → Option Fields
  | [], done => some ⟨done.reverse⟩
  | (name, value) :: rest, done =>
    match fieldName? known name with
    | none => none
    | some none => knownFields? known rest done
    | some (some name) =>
      if known.contains name then
        if done.any fun entry => entry.1 == name then none
        else knownFields? known rest ((name, value) :: done)
      else knownFields? known rest done

/-- Reads a record that is given by the names of its fields. -/
def named? (known : List String) : Document → Option Fields
  | .record fields => knownFields? known fields []
  | .plain "" _ => some ⟨[]⟩
  | _ => none

/-- Reads a record that is given by the names or by the order of its fields. -/
def fields? (known : List String) : Document → Option Fields
  | .list items =>
    if items.length ≤ known.length then some ⟨known.zip items⟩ else none
  | d => named? known d

end Sweep.Document
