import Sweep.Yaml.Token

/-!
# YAML texts as documents

The tokens of a text are put together to the one document that it holds. Where a value is missing,
an empty scalar stands for it; a text without any document holds an empty scalar, too. What is
nested more than 128 levels deep is there, but cannot be read.

What has no tokens cannot be read either, so no part of a document stands for another one by an
alias and none has its type from a tag. How sources are loaded does not depend on this reader: it is
only one of the formats that they may have.
-/

namespace Sweep.Yaml

/-- What stands where nothing is written. -/
def nothing : Document := plain ""

/-- The rest of the tokens after a part has been read. -/
abbrev Read (α : Type) := Option (α × List Token)

mutual

/-- Reads one value. `block` admits block collections, `inMapping` a sequence whose entries are not
indented. The fuel bounds the depth of the recursion. -/
def node? (block inMapping : Bool) : Nat → List Token → Read Document
  | 0, _ => none
  | fuel + 1, ts =>
    match ts with
    | .scalar d :: rest => some (d, rest)
    | .sequenceOpen :: rest => (flowItems? true fuel rest []).map fun (xs, r) => (.sequence xs, r)
    | .mappingOpen :: rest => (flowFields? true fuel rest []).map fun (fs, r) => (.record fs, r)
    | .blockSequence :: rest =>
      if block then (entries? fuel rest []).map fun (xs, r) => (.sequence xs, r) else none
    | .blockMapping :: rest =>
      if block then (blockFields? fuel rest []).map fun (fs, r) => (.record fs, r) else none
    | .entry :: _ =>
      if inMapping then (looseEntries? fuel ts []).map fun (xs, r) => (.sequence xs, r) else none
    | _ => none

def entries? : Nat → List Token → List Document → Read (List Document)
  | 0, _, _ => none
  | fuel + 1, ts, done =>
    match ts with
    | .blockEnd :: rest => some (done.reverse, rest)
    | .entry :: .entry :: rest => entries? fuel (.entry :: rest) (nothing :: done)
    | .entry :: .blockEnd :: rest => entries? fuel (.blockEnd :: rest) (nothing :: done)
    | .entry :: rest =>
      match node? true false fuel rest with
      | some (d, rest) => entries? fuel rest (d :: done)
      | none => none
    | _ => none

/-- Reads the entries of a sequence that is not indented below its key. -/
def looseEntries? : Nat → List Token → List Document → Read (List Document)
  | 0, _, _ => none
  | fuel + 1, ts, done =>
    match ts with
    | .entry :: rest =>
      match rest with
      | .entry :: _ | .key :: _ | .value :: _ | .blockEnd :: _ =>
        looseEntries? fuel rest (nothing :: done)
      | _ =>
        match node? true false fuel rest with
        | some (d, rest) => looseEntries? fuel rest (d :: done)
        | none => none
    | ts => some (done.reverse, ts)

def blockFields? : Nat → List Token → List (Document × Document) →
    Read (List (Document × Document))
  | 0, _, _ => none
  | fuel + 1, ts, done =>
    match ts with
    | .blockEnd :: rest => some (done.reverse, rest)
    | .key :: rest =>
      match blockPart? fuel rest with
      | none => none
      | some (key, .value :: rest) =>
        match blockPart? fuel rest with
        | none => none
        | some (value, rest) => blockFields? fuel rest ((key, value) :: done)
      | some (key, rest) => blockFields? fuel rest ((key, nothing) :: done)
    | _ => none

/-- Reads a key or a value of a block mapping, which may be missing. -/
def blockPart? : Nat → List Token → Read Document
  | 0, _ => none
  | fuel + 1, ts =>
    match ts with
    | .key :: _ | .value :: _ | .blockEnd :: _ => some (nothing, ts)
    | ts => node? true true fuel ts

/-- Reads the items of a bracketed sequence. An item with a key is a mapping of one field. -/
def flowItems? (first : Bool) : Nat → List Token → List Document → Read (List Document)
  | 0, _, _ => none
  | fuel + 1, ts, done =>
    match ts with
    | .sequenceClose :: rest => some (done.reverse, rest)
    | ts =>
      let behindComma? : Option (List Token) :=
        if first then some ts
        else
          match ts with
          | .comma :: rest => some rest
          | _ => none
      match behindComma? with
      | none => none
      | some (.sequenceClose :: rest) => if first then none else some (done.reverse, rest)
      | some (.key :: rest) =>
        match flowPart? .sequenceClose fuel rest with
        | none => none
        | some (key, .value :: rest) =>
          match flowPart? .sequenceClose fuel rest with
          | none => none
          | some (value, rest) => flowItems? false fuel rest (.record [(key, value)] :: done)
        | some (key, rest) => flowItems? false fuel rest (.record [(key, nothing)] :: done)
      | some ts =>
        match node? false false fuel ts with
        | some (d, rest) => flowItems? false fuel rest (d :: done)
        | none => none

/-- Reads the fields of a bracketed mapping. A field may lack its value. -/
def flowFields? (first : Bool) : Nat → List Token → List (Document × Document) →
    Read (List (Document × Document))
  | 0, _, _ => none
  | fuel + 1, ts, done =>
    match ts with
    | .mappingClose :: rest => some (done.reverse, rest)
    | ts =>
      let behindComma? : Option (List Token) :=
        if first then some ts
        else
          match ts with
          | .comma :: rest => some rest
          | _ => none
      match behindComma? with
      | none => none
      | some (.mappingClose :: rest) => if first then none else some (done.reverse, rest)
      | some (.key :: rest) =>
        match flowPart? .mappingClose fuel rest with
        | none => none
        | some (key, .value :: rest) =>
          match flowPart? .mappingClose fuel rest with
          | none => none
          | some (value, rest) => flowFields? false fuel rest ((key, value) :: done)
        | some (key, rest) => flowFields? false fuel rest ((key, nothing) :: done)
      | some ts =>
        match node? false false fuel ts with
        | some (key, rest) => flowFields? false fuel rest ((key, nothing) :: done)
        | none => none

/-- Reads a key or a value between brackets, which may be missing before a value, a comma or the
closing bracket. -/
def flowPart? (close : Token) : Nat → List Token → Read Document
  | 0, _ => none
  | fuel + 1, ts =>
    let isMissing := match ts, close with
      | .value :: _, _ | .comma :: _, _ => true
      | .sequenceClose :: _, .sequenceClose => true
      | .mappingClose :: _, .mappingClose => true
      | _, _ => false
    if isMissing then some (nothing, ts) else node? false false fuel ts

end

/-- Reads what stands between the marks of a document. -/
def content? (fuel : Nat) : List Token → Read Document
  | [] => some (nothing, [])
  | .documentStart :: rest => some (nothing, .documentStart :: rest)
  | .documentEnd :: rest => some (nothing, .documentEnd :: rest)
  | ts => node? true false fuel ts

/-- How many collections may contain one another. -/
def maxDepth : Nat := 128

/-- Reads the one document that a text holds. -/
def parse? (text : String) : Option Document := do
  let ts ← tokens? text.toList
  let fuel := 4 * ts.length + 8
  let (d, rest) ←
    match ts with
    | [] => some (nothing, [])
    | .documentStart :: rest => content? fuel rest
    | ts => node? true false fuel ts
  let isEnd := rest.all fun t => match t with
    | .documentEnd => true
    | _ => false
  if isEnd then some (d.cut maxDepth) else none

end Sweep.Yaml
