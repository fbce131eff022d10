import Sweep.Document.Basic
import Sweep.Number.Reading
import Sweep.Yaml.Quoted

/-!
# Scalars and tokens

An unquoted scalar is null, a truth value, an integer, a double or a text, decided by its spelling
in that order. Integers may be written in base sixteen, eight or two; a decimal with a superfluous
zero in front is a text.

The tokens are those of one part of YAML. There are none for anchors, aliases, tags and directives:
a text in which a value starts with `&`, `*` or `!`, or a line with `%`, is refused, where a reader
of all of YAML goes on.
-/

namespace Sweep.Yaml

def digitValue? (base : Nat) (c : Char) : Option Nat :=
  let value :=
    if c.isDigit then c.toNat - '0'.toNat
    else if 'a' ≤ c ∧ c ≤ 'f' then c.toNat - 'a'.toNat + 10
    else if 'A' ≤ c ∧ c ≤ 'F' then c.toNat - 'A'.toNat + 10
    else 16
  if value < base then some value else none

/-- The natural number that some digits name; there has to be at least one. -/
def natural? (base : Nat) (digits : List Char) : Option Nat :=
  if digits.isEmpty then none
  else digits.foldlM (fun n c => (digitValue? base c).map (base * n + ·)) 0

/-- Whether a spelling consists of digits with a superfluous zero in front. -/
def hasLeadingZero (s : List Char) : Bool :=
  let digits := match s with
    | '-' :: rest => rest
    | '+' :: rest => rest
    | rest => rest
  match digits with
  | '0' :: c :: rest => (c :: rest).all Char.isDigit
  | _ => false

/-- The natural number of a spelling without sign, in the base that it announces. -/
def prefixedNatural? : List Char → Option Nat
  | '0' :: 'x' :: digits => natural? 16 digits
  | '0' :: 'o' :: digits => natural? 8 digits
  | '0' :: 'b' :: digits => natural? 2 digits
  | digits => if hasLeadingZero digits then none else natural? 10 digits

/-- The integer of a spelling, if it has at most 128 bits. -/
def integer? (s : List Char) : Option Int :=
  match s with
  | '-' :: rest =>
    match prefixedNatural? rest with
    | some n => if n ≤ 1 <<< 127 then some (-(n : Int)) else none
    | none => none
  | s =>
    let digits := match s with
      | '+' :: rest => rest
      | rest => rest
    match prefixedNatural? digits with
    | some n => if n < 1 <<< 128 then some n else none
    | none => none

/-- The double of a spelling. Infinities have spellings of their own. -/
def double? (s : List Char) : Option Binary64 :=
  let unsigned := match s with
    | '+' :: rest => rest
    | rest => rest
  let isInfinity (s : List Char) : Bool :=
    s == ".inf".toList || s == ".Inf".toList || s == ".INF".toList
  if s == ".nan".toList || s == ".NaN".toList || s == ".NAN".toList then some Binary64.nan
  else if isInfinity unsigned then some Binary64.infinity
  else
    match s with
    | '-' :: rest =>
      if isInfinity rest then some Binary64.infinity.neg else finite? s
    | '+' :: '+' :: _ | '+' :: '-' :: _ => none
    | _ => finite? unsigned
where
  finite? (s : List Char) : Option Binary64 :=
    (Number.readChars? s).filter Binary64.isFinite

/-- The value that an unquoted scalar means. -/
def meaning (spelling : String) : Json :=
  match spelling with
  | "" | "~" | "null" | "Null" | "NULL" => .null
  | "true" | "True" | "TRUE" => .bool true
  | "false" | "False" | "FALSE" => .bool false
  | spelling =>
    let s := spelling.toList
    match integer? s with
    | some n => .number (.integer n)
    | none =>
      if hasLeadingZero s then .text spelling
      else
        match double? s with
        | some x => .number (.double x)
        | none => .text spelling

/-- An unquoted scalar as a part of a document. -/
def plain (spelling : String) : Document := .plain spelling (meaning spelling)

/-! ## The tokens of a YAML text

The layout of a text is turned into tokens: the indentation of a line opens and closes blocks, and a
scalar that a colon follows becomes the key of a mapping, whose opening is then inserted before it.
A key has to stand on one line, and within 1024 characters.
-/

/-- The parts of the structure of a text. -/
inductive Token where
  | scalar (d : Document)
  | blockSequence
  | blockMapping
  | blockEnd
  | entry
  | key
  | value
  | sequenceOpen
  | sequenceClose
  | mappingOpen
  | mappingClose
  | comma
  | documentStart
  | documentEnd

/-- A token that may turn out to be the key of a mapping. -/
structure KeyCandidate where
  /-- Whether nothing else than a key may stand at its place. -/
  required : Bool
  /-- The number of tokens before it. -/
  position : Nat
  line : Nat
  column : Nat
  index : Nat

/-- The state of the reader: the tokens so far, the open blocks, and for each open bracket and the
text as a whole the token that may be a key. -/
structure Layout where
  cursor : Cursor
  tokens : Array Token := #[]
  indent : Int := -1
  outer : List Int := []
  candidate : Option KeyCandidate := none
  enclosing : List (Option KeyCandidate) := []
  keyAllowed : Bool := true

namespace Layout

def inFlow (l : Layout) : Bool := !l.enclosing.isEmpty

def push (l : Layout) (t : Token) : Layout := { l with tokens := l.tokens.push t }

/-- Moves over blanks, comments and line breaks. A tab may not stand where a key may start. A mark
of byte order may start a line; it takes up a column. -/
def skipGaps : Nat → Layout → Layout
  | 0, l => l
  | fuel + 1, l =>
    let c := l.cursor
    let c := if c.column = 0 && c.peek? == some '\ufeff' then c.skip 1 else c
    let tabs := l.inFlow || !l.keyAllowed
    let c := c.skipWhile fun ch => ch == ' ' || (tabs && ch == '\t')
    let c := if c.peek? == some '#' then c.skipLine else c
    if c.isBreakHere then
      skipGaps fuel
        { l with cursor := c.takeBreak.2, keyAllowed := l.keyAllowed || !l.inFlow }
    else { l with cursor := c }

/-- Drops a candidate that the reader has left behind, which fails if it is required. -/
def dropStale? (c : Cursor) : Option KeyCandidate → Option (Option KeyCandidate)
  | none => some none
  | some k =>
    if k.line < c.line || k.index + 1024 < c.index then
      if k.required then none else some none
    else some (some k)

def dropStaleKeys? (l : Layout) : Option Layout := do
  let candidate ← dropStale? l.cursor l.candidate
  let enclosing ← l.enclosing.mapM (dropStale? l.cursor)
  return { l with candidate, enclosing }

/-- Gives a candidate up, which fails if it is required. -/
def removeKey? (l : Layout) : Option Layout :=
  match l.candidate with
  | some k => if k.required then none else some { l with candidate := none }
  | none => some l

/-- Makes the next token a candidate if a key may start here. -/
def saveKey? (l : Layout) : Option Layout :=
  if l.keyAllowed then do
    let c := l.cursor
    let l ← l.removeKey?
    return { l with candidate := some {
      required := !l.inFlow && l.indent == (c.column : Int)
      position := l.tokens.size, line := c.line, column := c.column, index := c.index } }
  else some l

/-- Opens a block at a column if that is deeper than the current one. -/
def openBlock (l : Layout) (column position : Nat) (t : Token) : Layout :=
  if l.inFlow || (column : Int) ≤ l.indent then l
  else
    { l with
      tokens := l.tokens.insertIdxIfInBounds position t
      indent := column
      outer := l.indent :: l.outer }

/-- Closes the blocks that are deeper than a column. -/
def closeBlocks (l : Layout) (column : Int) : Layout :=
  if l.inFlow then l else go l.outer l
where
  go : List Int → Layout → Layout
    | [], l => l
    | indent :: outer, l =>
      if column < l.indent then go outer { l.push .blockEnd with indent, outer } else l

def openFlow? (l : Layout) (t : Token) : Option Layout := do
  let l ← l.saveKey?
  let l := l.push t
  return { l with
    cursor := l.cursor.skip 1, candidate := none, enclosing := l.candidate :: l.enclosing
    keyAllowed := true }

/-- Closes a bracket. -/
def closeFlow? (l : Layout) (t : Token) : Option Layout := do
  let l ← l.removeKey?
  let l := l.push t
  let l := match l.enclosing with
    | [] => l
    | candidate :: enclosing => { l with candidate, enclosing }
  return { l with cursor := l.cursor.skip 1, keyAllowed := false }

/-- A comma between the items of a bracket. -/
def comma? (l : Layout) : Option Layout := do
  let l ← l.removeKey?
  return { l.push .comma with cursor := l.cursor.skip 1, keyAllowed := true }

def entry? (l : Layout) : Option Layout := do
  if !l.inFlow && !l.keyAllowed then none
  let l := l.openBlock l.cursor.column l.tokens.size .blockSequence
  let l ← l.removeKey?
  return { l.push .entry with cursor := l.cursor.skip 1, keyAllowed := true }

/-- The mark of a key that is not told by its colon. -/
def key? (l : Layout) : Option Layout := do
  if !l.inFlow && !l.keyAllowed then none
  let l := l.openBlock l.cursor.column l.tokens.size .blockMapping
  let l ← l.removeKey?
  return { l.push .key with cursor := l.cursor.skip 1, keyAllowed := !l.inFlow }

/-- The mark of a value: it turns the candidate, if there is one, into a key. -/
def value? (l : Layout) : Option Layout :=
  match l.candidate with
  | some k =>
    let l := { l with tokens := l.tokens.insertIdxIfInBounds k.position .key, candidate := none }
    let l := l.openBlock k.column k.position .blockMapping
    some { l.push .value with cursor := l.cursor.skip 1, keyAllowed := false }
  | none => do
    if !l.inFlow && !l.keyAllowed then none
    let l := l.openBlock l.cursor.column l.tokens.size .blockMapping
    return { l.push .value with cursor := l.cursor.skip 1, keyAllowed := !l.inFlow }

def documentMark? (l : Layout) : Option Layout := do
  let l := l.closeBlocks (-1)
  let l ← l.removeKey?
  let t := if l.cursor.peek? == some '-' then .documentStart else .documentEnd
  return { l.push t with cursor := l.cursor.skip 3, keyAllowed := false }

def quotedScalar? (l : Layout) (quote : Char) : Option Layout := do
  let l ← l.saveKey?
  let c := l.cursor.skip 1
  let (text, c) ← quoted? quote (c.rest.length + 1) [] c
  return { l.push (.scalar (.text text)) with cursor := c, keyAllowed := false }

def block? (l : Layout) (literal : Bool) : Option Layout := do
  let l ← l.removeKey?
  let (text, c) ← blockScalar? literal l.indent (l.cursor.skip 1)
  return { l.push (.scalar (.text text)) with cursor := c, keyAllowed := true }

def plain? (l : Layout) : Option Layout := do
  let l ← l.saveKey?
  let c := l.cursor
  let (text, broken, c) ← plainScalar? l.inFlow (l.indent + 1) (c.rest.length + 1) [] {} c
  return { l.push (.scalar (plain text)) with cursor := c, keyAllowed := broken }

/-- Whether a plain scalar may start with the character here. -/
def startsPlain (l : Layout) (ch : Char) : Bool :=
  let c := l.cursor
  let isIndicator := "-?:,[]\x7b\x7d#&*!|>'\"%@`".toList.contains ch
  !isIndicator || (ch == '-' && !c.isBlankAt 1) ||
    (!l.inFlow && (ch == '?' || ch == ':') && !c.isGapAt 1)

/-- Reads the next token. -/
def next? (l : Layout) (ch : Char) : Option Layout :=
  let c := l.cursor
  if c.isDocumentMark then l.documentMark?
  else if ch == '%' && c.column == 0 then none
  else if ch == '[' then l.openFlow? .sequenceOpen
  else if ch == '\x7b' then l.openFlow? .mappingOpen
  else if ch == ']' then l.closeFlow? .sequenceClose
  else if ch == '\x7d' then l.closeFlow? .mappingClose
  else if ch == ',' then l.comma?
  else if ch == '-' && c.isGapAt 1 then l.entry?
  else if ch == '?' && (l.inFlow || c.isGapAt 1) then l.key?
  else if ch == ':' && (l.inFlow || c.isGapAt 1) then l.value?
  else if ch == '|' && !l.inFlow then l.block? true
  else if ch == '>' && !l.inFlow then l.block? false
  else if ch == '\'' || ch == '"' then l.quotedScalar? ch
  else if l.startsPlain ch then l.plain?
  else none

/-- Reads tokens to the end of the text. Every token takes at least one character. -/
def run? : Nat → Layout → Option (Array Token)
  | 0, _ => none
  | fuel + 1, l => do
    let l := skipGaps (l.cursor.rest.length + 1) l
    let l ← l.dropStaleKeys?
    match l.cursor.peek? with
    | none =>
      let l := l.closeBlocks (-1)
      let l ← l.removeKey?
      return l.tokens
    | some ch =>
      let l := l.closeBlocks l.cursor.column
      run? fuel (← l.next? ch)

end Layout

/-- A character that a text may contain. -/
def isAllowed (c : Char) : Bool :=
  let n := c.toNat
  n == 9 || n == 10 || n == 13 || (0x20 ≤ n && n ≤ 0x7E) || n == 0x85 ||
    (0xA0 ≤ n && n ≤ 0xD7FF) || (0xE000 ≤ n && n ≤ 0xFFFD) || 0x10000 ≤ n

/-- The tokens of a text. -/
def tokens? (s : List Char) : Option (List Token) :=
  if s.all isAllowed then
    (Layout.run? (s.length + 1) { cursor := { rest := s } }).map Array.toList
  else none

end Sweep.Yaml
