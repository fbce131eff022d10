/-!
# Quoted and block scalars

The scalars of a block layout depend on columns, so the readers of YAML move through the text with
a cursor that counts lines and columns.
-/

namespace Sweep.Yaml

/-- The rest of a text, and where it starts. -/
structure Cursor where
  rest : List Char
  line : Nat := 0
  column : Nat := 0
  index : Nat := 0

/-- A character that ends a line. -/
def isBreak (c : Char) : Bool :=
  c == '\n' || c == '\r' || c == '\u0085' || c == '\u2028' || c == '\u2029'

def isBlank (c : Char) : Bool := c == ' ' || c == '\t'

namespace Cursor

def peek? (c : Cursor) : Option Char := c.rest.head?

/-- The character some places ahead. -/
def ahead? (c : Cursor) (n : Nat) : Option Char := (c.rest.drop n).head?

/-- Whether the character some places ahead is a blank, a line break or the end. -/
def isGapAt (c : Cursor) (n : Nat) : Bool :=
  match c.ahead? n with
  | some ch => isBlank ch || isBreak ch
  | none => true

def isBlankAt (c : Cursor) (n : Nat) : Bool :=
  match c.ahead? n with
  | some ch => isBlank ch
  | none => false

/-- Whether a line ends here, or the text. -/
def isLineEnd (c : Cursor) : Bool :=
  match c.peek? with
  | some ch => isBreak ch
  | none => true

def isBreakHere (c : Cursor) : Bool :=
  match c.peek? with
  | some ch => isBreak ch
  | none => false

/-- Moves over characters of one line. -/
def skip (c : Cursor) (n : Nat) : Cursor :=
  { c with rest := c.rest.drop n, column := c.column + n, index := c.index + n }

/-- Moves over a line break, and tells which characters it counts as. -/
def takeBreak (c : Cursor) : List Char × Cursor :=
  let next (rest : List Char) (n : Nat) : Cursor :=
    { rest, line := c.line + 1, column := 0, index := c.index + n }
  match c.rest with
  | '\r' :: '\n' :: rest => (['\n'], next rest 2)
  | ch :: rest =>
    if ch == '\u2028' || ch == '\u2029' then ([ch], next rest 1)
    else if isBreak ch then (['\n'], next rest 1)
    else ([], c)
  | [] => ([], c)

/-- Moves over the characters of one line that satisfy a condition. -/
def skipWhile (c : Cursor) (p : Char → Bool) : Cursor :=
  c.skip (c.rest.takeWhile fun ch => p ch && !isBreak ch).length

/-- Moves to the end of the line. -/
def skipLine (c : Cursor) : Cursor := c.skipWhile fun _ => true

/-- Whether a line starts here with the mark of a document's start or end. -/
def isDocumentMark (c : Cursor) : Bool :=
  c.column == 0 && c.isGapAt 3 &&
    (c.rest.take 3 == ['-', '-', '-'] || c.rest.take 3 == ['.', '.', '.'])

end Cursor

/-! ## Scalars that span lines

Three kinds of scalars reach over line breaks. In quoted and plain ones a single break counts as a
space and further breaks as themselves; block scalars keep or fold their lines. Each reader takes
the cursor from behind the start of the scalar to behind its end; its fuel is bounded by the length
of the text.
-/

/-- White space between two parts of a scalar: blanks on one line, or the first and the further
breaks if there are any. -/
structure Gap where
  blanks : List Char := []
  firstBreak : List Char := []
  breaks : List Char := []
  /-- Whether the gap contains a line break. -/
  broken : Bool := false

namespace Gap

/-- What a gap counts as in a scalar whose lines are folded. -/
def folded (g : Gap) : List Char :=
  if !g.broken then g.blanks
  else if g.firstBreak == ['\n'] then (if g.breaks.isEmpty then [' '] else g.breaks)
  else g.firstBreak ++ g.breaks

/-- Moves over blanks and breaks. `isAllowed` refuses a blank at the start of a line. -/
def read? (isAllowed : Cursor → Bool) : Nat → Gap → Cursor → Option (Gap × Cursor)
  | 0, _, _ => none
  | fuel + 1, g, c =>
    match c.peek? with
    | some ch =>
      if isBlank ch then
        if g.broken then
          if isAllowed c then read? isAllowed fuel g (c.skip 1) else none
        else read? isAllowed fuel { g with blanks := g.blanks ++ [ch] } (c.skip 1)
      else if isBreak ch then
        let (text, next) := c.takeBreak
        if g.broken then read? isAllowed fuel { g with breaks := g.breaks ++ text } next
        else read? isAllowed fuel { g with blanks := [], firstBreak := text, broken := true } next
      else some (g, c)
    | none => some (g, c)

end Gap

/-- The characters of the escapes that consist of one letter. -/
def escapes : List (Char × Char) :=
  [('0', '\x00'), ('a', '\x07'), ('b', '\x08'), ('t', '\t'), ('\t', '\t'), ('n', '\n'),
   ('v', '\x0b'), ('f', '\x0c'), ('r', '\r'), ('e', '\x1b'), (' ', ' '), ('"', '"'), ('/', '/'),
   ('\\', '\\'), ('N', '\u0085'), ('_', '\u00a0'), ('L', '\u2028'), ('P', '\u2029')]

/-- The value of hexadecimal digits. -/
def hexNumber? (digits : List Char) : Option Nat :=
  digits.foldlM (fun n c =>
    if c.isDigit then some (16 * n + (c.toNat - '0'.toNat))
    else if 'a' ≤ c ∧ c ≤ 'f' then some (16 * n + (c.toNat - 'a'.toNat + 10))
    else if 'A' ≤ c ∧ c ≤ 'F' then some (16 * n + (c.toNat - 'A'.toNat + 10))
    else none) 0

/-- The character of an escape, read from behind the backslash. -/
def escape? (c : Cursor) : Option (Char × Cursor) := do
  let letter ← c.peek?
  let width :=
    if letter == 'x' then 2 else if letter == 'u' then 4 else if letter == 'U' then 8 else 0
  if width = 0 then
    let (_, ch) ← escapes.find? fun e => e.1 == letter
    return (ch, c.skip 1)
  else
    let digits := (c.rest.drop 1).take width
    if digits.length ≠ width then none
    let n ← hexNumber? digits
    if (0xD800 ≤ n ∧ n ≤ 0xDFFF) ∨ 0x10FFFF < n then none
    return (Char.ofNat n, c.skip (1 + width))

/-- Reads the characters of a quoted scalar up to a gap or its closing quote. The result tells
whether a break has been escaped. -/
def quotedRun? (quote : Char) : Nat → List Char → Cursor → Option (List Char × Bool × Cursor)
  | 0, _, _ => none
  | fuel + 1, done, c =>
    match c.rest with
    | [] => some (done, false, c)
    | ch :: rest =>
      if isBlank ch || isBreak ch then some (done, false, c)
      else if quote == '\'' && ch == '\'' && rest.head? == some '\'' then
        quotedRun? quote fuel ('\'' :: done) (c.skip 2)
      else if ch == quote then some (done, false, c)
      else if quote == '"' && ch == '\\' then
        let behind := c.skip 1
        if behind.isBreakHere then some (done, true, behind.takeBreak.2)
        else
          match escape? behind with
          | some (ch, next) => quotedRun? quote fuel (ch :: done) next
          | none => none
      else quotedRun? quote fuel (ch :: done) (c.skip 1)

/-- Reads a quoted scalar from behind its opening quote. -/
def quoted? (quote : Char) : Nat → List Char → Cursor → Option (String × Cursor)
  | 0, _, _ => none
  | fuel + 1, done, c =>
    if c.isDocumentMark || c.rest.isEmpty then none
    else
      match quotedRun? quote (c.rest.length + 1) done c with
      | none => none
      | some (done, escapedBreak, c) =>
        if c.peek? == some quote && !escapedBreak then
          some (String.ofList done.reverse, c.skip 1)
        else
          match Gap.read? (fun _ => true) (c.rest.length + 1) { broken := escapedBreak } c with
          | none => none
          | some (gap, c) => quoted? quote fuel (gap.folded.reverse ++ done) c

/-- Reads the characters of a plain scalar up to a gap or an indicator that ends it. Inside brackets
a colon must not stand before one. -/
def plainRun? (inFlow : Bool) : Nat → List Char → Cursor → Option (List Char × Cursor)
  | 0, _, _ => none
  | fuel + 1, done, c =>
    match c.rest with
    | [] => some (done, c)
    | ch :: rest =>
      let isBracket (ch : Char) : Bool :=
        ch == ',' || ch == '[' || ch == ']' || ch == '\x7b' || ch == '\x7d'
      if isBlank ch || isBreak ch then some (done, c)
      else if inFlow && ch == ':' && (rest.head?.any fun d => isBracket d || d == '?') then none
      else if (ch == ':' && c.isGapAt 1) || (inFlow && isBracket ch) then some (done, c)
      else plainRun? inFlow fuel (ch :: done) (c.skip 1)

/-- Reads a plain scalar whose lines are indented by at least `indent` columns. The result tells
whether its last gap contains a line break. -/
def plainScalar? (inFlow : Bool) (indent : Int) :
    Nat → List Char → Gap → Cursor → Option (String × Bool × Cursor)
  | 0, _, _, _ => none
  | fuel + 1, done, gap, c =>
    let finish := some (String.ofList done.reverse, gap.broken, c)
    if c.isDocumentMark || c.peek? == some '#' then finish
    else
      match plainRun? inFlow (c.rest.length + 1) [] c with
      | none => none
      | some ([], _) => finish
      | some (run, c) =>
        let done := run ++ gap.folded.reverse ++ done
        if c.isGapAt 0 && !c.rest.isEmpty then
          let isAllowed (c : Cursor) : Bool :=
            !(c.peek? == some '\t' && (c.column : Int) < indent)
          match Gap.read? isAllowed (c.rest.length + 1) {} c with
          | none => none
          | some (gap, c) =>
            if !inFlow && (c.column : Int) < indent then
              some (String.ofList done.reverse, gap.broken, c)
            else plainScalar? inFlow indent fuel done gap c
        else some (String.ofList done.reverse, false, c)

/-- What happens to the line breaks at the end of a block scalar. -/
inductive Chomping where
  | strip | clip | keep
deriving DecidableEq

def blockHeader? (c : Cursor) : Option (Chomping × Nat × Cursor) :=
  let chomping? (c : Cursor) : Option (Chomping × Cursor) :=
    if c.peek? == some '+' then some (.keep, c.skip 1)
    else if c.peek? == some '-' then some (.strip, c.skip 1)
    else none
  let increment? (c : Cursor) : Option (Nat × Cursor) :=
    match c.peek? with
    | some ch => if ch.isDigit then some (ch.toNat - '0'.toNat, c.skip 1) else none
    | none => none
  let refuseZero (r : Chomping × Nat × Cursor) (given : Bool) : Option (Chomping × Nat × Cursor) :=
    if given && r.2.1 = 0 then none else some r
  match chomping? c with
  | some (chomping, c) =>
    match increment? c with
    | some (n, c) => refuseZero (chomping, n, c) true
    | none => some (chomping, 0, c)
  | none =>
    match increment? c with
    | some (n, c) =>
      match chomping? c with
      | some (chomping, c) => refuseZero (chomping, n, c) true
      | none => refuseZero (.clip, n, c) true
    | none => some (.clip, 0, c)

/-- Moves over empty lines and the indentation of the next line. An indentation of zero is not yet
known; then the deepest one met is answered, too. -/
def blockBreaks? (indent : Nat) : Nat → Nat → List Char → Cursor → Option (Nat × List Char × Cursor)
  | 0, _, _, _ => none
  | fuel + 1, deepest, breaks, c =>
    let spaces := (c.rest.takeWhile (· == ' ')).length
    let c := c.skip (if indent = 0 then spaces else min spaces (indent - c.column))
    let deepest := max deepest c.column
    if (indent = 0 || c.column < indent) && c.peek? == some '\t' then none
    else if c.isBreakHere then
      let (text, next) := c.takeBreak
      blockBreaks? indent fuel deepest (breaks ++ text) next
    else some (deepest, breaks, c)

/-- Reads the lines of a block scalar. `firstBreak` and `breaks` are the breaks read since the last
line, `wasBlank` tells whether that line started with a blank. -/
def blockLines? (literal : Bool) (indent : Nat) :
    Nat → List Char → (firstBreak breaks : List Char) → (wasBlank : Bool) → Cursor →
      Option (List Char × List Char × List Char × Cursor)
  | 0, _, _, _, _, _ => none
  | fuel + 1, done, firstBreak, breaks, wasBlank, c =>
    if c.column ≠ indent || c.rest.isEmpty then some (done, firstBreak, breaks, c)
    else
      let isBlankLine := c.isBlankAt 0
      let joint :=
        if !literal && firstBreak == ['\n'] && !wasBlank && !isBlankLine then
          (if breaks.isEmpty then [' '] else [])
        else firstBreak
      let text := c.rest.takeWhile fun ch => !isBreak ch
      let done := text.reverse ++ breaks.reverse ++ joint.reverse ++ done
      let (firstBreak, next) := c.skipLine.takeBreak
      match blockBreaks? indent (next.rest.length + 1) 0 [] next with
      | none => none
      | some (_, breaks, next) =>
        blockLines? literal indent fuel done firstBreak breaks isBlankLine next

/-- Reads a block scalar from behind its indicator, inside a block of the given indentation. -/
def blockScalar? (literal : Bool) (outer : Int) (c : Cursor) : Option (String × Cursor) := do
  let (chomping, increment, c) ← blockHeader? c
  let c := c.skipWhile isBlank
  let c := if c.peek? == some '#' then c.skipLine else c
  if !c.isLineEnd then none
  let c := c.takeBreak.2
  let indent := if increment = 0 then 0 else (max outer 0).toNat + increment
  let (deepest, breaks, c) ← blockBreaks? indent (c.rest.length + 1) 0 [] c
  let indent := if indent = 0 then max deepest (max (outer + 1) 1).toNat else indent
  let (done, firstBreak, breaks, c) ←
    blockLines? literal indent (c.rest.length + 1) [] [] breaks false c
  let ending := match chomping with
    | .strip => []
    | .clip => firstBreak
    | .keep => firstBreak ++ breaks
  return (String.ofList (done.reverse ++ ending), c)

end Sweep.Yaml
