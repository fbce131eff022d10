import Sweep.Shell.Source

/-!
# Reading words

A word ends at a blank or at a sign with a meaning of its own, unless quotes, braces or parentheses
are open. Expansions may hold words and whole scripts again, so the functions here are given the
readers for what lies within.
-/

namespace Sweep.Shell

def isNameStart (c : Char) : Bool := c.isAlpha || c == '_'

def isNameChar (c : Char) : Bool := c.isAlphanum || c == '_'

/-- Whether a text is the name of a variable. -/
def isName (o : Octets) : Bool := (o.head?.any isNameStart) && o.all isNameChar

/-- The bytes that end a word. -/
def isMeta (c : Char) : Bool := " \t\n;&|<>()".toList.contains c

/-- The parameters with names of one byte that is no letter. -/
def isSpecialParameter (c : Char) : Bool := "@*#?$!-".toList.contains c || c.isDigit

/-- What surrounds the pieces that are read. -/
inductive Surroundings where
  | blanks
  | quotes
  /-- Braces around an expansion, which may stand between quotes. -/
  | braces (isQuoted : Bool)
  /-- Lines that a command reads. -/
  | lines
  | number
  | subscript
  /-- As braces, but the word ends at a byte as well, which is left. -/
  | upTo (stop : Char) (isQuoted : Bool)
  /-- An expression of a search. -/
  | expression
deriving DecidableEq, Repr

namespace Surroundings

/-- Whether expansions keep their values in one piece. -/
def isQuoted : Surroundings → Bool
  | .blanks | .expression => false
  | .braces isQuoted | .upTo _ isQuoted => isQuoted
  | .quotes | .lines | .number | .subscript => true

def areBraces : Surroundings → Bool
  | .braces _ | .upTo _ _ => true
  | _ => false

/-- Whether a byte begins something else than itself. -/
def isActive (around : Surroundings) (c : Char) : Bool :=
  c == '\\' || c == '$' || c == '\x60' ||
    match around with
    | .blanks => isMeta c || c == '\'' || c == '"'
    | .expression =>
      c == ' ' || c == '\t' || c == '\n' || c == '\'' || c == '"' || c == '(' || c == ')'
    | .quotes => c == '"'
    | .braces isQuoted => c == '\x7d' || c == '"' || (!isQuoted && c == '\'')
    | .upTo stop isQuoted => c == stop || c == '\x7d' || c == '"' || (!isQuoted && c == '\'')
    | .lines => false
    | .number => c == '(' || c == ')'
    | .subscript => c == ']' || c == '['

/-- Whether a backslash takes the meaning of a byte away. -/
def escapes (around : Surroundings) (c : Char) : Bool :=
  if around.isQuoted then
    c == '\\' || c == '$' || c == '\x60' || (c == '"' && around != .lines) ||
      (c == '\x7d' && around.areBraces)
  else true

/-- What is missing if the text ends here, if anything is. -/
def fault? : Surroundings → Option SyntaxCause
  | .blanks | .lines | .expression => none
  | .quotes | .braces true | .upTo _ true => some .unterminatedQuote
  | .braces false | .upTo _ false | .subscript => some .missingBrace
  | .number => some .missingParentheses

end Surroundings

namespace Word

/-- Adds a piece to a word that is held from its end. -/
def push (p : Piece) (reversed : Word) : Word :=
  match p, reversed with
  | .plain b, .plain a :: rest => .plain (a ++ b) :: rest
  | .quoted b, .quoted a :: rest => .quoted (a ++ b) :: rest
  | p, rest => p :: rest

/-- A word between quotes as a part of another one. Quotes around nothing make an empty word, but
all arguments between quotes may be no word at all. -/
def betweenQuotes (inside : Word) : Word :=
  match inside with
  | [.parameter "@" .none .value true] | [.parameter _ .every .value true] => inside
  | _ => .quoted [] :: inside

end Word

namespace Source

/-- Readers for what lies within a word. -/
structure Inner where
  word : Surroundings → ReadM Word
  /-- A script up to a closing parenthesis, or up to the end of the text. -/
  script : Bool → ReadM Script

/-- Reads a script that stands in a word. -/
def substitution (inner : Inner) (isParenthesized : Bool) : ReadM Script := do
  let outer := (← get).awaited
  modify fun s => { s with awaited := [], isPushedBack := false }
  let body ← inner.script isParenthesized
  modify fun s => { s with awaited := outer, isPushedBack := false }
  return body

def backquotedText (around : Surroundings) : ReadM Octets :=
  repeating (fun (found : Octets) => do
    match ← peek? with
    | none => fail .unterminatedBackquote
    | some c =>
      advance
      if c == '\x60' then return .inr found.reverse
      else if c == '\\' then
        match (← get).rest with
        | next :: _ =>
          advance
          let isEscape := next == '\\' || next == '\x60' || next == '$' ||
            (around.isQuoted && next == '"')
          return .inl (if isEscape then next :: found else next :: '\\' :: found)
        | [] => return .inl ('\\' :: found)
      else return .inl (c :: found)) []

/-- Reads the script between backquotes. -/
def backquoted (inner : Inner) (around : Surroundings) : ReadM Piece := do
  let text ← backquotedText around
  let body ← within text 1 (substitution inner false)
  return .output body around.isQuoted

/-- What follows the name of a parameter where only the richer dialect knows a use. -/
def furtherUse (inner : Inner) (isQuoted : Bool) (c : Char) : ReadM (Option Use) := do
  let word := inner.word (.braces isQuoted)
  let pattern := inner.word (.upTo '/' false)
  match c with
  | '/' =>
    advance
    let place : ReplacePlace ← match ← peek? with
      | some '/' => do
        advance
        pure .all
      | some '#' => do
        advance
        pure .start
      | some '%' => do
        advance
        pure .finish
      | _ => pure .first
    let sought ← pattern
    if (← peek?) == some '/' then
      advance
      return some (.replace place sought (← word))
    else
      advance
      return some (.replace place sought [])
  | '^' | ',' =>
    advance
    let all ← take? c
    if ← take? '\x7d' then return some (.recase (c == '^') all) else return none
  | _ => return none

/-- Reads a part of a value: where it begins, and how long it is. -/
def sliceUse (inner : Inner) : ReadM Use := do
  let offset ← inner.word (.upTo ':' true)
  if (← peek?) == some ':' then
    advance
    return .slice offset (some (← inner.word (.braces true)))
  else
    advance
    return .slice offset none

/-- Reads what follows the name of a parameter in braces. -/
def parameterUse (inner : Inner) (isQuoted : Bool) : ReadM (Option Use) := do
  let word := inner.word (.braces isQuoted)
  let pattern := inner.word (.braces false)
  let alternative (alsoEmpty : Bool) (c : Char) : ReadM (Option Use) := do
    match c with
    | '-' =>
      advance
      return some (.orElse alsoEmpty (← word))
    | '=' =>
      advance
      return some (.orAssign alsoEmpty (← word))
    | '?' =>
      advance
      return some (.orFail alsoEmpty (← word))
    | '+' =>
      advance
      return some (.andThen alsoEmpty (← word))
    | _ => return none
  match ← peek? with
  | none => return none
  | some '\x7d' =>
    advance
    return some .value
  | some '#' =>
    advance
    let longest ← take? '#'
    return some (.trimStart longest (← pattern))
  | some '%' =>
    advance
    let longest ← take? '%'
    return some (.trimEnd longest (← pattern))
  | some ':' =>
    advance
    match ← peek? with
    | none => return none
    | some c =>
      match ← alternative true c with
      | some use => return some use
      | none => if (← get).dialect = .bash then return some (← sliceUse inner) else return none
  | some c =>
    match ← alternative false c with
    | some use => return some use
    | none => if (← get).dialect = .bash then furtherUse inner isQuoted c else return none

def index (inner : Inner) : ReadM Index := do
  if (← get).dialect = .bash && (← peek?) == some '[' then
    advance
    let inside ← inner.word .subscript
    match inside with
    | [.plain ['@']] => return .every
    | [.plain ['*']] => return .joined
    | _ => return .position inside
  else return .none

/-- Reads an expansion between braces. -/
def braced (inner : Inner) (isQuoted : Bool) : ReadM Piece := do
  let start := (← get).rest
  let bad (name : String) : ReadM Piece := do
    let _ ← inner.word (.braces isQuoted)
    let text := start.take (start.length - (← get).rest.length)
    return .parameter name .none (.unknown ("$\x7b".toList ++ text)) isQuoted
  let used (name : String) (index : Index) : ReadM Piece := do
    match ← parameterUse inner isQuoted with
    | some use => return .parameter name index use isQuoted
    | none => bad name
  let named : ReadM (Option String) := do
    match ← peek? with
    | none => return none
    | some c =>
      if isNameStart c then return some (String.ofList (← takeJoined isNameChar))
      else if c.isDigit then return some (String.ofList (← takeJoined Char.isDigit))
      else return none
  match ← named with
  | some name => used name (← index inner)
  | none =>
    match ← peek? with
    | some '#' =>
      advance
      match ← named with
      | some name =>
        let position ← index inner
        if ← take? '\x7d' then return .parameter name position .length isQuoted else bad name
      | none =>
        match (← get).rest with
        | a :: '\x7d' :: _ =>
          if a == '\x7d' || !isSpecialParameter a then used "#" .none
          else
            advance
            advance
            return .parameter a.toString .none .length isQuoted
        | _ => used "#" .none
    | some '!' =>
      advance
      if (← get).dialect = .bash then
        match ← named with
        | some name =>
          match ← index inner with
          | .every | .joined =>
            if ← take? '\x7d' then return .parameter name .every .positions isQuoted else bad name
          | position =>
            if ← take? '\x7d' then return .parameter name position .indirect isQuoted else bad name
        | none => used "!" .none
      else used "!" .none
    | some c =>
      if isSpecialParameter c then
        advance
        used c.toString .none
      else bad ""
    | none => bad ""

/-- The byte of an escape between quotes that follow a dollar sign, and how many bytes it takes. -/
def quotedEscape (rest : Octets) : Octets × Nat :=
  let isOctal (c : Char) : Bool := '0' ≤ c && c ≤ '7'
  let isHex (c : Char) : Bool := c.isDigit || ('a' ≤ c.toLower && c.toLower ≤ 'f')
  let digit (c : Char) : Nat := if c.isDigit then c.toNat - 48 else c.toLower.toNat - 87
  let value (base : Nat) (digits : Octets) : Nat := digits.foldl (fun n c => n * base + digit c) 0
  match rest with
  | 'n' :: _ => (['\n'], 1)
  | 't' :: _ => (['\t'], 1)
  | 'r' :: _ => (['\r'], 1)
  | 'a' :: _ => (['\x07'], 1)
  | 'b' :: _ => (['\x08'], 1)
  | 'f' :: _ => (['\x0c'], 1)
  | 'v' :: _ => (['\x0b'], 1)
  | 'e' :: _ | 'E' :: _ => (['\x1b'], 1)
  | 'x' :: more =>
    let digits := (more.take 2).takeWhile isHex
    if digits.isEmpty then (['\\', 'x'], 1)
    else ([Char.ofNat (value 16 digits)], digits.length + 1)
  | 'u' :: more =>
    let digits := (more.take 4).takeWhile isHex
    if digits.isEmpty then (['\\', 'u'], 1)
    else (Octets.ofString (Char.ofNat (value 16 digits)).toString, digits.length + 1)
  | c :: more =>
    if isOctal c then
      let digits := ((c :: more).take 3).takeWhile isOctal
      ([Char.ofNat (value 8 digits % 256)], digits.length)
    else if c == '\\' || c == '\'' || c == '"' || c == '?' then ([c], 1)
    else (['\\', c], 1)
  | [] => (['\\'], 0)

/-- The text between quotes that follow a dollar sign. -/
def escapedText : ReadM Octets :=
  repeating (fun (found : Octets) => do
    match (← get).rest with
    | [] => fail .unterminatedQuote
    | '\'' :: _ =>
      advance
      return .inr found
    | '\\' :: rest =>
      let (bytes, length) := quotedEscape rest
      for _ in List.range (length + 1) do advance
      return .inl (found ++ bytes)
    | c :: _ =>
      advance
      return .inl (found ++ [c])) []

/-- Reads what a dollar sign begins. -/
def expansion (inner : Inner) (around : Surroundings) : ReadM Word := do
  let isQuoted := around.isQuoted
  match ← peek? with
  | some '(' =>
    advance
    if ← take? '(' then return [.number (← inner.word .number) isQuoted]
    else return [.output (← substitution inner true) isQuoted]
  | some '\x7b' =>
    advance
    return [← braced inner isQuoted]
  | some c =>
    if isNameStart c then
      let name ← takeJoined isNameChar
      return [.parameter (String.ofList name) .none .value isQuoted]
    else if isSpecialParameter c then
      advance
      return [.parameter c.toString .none .value isQuoted]
    else if (← get).dialect = .bash && !isQuoted && c == '\'' then
      advance
      return [.quoted (← escapedText)]
    else if (← get).dialect = .bash && !isQuoted && c == '"' then return []
    else return [if isQuoted then .quoted ['$'] else .plain ['$']]
  | none => return [if isQuoted then .quoted ['$'] else .plain ['$']]

/-- A word while it is read. -/
structure Scan where
  /-- The pieces, the last one first. -/
  found : Word := []
  /-- How many parentheses or brackets are open. -/
  level : Nat := 0

/-- Adds bytes that stand for themselves. -/
def Scan.add (around : Surroundings) (o : Octets) (s : Scan) : Scan :=
  { s with found := Word.push (if around.isQuoted then .quoted o else .plain o) s.found }

def Scan.append (w : Word) (s : Scan) : Scan := { s with found := w.reverse ++ s.found }

/-- Reads the next part of a word, or finds its end. -/
def wordStep (inner : Inner) (around : Surroundings) (s : Scan) : ReadM (Scan ⊕ Word) := do
  let finished : ReadM (Scan ⊕ Word) := return .inr s.found.reverse
  match ← peek? with
  | none =>
    match around.fault? with
    | some cause => fail cause
    | none => finished
  | some c =>
    if !around.isActive c then
      let bytes ← takeWhile fun b => !around.isActive b
      -- Marks of subscripts and expressions count as unquoted.
      if around = .subscript then
        return .inl { s with found := Word.push (.plain bytes) s.found }
      else return .inl (s.add around bytes)
    else if c == '\\' then
      advance
      match (← get).rest with
      | [] => return .inl { s with found := Word.push (.quoted ['\\']) s.found }
      | b :: _ =>
        advance
        let bytes := if around.escapes b then [b] else ['\\', b]
        return .inl { s with found := Word.push (.quoted bytes) s.found }
    else if c == '$' then
      advance
      return .inl (s.append (← expansion inner around))
    else if c == '\x60' then
      advance
      return .inl (s.append [← backquoted inner around])
    else if c == '\'' then
      advance
      let text ← takeWhile (· != '\'')
      if (← get).rest.isEmpty then fail .unterminatedQuote
      advance
      return .inl { s with found := Word.push (.quoted text) s.found }
    else if c == '"' then
      advance
      if around = .quotes then finished
      else return .inl (s.append (Word.betweenQuotes (← inner.word .quotes)))
    else
      match around with
      | .upTo _ _ | .blanks => finished
      | .braces _ =>
        advance
        finished
      | .number =>
        advance
        if c == '(' then return .inl { s.add around ['('] with level := s.level + 1 }
        else if 0 < s.level then return .inl { s.add around [')'] with level := s.level - 1 }
        else if ← take? ')' then finished
        else return .inl (s.add around [')'])
      | .subscript =>
        advance
        if c == '[' then
          return .inl { s with found := Word.push (.plain ['[']) s.found, level := s.level + 1 }
        else if 0 < s.level then
          return .inl { s with found := Word.push (.plain [']']) s.found, level := s.level - 1 }
        else finished
      | .expression =>
        if c == '(' then
          advance
          return .inl { s.add around ['('] with level := s.level + 1 }
        else if 0 < s.level then
          advance
          let level := if c == ')' then s.level - 1 else s.level
          return .inl { s.add around [c] with level }
        else finished
      | .quotes | .lines => finished

/-- Reads a word; the first number bounds the depth of what lies within. -/
def pieces (script : Bool → ReadM Script) : Nat → Surroundings → ReadM Word
  | 0, _ => failAtLast
  | depth + 1, around =>
    repeating (wordStep { word := pieces script depth, script } around) {}

def word (script : Bool → ReadM Script) (around : Surroundings) : ReadM Word := do
  pieces script ((← get).rest.length + 2) around

end Source

end Sweep.Shell
