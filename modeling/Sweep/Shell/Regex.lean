import Sweep.Shell.Octets

/-!
# Regular expressions

The expressions with which text tools search lines. Of the matches that begin first the longest one
is taken, and within it every part, from left to right, has matched as much as it can.
-/

namespace Sweep

/-- A regular expression. -/
inductive Regex where
  | empty
  | one (c : Char)
  | any
  | oneOf (s : Glob.ByteClass)
  | start
  | finish
  /-- The edge of a word, or its beginning or end alone, or a place that is no edge. -/
  | wordEdge
  | wordStart
  | wordEnd
  | noWordEdge
  /-- The start and the end of the whole text, also where it has several lines. -/
  | textStart
  | textEnd
  | group (n : Nat) (r : Regex)
  | again (n : Nat)
  | sequence (a b : Regex)
  | choice (a b : Regex)
  /-- At least `least` times, and at most `most` times if that is given. -/
  | repeated (least : Nat) (most : Option Nat) (r : Regex)
deriving Repr, Inhabited

namespace Regex

/-- How an expression is matched. -/
structure Matching where
  ignoreCase : Bool := false
  /-- Whether line feeds in a text divide it into lines with starts and ends of their own. -/
  hasLines : Bool := false
deriving DecidableEq, Repr

def Matching.same (m : Matching) (a b : Char) : Bool :=
  a == b || (m.ignoreCase && a.toLower == b.toLower)

def Matching.isIn (m : Matching) (s : Glob.ByteClass) (c : Char) : Bool :=
  if m.ignoreCase then
    (s.ranges.any fun (a, b) => (a ≤ c && c ≤ b) || (a ≤ c.toLower && c.toLower ≤ b) ||
      (a ≤ c.toUpper && c.toUpper ≤ b)) != s.negated
  else s.contains c

/-- A place in a text: the byte before it, what follows, and what the groups have matched. -/
structure Place where
  before : Option Char
  rest : Octets
  /-- How many bytes follow. -/
  left : Nat
  groups : List (Nat × Octets)
deriving DecidableEq

namespace Place

/-- What group `n` has matched last. -/
def group? (p : Place) (n : Nat) : Option Octets := (p.groups.find? fun g => g.1 == n).map (·.2)

/-- The place after a number of bytes. -/
def forward (p : Place) (n : Nat) : Place :=
  if n = 0 then p
  else { p with before := p.rest[n - 1]?, rest := p.rest.drop n, left := p.left - n }

def isWordChar (c : Char) : Bool := c.isAlphanum || c == '_'

def afterWord (p : Place) : Bool := p.before.any isWordChar

def beforeWord (p : Place) : Bool := p.rest.head?.any isWordChar

end Place

/-- Whether an expression refers back to what a group has matched. -/
def refersBack : Regex → Bool
  | .again _ => true
  | .group _ r | .repeated _ _ r => r.refersBack
  | .sequence a b | .choice a b => a.refersBack || b.refersBack
  | _ => false

/-- Places without those that are reached again with the same groups. -/
def distinctWithGroups : List Place → List Place → List Place
  | _, [] => []
  | seen, p :: rest =>
    if seen.any fun q => q.left == p.left && q.groups == p.groups then distinctWithGroups seen rest
    else p :: distinctWithGroups (p :: seen) rest

/-- Places without those that are reached again. Where nothing refers back to groups, one way to a
place is as good as another. No place has more than the given number of bytes behind it. -/
def distinct (keepsGroups : Bool) (bound : Nat) (ps : List Place) : List Place :=
  match ps with
  | [] | [_] => ps
  | ps =>
    if keepsGroups then distinctWithGroups [] ps
    else
      (ps.foldl (fun (found, seen) p =>
        if seen.getD p.left false then (found, seen)
        else (p :: found, seen.setIfInBounds p.left true))
        (([] : List Place), Array.replicate (bound + 1) false)).1.reverse

/-- Places in the order of what has been matched on the way, the most first. -/
def longestFirst (ps : List Place) : List Place := ps.mergeSort fun p q => p.left ≤ q.left

/-- Which bytes an expression matches, if it always matches one. -/
def single? (m : Matching) : Regex → Option (Char → Bool)
  | .one a => some (m.same a)
  | .any => some fun c => !(m.hasLines && c == '\n')
  | .oneOf s => some (m.isIn s)
  | _ => none

/-- The places that repetitions of single bytes lead to. -/
def repeatedPlaces (ok : Char → Bool) (least : Nat) (most : Option Nat) (p : Place) : List Place :=
  let run := p.rest.takeWhile ok
  let most := match most with
    | some n => min n run.length
    | none => run.length
  if most < least then []
  else (List.range (most + 1 - least)).reverse.map fun i => p.forward (least + i)

/-- The places that a match from a place can lead to. The number bounds the steps. -/
def places (m : Matching) (keepsGroups : Bool) : Nat → Regex → Place → List Place
  | 0, _, _ => []
  | fuel + 1, r, p =>
    let step (ok : Char → Bool) : List Place :=
      match p.rest with
      | c :: _ => if ok c then [p.forward 1] else []
      | [] => []
    let check (holds : Bool) : List Place := if holds then [p] else []
    match r with
    | .empty => [p]
    | .one a => step (m.same a)
    | .any => step fun c => !(m.hasLines && c == '\n')
    | .oneOf s => step (m.isIn s)
    | .start => check (p.before.isNone || (m.hasLines && p.before == some '\n'))
    | .finish => check (p.rest.isEmpty || (m.hasLines && p.rest.head? == some '\n'))
    | .textStart => check p.before.isNone
    | .textEnd => check p.rest.isEmpty
    | .wordEdge => check (p.afterWord != p.beforeWord)
    | .noWordEdge => check (p.afterWord == p.beforeWord)
    | .wordStart => check (!p.afterWord && p.beforeWord)
    | .wordEnd => check (p.afterWord && !p.beforeWord)
    | .group n inner => (places m keepsGroups fuel inner p).map fun q =>
      { q with groups := (n, p.rest.take (p.left - q.left)) :: q.groups }
    | .again n =>
      match p.group? n with
      | some text =>
        let found := p.rest.take text.length
        if found.length == text.length && (found.zip text).all fun (a, b) => m.same a b then
          [p.forward text.length]
        else []
      | none => []
    | .sequence a b =>
      let found := (places m keepsGroups fuel a p).flatMap (places m keepsGroups fuel b)
      distinct keepsGroups p.left found
    | .choice a b =>
      let found := places m keepsGroups fuel a p ++ places m keepsGroups fuel b p
      distinct keepsGroups p.left (longestFirst found)
    | .repeated least most inner =>
      match single? m inner with
      | some ok => repeatedPlaces ok least most p
      | none =>
      let more : List Place :=
        if most == some 0 then []
        else ((places m keepsGroups fuel inner p).filter fun q =>
            decide (q.left < p.left) || decide (0 < least)).flatMap
          (places m keepsGroups fuel (.repeated (least - 1) (most.map (· - 1)) inner))
      distinct keepsGroups p.left (longestFirst (more ++ (if least = 0 then [p] else [])))

/-- A match in a text: what stands before it, the matched text, what follows it, and the groups. -/
structure Match where
  before : Octets
  matched : Octets
  after : Octets
  groups : List (Nat × Octets)
deriving DecidableEq

def size : Regex → Nat
  | .group _ r => r.size + 1
  | .sequence a b => a.size + b.size + 1
  | .choice a b => a.size + b.size + 1
  | .repeated least _ r => r.size + least + 1
  | _ => 1

def longest? : List Place → Option Place
  | [] => none
  | p :: rest =>
    match longest? rest with
    | some q => if q.left < p.left then some q else some p
    | none => some p

/-- The first match from a place on whose start and end are accepted. -/
def search (m : Matching) (keepsGroups : Bool) (accepts : Place → Place → Bool) (r : Regex)
    (before rest : Octets) : Option Match :=
  let start : Place := { before := before.head?, rest, left := rest.length, groups := [] }
  let ends := places m keepsGroups (r.size * 2 + rest.length * 2 + 8) r start
  match longest? (ends.filter (accepts start)) with
  | some q =>
    some ⟨before.reverse, rest.take (start.left - q.left), q.rest, q.groups⟩
  | none =>
    match rest with
    | [] => none
    | c :: next => search m keepsGroups accepts r (c :: before) next
termination_by rest.length

/-- The first match behind some bytes, which are given from their end. -/
def findAfter? (m : Matching) (r : Regex) (before rest : Octets) : Option Match :=
  search m r.refersBack (fun _ _ => true) r before rest

/-- The first match in a line. -/
def find? (m : Matching) (r : Regex) (line : Octets) : Option Match := findAfter? m r [] line

/-- The first match behind some bytes that is a word of its own. -/
def findWordAfter? (m : Matching) (r : Regex) (before rest : Octets) : Option Match :=
  search m r.refersBack (fun p q => !p.afterWord && !q.beforeWord) r before rest

def matchStart? (m : Matching) (r : Regex) (text : Octets) : Option Match :=
  let start : Place := { before := none, rest := text, left := text.length, groups := [] }
  (longest? (places m r.refersBack (r.size * 2 + text.length * 2 + 8) r start)).map fun q =>
    ⟨[], text.take (start.left - q.left), q.rest, q.groups⟩

def matchesWhole (m : Matching) (r : Regex) (line : Octets) : Bool :=
  (r.matchStart? m line).any fun found => found.after.isEmpty

def isMatch (m : Matching) (r : Regex) (line : Octets) : Bool := (r.find? m line).isSome

/-- What a group of a match has matched; the whole match counts as group zero. -/
def Match.group? (found : Match) (n : Nat) : Option Octets :=
  if n = 0 then some found.matched else (found.groups.find? fun g => g.1 == n).map (·.2)

/-- An expression for a text that stands for itself. -/
def literal (text : Octets) : Regex := text.foldr (fun c r => .sequence (.one c) r) .empty

end Regex

end Sweep

/-! ## Reading regular expressions

Expressions have a basic and an extended spelling, which differ in the signs that need a backslash
to have a meaning. Some tools let a sign stand for itself where no meaning fits, others refuse it.
-/

namespace Sweep.Regex

/-- How expressions are spelled. -/
structure Grammar where
  isExtended : Bool := false
  /-- Whether a sign without a fitting meaning stands for itself. -/
  isLenient : Bool := false
  /-- What letters after a backslash stand for. -/
  letter : Char → Option Char := fun _ => none
  /-- Whether there are more letters for classes, and groups that are not counted. -/
  isRich : Bool := false

/-- Why a text is no expression. -/
inductive Fault where
  | openBracket
  /-- A bracket with nothing behind it. -/
  | emptyBracket
  | openParenthesis
  | closingParenthesis
  | openBrace
  | badBounds
  | nothingRepeated
  | trailingBackslash
  | badReference
  | badRange
  | badClass
  | tooBig
deriving DecidableEq, Repr

def Fault.message : Fault → String
  | .openBracket => "Unmatched [, [^, [:, [., or [="
  | .emptyBracket => "Invalid regular expression"
  | .openParenthesis => "Unmatched ( or \\("
  | .closingParenthesis => "Unmatched ) or \\)"
  | .openBrace => "Unmatched \\\x7b"
  | .badBounds => "Invalid content of \\\x7b\\\x7d"
  | .nothingRepeated => "Invalid preceding regular expression"
  | .trailingBackslash => "Trailing backslash"
  | .badReference => "Invalid back reference"
  | .badRange => "Invalid range end"
  | .badClass => "Invalid character class name"
  | .tooBig => "Regular expression too big"

/-! ### Brackets -/

/-- A byte between brackets, which may be written with brackets of its own. -/
def bracketByte? (s : Octets) : Option (Char × Octets) :=
  match s with
  | '[' :: '.' :: c :: '.' :: ']' :: rest => some (c, rest)
  | '[' :: '=' :: c :: '=' :: ']' :: rest => some (c, rest)
  | c :: rest => some (c, rest)
  | [] => none

/-- The next item between brackets and what follows it; nothing for the closing bracket. -/
def bracketItem (isFirst : Bool) (s : Octets) :
    Except Fault (Option (List (Char × Char)) × Octets) :=
  let ranged (c : Char) (rest : Octets) : Except Fault (Option (List (Char × Char)) × Octets) :=
    match rest with
    | '-' :: ']' :: _ => .ok (some [(c, c)], rest)
    | '-' :: after =>
      match bracketByte? after with
      | some (d, after) => if d < c then .error .badRange else .ok (some [(c, d)], after)
      | none => .error .openBracket
    | rest => .ok (some [(c, c)], rest)
  match s with
  | '[' :: ':' :: rest =>
    let name := rest.takeWhile Char.isAlpha
    match rest.drop name.length with
    | ':' :: ']' :: rest =>
      match Glob.namedRanges (String.ofList name) with
      | [] => .error .badClass
      | ranges => .ok (some ranges, rest)
    | _ => .error .openBracket
  | ']' :: rest => if isFirst then ranged ']' rest else .ok (none, rest)
  | s =>
    match bracketByte? s with
    | some (c, rest) => ranged c rest
    | none => .error .openBracket

/-- The items between brackets, with a bound on their number. -/
def bracketItems (isFirst : Bool) : Nat → Octets → Except Fault (List (Char × Char) × Octets)
  | 0, _ => .error .openBracket
  | fuel + 1, s => do
    match ← bracketItem isFirst s with
    | (none, rest) => return ([], rest)
    | (some ranges, rest) =>
      let (others, rest) ← bracketItems false fuel rest
      return (ranges ++ others, rest)

/-- A class behind its opening bracket, and what follows it. -/
def bracketed (s : Octets) : Except Fault (Glob.ByteClass × Octets) := do
  match s with
  | [] | ['^'] => .error .emptyBracket
  | '^' :: rest =>
    let (ranges, rest) ← bracketItems true (rest.length + 1) rest
    return (⟨true, ranges⟩, rest)
  | rest =>
    let (ranges, rest) ← bracketItems true (rest.length + 1) rest
    return (⟨false, ranges⟩, rest)

/-! ### Signs -/

inductive Sign where
  | byte (c : Char)
  | atom (r : Regex)
  | caret
  | dollar
  | star
  | plus
  | question
  | opening
  | closing
  | bar
  | openBrace
  | back (n : Nat)
deriving Inhabited

/-- The ranges of the bytes that make up words. -/
def wordRanges : List (Char × Char) := [('a', 'z'), ('A', 'Z'), ('0', '9'), ('_', '_')]

/-- What a letter after a backslash stands for in every spelling. -/
def letterAtom? : Char → Option Regex
  | 'w' => some (.oneOf ⟨false, wordRanges⟩)
  | 'W' => some (.oneOf ⟨true, wordRanges⟩)
  | 's' => some (.oneOf ⟨false, Glob.namedRanges "space"⟩)
  | 'S' => some (.oneOf ⟨true, Glob.namedRanges "space"⟩)
  | 'b' => some .wordEdge
  | 'B' => some .noWordEdge
  | '<' => some .wordStart
  | '>' => some .wordEnd
  | '\x60' => some .textStart
  | '\'' => some .textEnd
  | _ => none

/-- What more letters stand for in the richest spelling. -/
def richAtom? : Char → Option Regex
  | 'd' => some (.oneOf ⟨false, [('0', '9')]⟩)
  | 'D' => some (.oneOf ⟨true, [('0', '9')]⟩)
  | 'h' => some (.oneOf ⟨false, [(' ', ' '), ('\t', '\t')]⟩)
  | 'A' => some .textStart
  | 'z' | 'Z' => some .textEnd
  | 't' => some (.one '\t')
  | 'n' => some (.one '\n')
  | 'r' => some (.one '\r')
  | 'f' => some (.one '\x0c')
  | 'e' => some (.one '\x1b')
  | _ => none

/-- The sign that a byte is where it has a meaning. -/
def operator? : Char → Option Sign
  | '+' => some .plus
  | '?' => some .question
  | '(' => some .opening
  | ')' => some .closing
  | '|' => some .bar
  | '\x7b' => some .openBrace
  | _ => none

/-- The sign at the start of a text, and what follows it. -/
def sign? (g : Grammar) (s : Octets) : Except Fault (Option (Sign × Octets)) := do
  match s with
  | [] => return none
  | ['\\'] => .error .trailingBackslash
  | '\\' :: c :: rest =>
    if '1' ≤ c && c ≤ '9' then return some (.back (c.toNat - '0'.toNat), rest)
    else
      match g.letter c with
      | some b => return some (.byte b, rest)
      | none =>
        match (if g.isRich then richAtom? c else none).or (letterAtom? c) with
        | some r => return some (.atom r, rest)
        | none =>
          let sign := if g.isExtended then none else operator? c
          return some (sign.getD (.byte c), rest)
  | '[' :: rest =>
    let (found, rest) ← bracketed rest
    return some (.atom (.oneOf found), rest)
  | '.' :: rest => return some (.atom .any, rest)
  | '*' :: rest => return some (.star, rest)
  | '^' :: rest => return some (.caret, rest)
  | '$' :: rest => return some (.dollar, rest)
  | c :: rest =>
    let sign := if g.isExtended then operator? c else none
    return some (sign.getD (.byte c), rest)

/-- The most times that a repetition may ask for. -/
def maxRepetition : Nat := 32767

/-- The bounds of a repetition behind its opening brace, and what follows them. -/
def bounds (g : Grammar) (s : Octets) : Except Fault (Nat × Option Nat × Octets) :=
  let closing : Octets := if g.isExtended then ['\x7d'] else ['\\', '\x7d']
  let number (s : Octets) : Option Nat × Octets :=
    let digits := s.takeWhile Char.isDigit
    (if digits.isEmpty then none else some (Octets.digitsValue digits), s.drop digits.length)
  let (least, rest) := number s
  let (most, hasComma, rest) : Option Nat × Bool × Octets :=
    match rest with
    | ',' :: rest =>
      let (most, rest) := number rest
      (most, true, rest)
    | rest => (least, false, rest)
  if rest.isEmpty || (!g.isExtended && rest == ['\\']) then .error .openBrace
  else if !closing.isPrefixOf rest || (least.isNone && !hasComma) then .error .badBounds
  else if most.any fun n => n < least.getD 0 then .error .badBounds
  else if (least.any fun n => maxRepetition < n) || most.any fun n => maxRepetition < n then
    .error .tooBig
  else .ok (least.getD 0, most, rest.drop closing.length)

/-! ### Structure -/

/-- An expression while it is read: what the branch consists of so far, the groups that have been
opened, and what follows. -/
structure Reading where
  before : Regex := .empty
  groups : Nat
  rest : Octets

/-- Reads the signs of repetition behind an item, with a bound on their number. -/
def repetitions (g : Grammar) : Nat → Regex → Octets → Except Fault (Regex × Octets)
  | 0, item, s => .ok (item, s)
  | fuel + 1, item, s => do
    match s with
    | ['\\'] => return (item, s)
    | _ =>
      match ← sign? g s with
      | some (.star, rest) => repetitions g fuel (.repeated 0 none item) rest
      | some (.plus, rest) => repetitions g fuel (.repeated 1 none item) rest
      | some (.question, rest) => repetitions g fuel (.repeated 0 (some 1) item) rest
      | some (.openBrace, rest) =>
        match bounds g rest with
        | .ok (least, most, rest) => repetitions g fuel (.repeated least most item) rest
        | .error fault =>
          if g.isExtended && g.isLenient && fault != .tooBig && !isOrdered rest then
            return (item, s)
          else .error fault
      | _ => return (item, s)
where
  /-- Whether bounds are well written but in the wrong order. -/
  isOrdered (s : Octets) : Bool :=
    let inside := s.takeWhile (· != '\x7d')
    inside.length < s.length && inside.contains ',' && inside.all fun c => c.isDigit || c == ','

mutual

def alternatives (g : Grammar) : Nat → Nat → Nat → Octets → Except Fault Reading
  | 0, _, _, _ => .error .tooBig
  | fuel + 1, depth, groups, s => do
    let first ← branch g fuel depth true { groups, rest := s }
    match ← sign? g first.rest with
    | some (.bar, rest) =>
      let others ← alternatives g fuel depth first.groups rest
      return { others with before := .choice first.before others.before }
    | _ => return first

/-- Reads items one after the other. -/
def branch (g : Grammar) : Nat → Nat → Bool → Reading → Except Fault Reading
  | 0, _, _, _ => .error .tooBig
  | fuel + 1, depth, isFirst, r => do
    let add (item : Regex) (groups : Nat) (rest : Octets) : Except Fault Reading := do
      let (item, rest) ← repetitions g (rest.length + 1) item rest
      branch g fuel depth false { before := .sequence r.before item, groups, rest }
    let place (item : Regex) (rest : Octets) (isFirst : Bool) : Except Fault Reading :=
      branch g fuel depth isFirst { r with before := .sequence r.before item, rest }
    let starless (c : Char) (rest : Octets) : Except Fault Reading :=
      if !g.isExtended then add (.one c) r.groups rest
      else if g.isLenient then branch g fuel depth isFirst { r with rest }
      else .error .nothingRepeated
    match ← sign? g r.rest with
    | none => return r
    | some (sign, rest) =>
      match sign with
      | .bar => return r
      | .closing =>
        if 0 < depth then return r
        else if g.isExtended && g.isLenient then add (.one ')') r.groups rest
        else .error .closingParenthesis
      | .opening =>
        let isCounted := !(g.isRich && "?:".toList.isPrefixOf rest)
        let n := if isCounted then r.groups + 1 else r.groups
        let inside ← alternatives g fuel (depth + 1) n (if isCounted then rest else rest.drop 2)
        let item := if isCounted then Regex.group n inside.before else inside.before
        match ← sign? g inside.rest with
        | some (.closing, rest) => add item inside.groups rest
        | _ => .error .openParenthesis
      | .caret =>
        if g.isExtended then
          match ← sign? g rest with
          | some (.star, after) =>
            if g.isLenient then place .start after false else .error .nothingRepeated
          | _ => place .start rest true
        else if isFirst then place .start rest true
        else add (.one '^') r.groups rest
      | .dollar =>
        let endsHere : Bool :=
          match rest with
          | [] => true
          | '\\' :: ')' :: _ | '\\' :: '|' :: _ => true
          | _ => false
        if g.isExtended || endsHere then place .finish rest false
        else add (.one '$') r.groups rest
      | .star => if isFirst then starless '*' rest else .error .nothingRepeated
      | .plus => if isFirst then starless '+' rest else .error .nothingRepeated
      | .question => if isFirst then starless '?' rest else .error .nothingRepeated
      | .openBrace =>
        if isFirst && !g.isLenient then .error .nothingRepeated
        else add (.one '\x7b') r.groups rest
      | .back n =>
        if n ≤ r.groups then add (.again n) r.groups rest else .error .badReference
      | .atom a => add a r.groups rest
      | .byte c => add (.one c) r.groups rest

end

/-- Reads an expression; the number of its groups. -/
def read (g : Grammar) (o : Octets) : Except Fault (Regex × Nat) := do
  let r ← alternatives g (4 * (o.length + 4)) 0 0 o
  return (r.before, r.groups)

end Sweep.Regex
