import Sweep.Shell.Awk.Value
import Sweep.Shell.Regex

/-!
# Record programs

Programs that work on records and their fields. A program consists of rules, each a pattern and what
is done with the records that it selects, and of functions.
-/

namespace Sweep.Awk

inductive Operation where
  | add
  | subtract
  | multiply
  | divide
  | remainder
  | power
deriving DecidableEq, Repr

inductive Comparison where
  | equal
  | notEqual
  | less
  | lessOrEqual
  | greater
  | greaterOrEqual
deriving DecidableEq, Repr

/-- Where a record is taken from that a program asks for. -/
inductive RecordSource where
  /-- The records that the rules work on. -/
  | main
  | file
  | command
deriving DecidableEq, Repr

/-- Where the output of a statement goes. -/
inductive OutputKind where
  | file
  /-- The end of a file. -/
  | appended
  | command
deriving DecidableEq, Repr

inductive Expression where
  | number (x : Float)
  | text (o : Octets)
  /-- Whether the record is matched; the spelling is kept. -/
  | matchesRecord (spelling : Octets) (r : Regex)
  | variable_ (name : String)
  | field (position : Expression)
  | element (array : String) (subscripts : List Expression)
  /-- Expressions in parentheses; only output statements and tests for elements have several. -/
  | group (es : List Expression)
  | assign (place : Expression) (operation : Option Operation) (value : Expression)
  /-- Adds a number to a place; the flag says whether the value from before is the result. -/
  | step (place : Expression) (amount : Float) (isAfter : Bool)
  | condition (test yes no : Expression)
  | either (a b : Expression)
  | both (a b : Expression)
  | isElement (subscripts : List Expression) (array : String)
  | isMatch (text pattern : Expression) (isNegated : Bool)
  | compare (c : Comparison) (a b : Expression)
  | join (a b : Expression)
  | operate (operation : Operation) (a b : Expression)
  | not (e : Expression)
  | negative (e : Expression)
  | positive (e : Expression)
  | builtin (name : String) (arguments : List Expression)
  | call (function : String) (arguments : List Expression)
  /-- Reads a record into a place, or makes it the current one. -/
  | read (source : RecordSource) (name : Option Expression) (place : Option Expression)
deriving Inhabited

/-- Whether something can be assigned to an expression. -/
def Expression.isPlace : Expression → Bool
  | .variable_ _ | .field _ | .element _ _ => true
  | _ => false

inductive Statement where
  | nothing
  | block (body : List Statement)
  | expression (e : Expression)
  /-- Prints values, or as the first one says. -/
  | print (isFormatted : Bool) (arguments : List Expression)
      (output : Option (OutputKind × Expression))
  | branch (test : Expression) (yes no : Statement)
  | loop (test : Expression) (body : Statement)
  | loopAfter (body : Statement) (test : Expression)
  | counted (start : Statement) (test : Option Expression) (step body : Statement)
  | each (name array : String) (body : Statement)
  | delete (array : String) (subscripts : Option (List Expression))
  | next
  | nextFile
  | exit (status : Option Expression)
  | return (value : Option Expression)
  | leave
  | continue
deriving Inhabited

/-- Which records a rule is for. -/
inductive Selector where
  | start
  | finish
  | every
  | where_ (test : Expression)
  /-- From a record to another one. -/
  | range (first last : Expression)
deriving Inhabited

structure Rule where
  selector : Selector
  body : Statement

structure Function where
  parameters : List String
  body : Statement
  /-- The parameters that are arrays. -/
  arrays : List String := []
deriving Inhabited

structure Program where
  rules : List Rule := []
  functions : List (String × Function) := []

namespace Program

def function? (p : Program) (name : String) : Option Function :=
  (p.functions.find? fun f => f.1 == name).map (·.2)

/-- Whether there is anything to do with records. -/
def readsRecords (p : Program) : Bool :=
  p.rules.any fun r =>
    match r.selector with
    | .start => false
    | _ => true

end Program

/-! ## Tokens of record programs

A slash begins an expression where no operand stands before it, and is a division otherwise. Line
feeds count as ends of statements, except where a statement cannot end.
-/

inductive Token where
  | number (x : Float) (shown : Octets)
  | text (o : Octets)
  | regex (o : Octets)
  | name (o : Octets)
  /-- A name with a parenthesis right behind it. -/
  | called (o : Octets)
  | keyword (o : String)
  | builtin (o : String)
  | sign (o : String)
  | newline
  /-- The end of a statement before a closing brace. -/
  | implied
  | finish
  /-- A closing brace that closes nothing. -/
  | extra
  | unexpected (c : Char)
  /-- A fault at which reading stops. -/
  | fatal (message : Octets)
deriving Inhabited

def keywords : List String :=
  ["BEGIN", "END", "break", "continue", "delete", "do", "else", "exit", "for", "function",
   "getline", "if", "in", "next", "nextfile", "print", "printf", "return", "while"]

/-- The functions that every program has, with the least and the most arguments that they take. -/
def builtins : List (String × Nat × Nat) :=
  [("length", 0, 1), ("index", 2, 2), ("substr", 2, 3), ("sprintf", 1, 255), ("sin", 1, 1),
   ("cos", 1, 1), ("atan2", 2, 2), ("exp", 1, 1), ("log", 1, 1), ("int", 1, 1), ("sqrt", 1, 1),
   ("rand", 0, 0), ("srand", 0, 1), ("close", 1, 1), ("system", 1, 1), ("toupper", 1, 1),
   ("tolower", 1, 1), ("fflush", 0, 1), ("match", 2, 2), ("split", 2, 3), ("sub", 2, 3),
   ("gsub", 2, 3)]

/-- Signs, the longer ones first. -/
def signs : List String :=
  ["^=", "**", "+=", "-=", "*=", "/=", "%=", "==", "!=", "<=", ">=", "++", "--", "&&", "||", "!~",
   ">>", "\x7b", "\x7d", "(", ")", "[", "]", ";", ",", "+", "-", "*", "/", "%", "^", "!", ">", "<",
   "|", "?", ":", "~", "$", "="]

namespace Token

/-- How a token is shown in a message. -/
def shown : Token → Octets
  | .number _ o | .text o | .name o | .called o => o
  | .regex o => '/' :: o ++ ['/']
  | .keyword o | .builtin o | .sign o => o.toList
  | .newline => "end of line".toList
  | .implied | .extra => ['\x7d']
  | .finish => "end of file".toList
  | .unexpected c => [c]
  | .fatal o => o

/-- Whether a token ends an operand, so that a slash behind it divides. -/
def endsOperand : Token → Bool
  | .number _ _ | .text _ | .regex _ | .name _ | .builtin _ => true
  | .sign s => [")", "]", "++", "--"].contains s
  | _ => false

/-- Whether line feeds behind a token mean nothing. -/
def skipsLines : Token → Bool
  | .sign s => ["\x7b", "\x7d", "&&", "||", ",", ";"].contains s
  | .keyword s => s == "do" || s == "else"
  | .newline => true
  | _ => false

def isSeparator : Token → Bool
  | .newline | .implied => true
  | .sign s => s == ";"
  | _ => false

end Token

/-! ### Texts -/

/-- The byte that a letter behind a backslash stands for. -/
def escapedByte? : Char → Option Char
  | '"' => some '"'
  | '\\' => some '\\'
  | 'a' => some '\x07'
  | 'b' => some '\x08'
  | 'f' => some '\x0c'
  | 'n' => some '\n'
  | 'r' => some '\r'
  | 't' => some '\t'
  | 'v' => some '\x0b'
  | _ => none

/-- A text with its escapes replaced; the number bounds the steps. -/
def unescape : Nat → Octets → Octets
  | 0, o => o
  | _, [] => []
  | fuel + 1, '\\' :: c :: rest =>
    let digits := ((c :: rest).take 3).takeWhile Tool.isOctal
    let hex := (rest.take 2).takeWhile Tool.isHex
    if !digits.isEmpty then Tool.octalByte digits :: unescape fuel ((c :: rest).drop digits.length)
    else if c == 'x' && !hex.isEmpty then
      Char.ofNat (Number.hexValue hex) :: unescape fuel (rest.drop hex.length)
    else
      match escapedByte? c with
      | some b => b :: unescape fuel rest
      | none => '\\' :: c :: unescape fuel rest
  | fuel + 1, c :: rest => c :: unescape fuel rest

def unescaped (o : Octets) : Octets := unescape (o.length + 1) o

/-- A text up to its closing quote, and what follows it; line feeds have to be escaped. -/
def spanText : Octets → Option (Octets × Octets)
  | [] => none
  | '"' :: rest => some ([], rest)
  | '\n' :: _ => none
  | '\\' :: '\n' :: rest => spanText rest
  | '\\' :: c :: rest => (spanText rest).map fun (o, after) => ('\\' :: c :: o, after)
  | c :: rest => (spanText rest).map fun (o, after) => (c :: o, after)

/-- An expression up to its closing slash, which does not count between brackets, and what follows
it. The flags say whether a bracket is open, and whether it was opened just now. -/
def spanRegex : Bool → Bool → Octets → Option (Octets × Octets)
  | _, _, [] => none
  | _, _, '\n' :: _ => none
  | isInside, _, '\\' :: '/' :: rest =>
    (spanRegex isInside false rest).map fun (o, after) => ('/' :: o, after)
  | isInside, _, '\\' :: c :: rest =>
    (spanRegex isInside false rest).map fun (o, after) => ('\\' :: c :: o, after)
  | isInside, isFirst, c :: rest =>
    if c == '/' && !isInside then some ([], rest)
    else
      let next : Bool × Bool :=
        if !isInside then (c == '[', c == '[')
        else if c == ']' && !isFirst then (false, false)
        else (true, isFirst && c == '^')
      (spanRegex next.1 next.2 rest).map fun (o, after) => (c :: o, after)

/-- A number at the start of a text, and what follows it. -/
def spanNumber (s : Octets) : Octets × Octets :=
  let (digits, _, rest) := Number.spanFraction Char.isDigit s
  if digits.isEmpty then ([], s)
  else
    let after := (Number.leadingExponent? 'e' rest).2
    (s.take (s.length - after.length), after)

/-! ### Reading -/

/-- Where the tokens of a text are read. -/
structure Lexing where
  line : Nat := 1
  braces : Nat := 0
  before : Token := .newline

def isNameChar (c : Char) : Bool := c.isAlphanum || c == '_'

/-- What follows blanks, escaped line feeds and comments, and how many lines have ended; line feeds
count as blanks if the flag says so. -/
def skipBlanks (skipsLines : Bool) : Bool → Nat → Octets → Nat × Octets
  | _, lines, [] => (lines, [])
  | true, lines, c :: rest =>
    if c == '\n' then
      if skipsLines then skipBlanks skipsLines false (lines + 1) rest else (lines, c :: rest)
    else skipBlanks skipsLines true lines rest
  | false, lines, '\\' :: '\n' :: rest => skipBlanks skipsLines false (lines + 1) rest
  | false, lines, '\\' :: '\r' :: '\n' :: rest => skipBlanks skipsLines false (lines + 1) rest
  | false, lines, c :: rest =>
    if c == '#' then skipBlanks skipsLines true lines rest
    else if c == '\n' then
      if skipsLines then skipBlanks skipsLines false (lines + 1) rest else (lines, c :: rest)
    else if Octets.isSpace c then skipBlanks skipsLines false lines rest
    else (lines, c :: rest)

def wordToken (o rest : Octets) : Token :=
  let word := String.ofList o
  if keywords.contains word then .keyword word
  else if builtins.any fun b => b.1 == word then .builtin word
  else if rest.head? == some '(' then .called o
  else .name o

/-- The token at the start of a text, and what follows it. -/
def nextToken (x : Lexing) (s : Octets) : Token × Octets :=
  match s with
  | [] => (.finish, [])
  | '\n' :: rest => (.newline, rest)
  | '"' :: rest =>
    match spanText rest with
    | some (o, rest) => (.text (unescaped o), rest)
    | none =>
      let shown := (rest.takeWhile (· != '\n')).take 10
      (.fatal (Octets.told "runaway string constant \"" shown " ..."), [])
  | c :: rest =>
    if c == '/' && !x.before.endsOperand then
      match spanRegex false false rest with
      | some (o, rest) => (.regex o, rest)
      | none =>
        let shown := (rest.takeWhile (· != '\n')).take 10
        (.fatal (Octets.told "runaway regular expression /" shown " ..."), [])
    else if c.isDigit || (c == '.' && rest.head?.any Char.isDigit) then
      let (digits, rest) := spanNumber s
      (.number (leadingFloat digits) digits, rest)
    else if c.isAlpha || c == '_' then
      let word := s.takeWhile isNameChar
      let rest := s.drop word.length
      (wordToken word rest, rest)
    else
      match signs.find? fun o => o.toList.isPrefixOf s with
      | some "**" => (.sign "*", rest)
      | some o => (.sign o, s.drop o.length)
      | none => (.unexpected c, rest)

/-- The tokens of a text with their lines, with a bound on their number. -/
def tokensFrom : Nat → Lexing → Octets → List (Token × Nat)
  | 0, x, _ => [(.finish, x.line)]
  | fuel + 1, x, s =>
    let (lines, s) := skipBlanks x.before.skipsLines false 0 s
    let x := { x with line := x.line + lines }
    let (t, rest) := nextToken x s
    let go (t : Token) (braces : Nat) (rest : Octets) : List (Token × Nat) :=
      (t, x.line) :: tokensFrom fuel { x with before := t, braces } rest
    match t with
    | .finish => [(.finish, x.line)]
    | .fatal _ => [(t, x.line)]
    | .newline => (t, x.line) :: tokensFrom fuel { x with before := t, line := x.line + 1 } rest
    | .sign "\x7b" => go t (x.braces + 1) rest
    | .sign "\x7d" =>
      if x.braces = 0 then
        let rest := match (skipBlanks false false 0 rest).2 with
          | ';' :: after => after
          | _ => rest
        (.extra, x.line) :: tokensFrom fuel { x with before := .extra } rest
      else
        let isClosed : Bool :=
          match x.before with
          | .implied => true
          | .sign "\x7d" => true
          | before => before.isSeparator
        if !isClosed then go .implied x.braces s
        else if x.braces = 1 then
          let after := (skipBlanks false false 0 rest).2
          match after with
          | ';' :: after => go t 0 after
          | _ => go t 0 rest
        else go t (x.braces - 1) rest
    | t => go t x.braces rest

def tokens (s : Octets) : List (Token × Nat) :=
  let s := s ++ ['\n']
  tokensFrom (2 * s.length + 2) {} s

end Sweep.Awk
