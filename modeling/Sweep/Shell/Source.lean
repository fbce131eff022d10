import Sweep.Shell.Octets

/-!
# Scripts

A script is made up of commands, a command of words, and a word of pieces: bytes that stand for
themselves, and expansions that are replaced by values when the command is carried out. Scripts are
written in one of two dialects: that of the standard shell, and a richer one.
-/

namespace Sweep.Shell

inductive Dialect where
  | sh
  | bash
deriving DecidableEq, Repr

mutual

/-- A piece of a word. Quoted pieces are neither cut into fields nor taken for patterns. -/
inductive Piece where
  | plain (o : Octets)
  | quoted (o : Octets)
  | parameter (name : String) (index : Index) (use : Use) (isQuoted : Bool)
  /-- What a script prints. -/
  | output (body : Script) (isQuoted : Bool)
  /-- The value of an expression of whole numbers. -/
  | number (expression : List Piece) (isQuoted : Bool)

/-- Which values of a list a parameter stands for. -/
inductive Index where
  | none
  | every
  /-- All values as one text. -/
  | joined
  | position (expression : List Piece)

/-- What is made of the value of a parameter. -/
inductive Use where
  | value
  | length
  /-- Another value if there is none, or also if it is empty. -/
  | orElse (alsoEmpty : Bool) (word : List Piece)
  /-- As `orElse`, and the other value is kept. -/
  | orAssign (alsoEmpty : Bool) (word : List Piece)
  /-- As `orElse`, but the script ends with a message. -/
  | orFail (alsoEmpty : Bool) (word : List Piece)
  /-- Another value if there is one. -/
  | andThen (alsoEmpty : Bool) (word : List Piece)
  | trimStart (longest : Bool) (pattern : List Piece)
  | trimEnd (longest : Bool) (pattern : List Piece)
  /-- A part of the value. -/
  | slice (offset : List Piece) (length : Option (List Piece))
  /-- The value with what fits a pattern replaced, at one place or at all of them. -/
  | replace (place : ReplacePlace) (pattern replacement : List Piece)
  /-- The value with letters of the other case, the first one or all of them. -/
  | recase (upper all : Bool)
  /-- The value of the parameter that the value names. -/
  | indirect
  /-- The positions at which a list has values. -/
  | positions
  /-- No use that is known; the text behind the name is kept for the complaint. -/
  | unknown (text : Octets)

/-- Where a text is replaced. -/
inductive ReplacePlace where
  | first
  | all
  | start
  | finish

/-- Where a command reads from or writes to. -/
inductive Redirection where
  | read (descriptor : Nat) (file : List Piece)
  | write (descriptor : Nat) (file : List Piece)
  | append (descriptor : Nat) (file : List Piece)
  | readWrite (descriptor : Nat) (file : List Piece)
  | duplicate (descriptor : Nat) (source : List Piece)
  /-- Output and messages go to one file. -/
  | writeBoth (isAppended : Bool) (file : List Piece)
  /-- Reads a text that stands further down in the script, given by its number. -/
  | text (descriptor : Nat) (number : Nat)
  /-- Reads a word and a line feed. -/
  | word (descriptor : Nat) (word : List Piece)

/-- A value that is given to a variable. -/
inductive Assignment where
  | single (name : String) (index : Index) (isAdded : Bool) (value : List Piece)
  | list (name : String) (isAdded : Bool) (values : List (List Piece))

/-- A condition between double brackets. -/
inductive Condition where
  | word (w : List Piece)
  | unary (operator : String) (w : List Piece)
  | binary (operator : String) (a b : List Piece)
  | negation (c : Condition)
  | both (a b : Condition)
  | either (a b : Condition)

/-- A script. The numbers are those of lines. -/
inductive Script where
  | empty
  /-- A command: assignments, words and redirections. -/
  | command (line : Nat) (assignments : List Assignment) (words : List (List Piece))
      (redirections : List Redirection)
  | sequence (a b : Script)
  | background (line : Nat) (a : Script)
  | both (a b : Script)
  | either (a b : Script)
  | negation (a : Script)
  /-- Commands each of which reads what the one before it prints. -/
  | pipe (stages : List Script)
  | conditional (condition yes no : Script)
  /-- Repeats a body while a condition holds, or until it does. -/
  | loop (isUntil : Bool) (condition body : Script)
  /-- Repeats a body for each field of some words, or for each argument. -/
  | each (line : Nat) (name : String) (words : Option (List (List Piece))) (body : Script)
  | cases (line : Nat) (word : List Piece) (arms : List (List (List Piece) × Script))
  | subshell (line : Nat) (a : Script) (redirections : List Redirection)
  | define (name : Octets) (body : Script)
  | redirected (line : Nat) (a : Script) (redirections : List Redirection)
  /-- Whether an expression of whole numbers has another value than zero. -/
  | number (line : Nat) (expression : List Piece)
  /-- Repeats a body with expressions at its start, before each round and after it. -/
  | counted (line : Nat) (start condition step : List Piece) (body : Script)
  | condition (line : Nat) (c : Condition)

end

abbrev Word := List Piece

deriving instance Inhabited for Piece, Index, Use, Redirection, Assignment, Condition, Script

def Piece.isQuoted : Piece → Bool
  | .plain _ => false
  | .quoted _ => true
  | .parameter _ _ _ isQuoted | .output _ isQuoted | .number _ isQuoted => isQuoted

/-- The bytes of a piece that stands for itself. -/
def Piece.literal : Piece → Octets
  | .plain o | .quoted o => o
  | _ => []

namespace Word

/-- Whether a part of a word is quoted. -/
def isQuoted (w : Word) : Bool := w.any Piece.isQuoted

/-- The text of a word without quotes and expansions. -/
def bare? (w : Word) : Option Octets :=
  w.foldr (fun p rest =>
    match p, rest with
    | .plain o, some text => some (o ++ text)
    | _, _ => none) (some [])

/-- The bytes of a word with its quotes removed. -/
def literal (w : Word) : Octets := w.flatMap Piece.literal

end Word

/-- A sequence of two scripts, the first of which may be missing. -/
def Script.after (before : Option Script) (next : Script) : Script :=
  match before with
  | some script => .sequence script next
  | none => next

/-! ## The text of a script while it is read

A script is read from its text byte by byte. The lines are counted, since faults and commands name
them, and a backslash at the end of a line joins it to the next one wherever that has a meaning.
Texts that stand in a script behind the line that asks for them are kept under numbers.
-/

/-- The words with a meaning of their own where a command may begin. -/
def reservedWords : List String :=
  ["!", "case", "do", "done", "elif", "else", "esac", "fi", "for", "if", "in", "then", "until",
   "while", "\x7b", "\x7d"]

/-- What a sign of redirection asks for. -/
inductive RedirectionKind where
  | read
  | write
  | append
  | readWrite
  | duplicate
  | writeBoth (isAppended : Bool)
  | text (withoutTabs : Bool)
  | word
deriving DecidableEq, Repr

/-- The parts that the structure of a script is made of. -/
inductive Token where
  | finish
  | newline
  | semicolon
  | background
  | both
  | either
  | pipe (withMessages : Bool)
  | opening
  | closing
  | endOfArm
  | redirection (descriptor : Nat) (kind : RedirectionKind)
  | reserved (name : String)
  | word (w : Word)
  /-- An assignment of a list of values. -/
  | list (name : String) (isAdded : Bool) (values : List Word)
  /-- An expression of whole numbers that stands as a command. -/
  | number (expression : Word)
deriving Inhabited

/-- How a token is shown in a complaint. -/
def Token.shown : Token → String
  | .finish => "end of file"
  | .newline => "newline"
  | .semicolon => "\";\""
  | .background => "\"&\""
  | .both => "\"&&\""
  | .either => "\"||\""
  | .pipe _ => "\"|\""
  | .opening => "\"(\""
  | .closing => "\")\""
  | .endOfArm => "\";;\""
  | .redirection _ _ => "redirection"
  | .reserved name => s!"\"{name}\""
  | .word _ | .list _ _ _ | .number _ => "word"

/-- Whether a token can only stand behind a list of commands. -/
def Token.endsList : Token → Bool
  | .finish | .closing | .endOfArm => true
  | .reserved name => ["do", "done", "elif", "else", "esac", "fi", "then", "\x7d"].contains name
  | _ => false

/-- Why a text is no script. -/
inductive SyntaxCause where
  | unexpected (found : Token) (expected : Option Token)
  | unterminatedQuote
  | unterminatedBackquote
  | missingBrace
  | missingParentheses
  | badLoopVariable
  | badFunctionName
  | badDescriptor

/-- A place in a script that cannot be read. -/
structure SyntaxFault where
  line : Nat
  cause : SyntaxCause

def SyntaxCause.message : SyntaxCause → String
  | .unexpected found none => found.shown ++ " unexpected"
  | .unexpected found (some expected) =>
    found.shown ++ " unexpected (expecting " ++ expected.shown ++ ")"
  | .unterminatedQuote => "Unterminated quoted string"
  | .unterminatedBackquote => "EOF in backquote substitution"
  | .missingBrace => "Missing '\x7d'"
  | .missingParentheses => "Missing '))'"
  | .badLoopVariable => "Bad for loop variable"
  | .badFunctionName => "Bad function name"
  | .badDescriptor => "Bad fd number"

/-- A text that is asked for, to be found behind the current line. -/
structure AwaitedText where
  number : Nat
  /-- The line that ends it. -/
  delimiter : Octets
  isQuoted : Bool
  withoutTabs : Bool

/-- The rest of the text of a script. -/
structure Source where
  dialect : Dialect := .sh
  rest : Octets
  line : Nat := 1
  /-- The token read last, and whether it is to be read again. -/
  last : Token := .newline
  isPushedBack : Bool := false
  /-- The number of the next text that is asked for. -/
  nextText : Nat := 0
  awaited : List AwaitedText := []
  texts : List (Nat × Word) := []
deriving Inhabited

abbrev ReadM := StateT Source (Except SyntaxFault)

namespace Source

def fail {α : Type} (cause : SyntaxCause) : ReadM α := do
  throw { line := (← get).line, cause }

def failAtLast {α : Type} (expected : Option Token := none) : ReadM α := do
  fail (.unexpected (← get).last expected)

/-- A text without the joints of lines at its start, and how many there were. -/
def withoutJoints : Octets → Octets × Nat
  | '\\' :: '\n' :: rest =>
    let (rest, n) := withoutJoints rest
    (rest, n + 1)
  | rest => (rest, 0)

/-- Moves over joints of lines. -/
def skipJoints : ReadM Unit := modify fun s =>
  let (rest, n) := withoutJoints s.rest
  { s with rest, line := s.line + n }

/-- The next byte, behind joints of lines. -/
def peek? : ReadM (Option Char) := do
  skipJoints
  return (← get).rest.head?

/-- Moves over one byte. -/
def advance : ReadM Unit := modify fun s =>
  { s with rest := s.rest.drop 1, line := if s.rest.head? == some '\n' then s.line + 1 else s.line }

/-- Moves over a byte if it is the next one. -/
def take? (c : Char) : ReadM Bool := do
  if (← peek?) == some c then
    advance
    return true
  else return false

/-- The bytes up to the first one that does not satisfy a condition, which are moved over. -/
def takeWhile (p : Char → Bool) : ReadM Octets := do
  let s ← get
  let found := s.rest.takeWhile p
  set { s with
    rest := s.rest.drop found.length, line := s.line + (found.filter (· == '\n')).length }
  return found

/-- A bound on the steps that the rest of the text can take. -/
def bound (s : Source) : Nat := 32 * (s.rest.length + 8)

/-- Repeats a step until it has a result. The text bounds the number of the steps. -/
def repeating {σ α : Type} (step : σ → ReadM (σ ⊕ α)) (start : σ) : ReadM α := do
  let rec go : Nat → σ → ReadM α
    | 0, _ => failAtLast
    | fuel + 1, state => do
      match ← step state with
      | .inl next => go fuel next
      | .inr result => return result
  go (← get).bound start

/-- Reads another text on its own, with its lines counted from a given one. -/
def within {α : Type} (text : Octets) (line : Nat) (body : ReadM α) : ReadM α := do
  let outer ← get
  set { outer with rest := text, line, awaited := [], isPushedBack := false }
  let result ← body
  modify fun s => { s with
    rest := outer.rest, line := outer.line, awaited := outer.awaited
    last := outer.last, isPushedBack := outer.isPushedBack }
  return result

/-- As `takeWhile`, but joints of lines between the bytes are passed over. -/
def takeJoined (p : Char → Bool) : ReadM Octets :=
  repeating (fun (found : Octets) => do
    skipJoints
    let more ← takeWhile p
    let (_, joints) := withoutJoints (← get).rest
    let found := found ++ more
    return if joints = 0 then .inr found else .inl found) []

end Source

end Sweep.Shell
