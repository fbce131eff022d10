import Sweep.Condition.Operand
import Sweep.Number.Reading
import Sweep.Text.Letter

/-!
# The tokens of conditions

The text of a condition is cut into tokens from left to right, each as long as it can be. A word is
an operator or a truth value if it is one of the reserved words, else a variable; so `order` is one
variable, and `1or 2` is a number, an operator and a number. Where no token fits, cutting stops at a
token `unknown`, at which every reader gets stuck.
-/

namespace Sweep.Condition

/-- A token; the spelling of an operator is not kept. -/
inductive Token where
  | number (x : Binary64)
  | text (s : String)
  | truth (b : Bool)
  | variable (name : String)
  | not
  | and
  | or
  | compare (op : Comparison)
  | opening
  | closing
  | unknown
deriving DecidableEq, Repr

/-- A token together with the number of characters from its start to the end of the text. -/
structure Lexeme where
  token : Token
  left : Nat
deriving DecidableEq, Repr

/-- The white space that may stand between two tokens. -/
def isGap (c : Char) : Bool :=
  c == ' ' || c == '\t' || c == '\r' || c == '\n'

/-- A character inside a word. -/
def isWordChar (c : Char) : Bool :=
  Text.isAlphabetic c || Text.isNumeric c || c == '_'

def isWordStart (c : Char) : Bool :=
  Text.isAlphabetic c || c == '_'

def wordToken (word : List Char) : Token :=
  match String.ofList word with
  | "and" => .and
  | "or" => .or
  | "not" => .not
  | "true" | "True" => .truth true
  | "false" | "False" => .truth false
  | name => .variable name

/-- How many characters at the start of a text are digits. -/
def digitCount (s : List Char) : Nat :=
  (s.takeWhile Char.isDigit).length

/-- The length of the exponent at the start of a text, zero if there is no complete one. -/
def exponentLength : List Char → Nat
  | c :: rest =>
    if c == 'e' || c == 'E' then
      match rest with
      | d :: rest' =>
        if d == '+' || d == '-' then
          let n := digitCount rest'
          if n = 0 then 0 else n + 2
        else
          let n := digitCount rest
          if n = 0 then 0 else n + 1
      | [] => 0
    else 0
  | [] => 0

/-- The length of the number without sign at the start of a text, zero if there is none. -/
def unsignedLength (s : List Char) : Nat :=
  let whole := digitCount s
  let fraction :=
    match s.drop whole with
    | '.' :: rest =>
      let n := digitCount rest
      if whole = 0 ∧ n = 0 then 0 else n + 1
    | _ => 0
  let mantissa := whole + fraction
  if mantissa = 0 then 0 else mantissa + exponentLength (s.drop mantissa)

/-- The length of the number at the start of a text, zero if there is none. -/
def numberLength : List Char → Nat
  | '-' :: rest =>
    let n := unsignedLength rest
    if n = 0 then 0 else n + 1
  | s => unsignedLength s

/-- A text up to its closing quote, and how many characters that takes, the quote included. -/
def quotedToken (quote : Char) (s : List Char) : Token × Nat :=
  let body := s.takeWhile (· != quote)
  if body.length < s.length then (.text (String.ofList body), body.length + 1)
  else (.unknown, 0)

/-- The token that starts with a character, and how many of the characters after it belong to it. -/
def token (c : Char) (s : List Char) : Token × Nat :=
  match c, s with
  | '(', _ => (.opening, 0)
  | ')', _ => (.closing, 0)
  | '|', '|' :: _ => (.or, 1)
  | '&', '&' :: _ => (.and, 1)
  | '=', '=' :: _ => (.compare .eq, 1)
  | '!', '=' :: _ => (.compare .ne, 1)
  | '!', _ => (.not, 0)
  | '<', '=' :: _ => (.compare .le, 1)
  | '<', _ => (.compare .lt, 0)
  | '>', '=' :: _ => (.compare .ge, 1)
  | '>', _ => (.compare .gt, 0)
  | '\'', s => quotedToken '\'' s
  | '"', s => quotedToken '"' s
  | c, s =>
    let n := numberLength (c :: s)
    if 0 < n then
      match Number.readChars? (c :: s.take (n - 1)) with
      | some x => (.number x, n - 1)
      | none => (.unknown, 0)
    else if isWordStart c then
      let rest := s.takeWhile isWordChar
      (wordToken (c :: rest), rest.length)
    else (.unknown, 0)

/-- The tokens of a text. -/
def lex : List Char → List Lexeme
  | [] => []
  | c :: s =>
    if isGap c then lex s
    else
      match token c s with
      | (.unknown, _) => [⟨.unknown, s.length + 1⟩]
      | (t, more) => ⟨t, s.length + 1⟩ :: lex (s.drop more)
termination_by s => s.length
decreasing_by
  · simp
  · simp only [List.length_drop, List.length_cons]
    omega

end Sweep.Condition
