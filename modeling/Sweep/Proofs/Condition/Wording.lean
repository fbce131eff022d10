import Sweep.Condition.Token
import Sweep.Proofs.Number.Notation

/-!
# How conditions are worded

A wording is a condition together with everything that its tree leaves open: how a number is
written, which quotes a text stands in, and whether an operator is a word or a symbol. It is written
down as pieces with single spaces between them. Operands of operators that bind tighter stand in
parentheses: a comparison binds tightest, then `not`, then `and`, then `or`, and what repeats on the
right of `and` or `or` stands in parentheses, too.
-/

namespace Sweep.Condition

open Number

structure Exponent where
  mark : Char
  /-- Whether a sign is written, and whether it is a minus. -/
  sign : Option Bool
  digits : List Char
  isMark : mark = 'e' ∨ mark = 'E'
  allDigits : AllDigits digits
  nonempty : digits ≠ []

namespace Exponent

variable (e : Exponent)

def signChars : List Char :=
  match e.sign with
  | none => []
  | some true => ['-']
  | some false => ['+']

def chars : List Char := e.mark :: (e.signChars ++ e.digits)

def value : Int :=
  let n : Int := digitsValue e.digits
  if e.sign = some true then -n else n

end Exponent

/-- A number that is written out: digits with at most one point among or around them, at least one
digit in all, perhaps a minus and perhaps an exponent. -/
structure Numeral where
  isNegative : Bool
  whole : List Char
  /-- What stands behind the point, if there is a point. -/
  fraction : Option (List Char)
  exponent : Option Exponent
  wholeDigits : AllDigits whole
  fractionDigits : ∀ digits ∈ fraction, AllDigits digits
  nonempty : whole = [] → ∃ digits ∈ fraction, digits ≠ []

namespace Numeral

variable (n : Numeral)

def fractionChars : List Char :=
  match n.fraction with
  | none => []
  | some digits => '.' :: digits

def exponentChars : List Char :=
  match n.exponent with
  | none => []
  | some e => e.chars

/-- A number without its minus. -/
def body : List Char := n.whole ++ (n.fractionChars ++ n.exponentChars)

def chars : List Char := if n.isNegative then '-' :: n.body else n.body

/-- The double that is nearest to the number. -/
def value : Binary64 :=
  let fraction := n.fraction.getD []
  let exponent := (n.exponent.map Exponent.value).getD 0
  Binary64.ofDecimal n.isNegative (digitsValue (n.whole ++ fraction))
    (exponent - fraction.length)

end Numeral

/-- A text in quotes of a kind that it does not hold itself. -/
structure Quoted where
  quote : Char
  content : String
  isQuote : quote = '\'' ∨ quote = '"'
  absent : quote ∉ content.toList

def Quoted.chars (q : Quoted) : List Char := q.quote :: (q.content.toList ++ [q.quote])

/-- A truth value as a word, with a small or a capital letter. -/
structure TruthWord where
  value : Bool
  isCapital : Bool

def TruthWord.chars : TruthWord → List Char
  | ⟨true, false⟩ => ['t', 'r', 'u', 'e']
  | ⟨true, true⟩ => ['T', 'r', 'u', 'e']
  | ⟨false, false⟩ => ['f', 'a', 'l', 's', 'e']
  | ⟨false, true⟩ => ['F', 'a', 'l', 's', 'e']

def reservedWords : List String := ["and", "or", "not", "true", "True", "false", "False"]

/-- A word that is no reserved one. -/
structure Identifier where
  first : Char
  others : List Char
  starts : isWordStart first = true
  continues : ∀ c ∈ others, isWordChar c = true
  free : String.ofList (first :: others) ∉ reservedWords

namespace Identifier

def chars (i : Identifier) : List Char := i.first :: i.others

def name (i : Identifier) : String := String.ofList i.chars

end Identifier

/-- Whether an operator is written as a word or as a symbol. -/
inductive Spelling where
  | word
  | symbol
deriving DecidableEq

/-- A condition as it is written. -/
inductive Wording where
  | number (n : Numeral)
  | text (q : Quoted)
  | truth (t : TruthWord)
  | variable (i : Identifier)
  | not (spelling : Spelling) (operand : Wording)
  | and (spelling : Spelling) (left right : Wording)
  | or (spelling : Spelling) (left right : Wording)
  | compare (left : Wording) (op : Comparison) (right : Wording)
  /-- Parentheses that need not be there. -/
  | group (inner : Wording)

/-- What is written between two spaces. -/
inductive Piece where
  | number (n : Numeral)
  | text (q : Quoted)
  | truth (t : TruthWord)
  | variable (i : Identifier)
  | not (spelling : Spelling)
  | and (spelling : Spelling)
  | or (spelling : Spelling)
  | compare (op : Comparison)
  | opening
  | closing

namespace Piece

def comparisonChars : Comparison → List Char
  | .eq => ['=', '=']
  | .ne => ['!', '=']
  | .lt => ['<']
  | .le => ['<', '=']
  | .gt => ['>']
  | .ge => ['>', '=']

def chars : Piece → List Char
  | .number n => n.chars
  | .text q => q.chars
  | .truth t => t.chars
  | .variable i => i.chars
  | .not .word => ['n', 'o', 't']
  | .not .symbol => ['!']
  | .and .word => ['a', 'n', 'd']
  | .and .symbol => ['&', '&']
  | .or .word => ['o', 'r']
  | .or .symbol => ['|', '|']
  | .compare op => comparisonChars op
  | .opening => ['(']
  | .closing => [')']

def token : Piece → Token
  | .number n => .number n.value
  | .text q => .text q.content
  | .truth t => .truth t.value
  | .variable i => .variable i.name
  | .not _ => .not
  | .and _ => .and
  | .or _ => .or
  | .compare op => .compare op
  | .opening => .opening
  | .closing => .closing

end Piece

namespace Wording

def expr : Wording → Expr
  | .number n => .number n.value
  | .text q => .text q.content
  | .truth t => .truth t.value
  | .variable i => .variable i.name
  | .not _ operand => .not operand.expr
  | .and _ left right => .and left.expr right.expr
  | .or _ left right => .or left.expr right.expr
  | .compare left op right => .compare left.expr op right.expr
  | .group inner => inner.expr

/-- How tight a wording is held together without parentheses around it. -/
def grade : Wording → Nat
  | .or .. => 0
  | .and .. => 1
  | .not .. => 2
  | .compare .. => 3
  | .number _ | .text _ | .truth _ | .variable _ | .group _ => 4

def enclose (needed : Bool) (pieces : List Piece) : List Piece :=
  if needed then .opening :: (pieces ++ [.closing]) else pieces

def pieces : Wording → List Piece
  | .number n => [.number n]
  | .text q => [.text q]
  | .truth t => [.truth t]
  | .variable i => [.variable i]
  | .not spelling operand => .not spelling :: enclose (operand.grade < 2) operand.pieces
  | .and spelling left right =>
    enclose (left.grade < 1) left.pieces ++
      .and spelling :: enclose (right.grade < 2) right.pieces
  | .or spelling left right =>
    left.pieces ++ .or spelling :: enclose (right.grade < 1) right.pieces
  | .compare left op right =>
    enclose (left.grade < 4) left.pieces ++
      .compare op :: enclose (right.grade < 4) right.pieces
  | .group inner => enclose true inner.pieces

def write (w : Wording) : String :=
  String.ofList ([' '].intercalate (w.pieces.map Piece.chars))

end Wording

end Sweep.Condition
