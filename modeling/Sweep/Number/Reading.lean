import Sweep.Number.Binary64

/-!
# Reading decimal numbers

A number text is an optional sign followed by digits with at most one point among or around them,
at least one digit in all, and an optional exponent; or, in any mixture of cases, one of the words
`inf`, `infinity` and `nan`. The number read is the nearest one.
-/

namespace Sweep.Number

/-- The digits at the start of a text, and the rest. -/
def spanDigits (s : List Char) : List Char × List Char :=
  s.span Char.isDigit

def digitsValue (digits : List Char) : Nat :=
  digits.foldl (fun n c => 10 * n + (c.toNat - '0'.toNat)) 0

/-- An optional sign at the start of a text: whether it is a minus, and the rest. -/
def takeSign : List Char → Bool × List Char
  | '-' :: rest => (true, rest)
  | '+' :: rest => (false, rest)
  | rest => (false, rest)

/-- An exponent that takes up the whole text, zero for no text. -/
def readExponent? : List Char → Option Int
  | [] => some 0
  | c :: rest =>
    if c == 'e' || c == 'E' then
      let (negative, rest) := takeSign rest
      match spanDigits rest with
      | ([], _) => none
      | (digits, []) =>
        let n : Int := digitsValue digits
        some (if negative then -n else n)
      | _ => none
    else none

/-- A number without its sign. -/
def readUnsigned? (negative : Bool) (s : List Char) : Option Binary64 :=
  let lower := s.map Char.toLower
  if lower = ['i', 'n', 'f'] || lower = ['i', 'n', 'f', 'i', 'n', 'i', 't', 'y'] then
    some ⟨negative, Binary64.infinityMagnitude⟩
  else if lower = ['n', 'a', 'n'] then some Binary64.nan
  else
    let (whole, rest) := spanDigits s
    let (fraction, rest) :=
      match rest with
      | '.' :: rest => spanDigits rest
      | rest => ([], rest)
    if whole.isEmpty && fraction.isEmpty then none
    else (readExponent? rest).map fun exponent =>
      Binary64.ofDecimal negative (digitsValue (whole ++ fraction)) (exponent - fraction.length)

/-- The number that a text names, if all of the text is a number. -/
def readChars? (s : List Char) : Option Binary64 :=
  let (negative, rest) := takeSign s
  readUnsigned? negative rest

/-- The number that a string names, if all of the string is a number. -/
def read? (s : String) : Option Binary64 :=
  readChars? s.toList

end Sweep.Number
