import Sweep.Document.Basic
import Sweep.Number.Reading

/-!
# Reading data values

`Json.document?` cuts a text that is one value into its parts; records keep the order and the
repetitions of their fields. `Json.parse?` then takes the value.

Some parts have the form of a value but hold none: a number too large for a double, a text with half
a pair of surrogates, and whatever is nested more than 127 levels deep. They stay in the document as
unreadable parts, so that a field that nobody asks for may hold them.

A number without point and exponent that fits into 64 bits is an integer. Any other is a double: of
its digits those are kept that fit into an unsigned number of 64 bits, the others are counted, and
the number so formed is multiplied or divided by a power of ten.
-/

namespace Sweep.Json

/-- White space between the parts of a value. -/
def isSpace (c : Char) : Bool :=
  c == ' ' || c == '\n' || c == '\t' || c == '\r'

def skipSpace (s : List Char) : List Char :=
  s.dropWhile isSpace

/-- The value of a hexadecimal digit of either case. -/
def hexValue? (c : Char) : Option Nat :=
  if c.isDigit then some (c.toNat - '0'.toNat)
  else if 'a' ≤ c ∧ c ≤ 'f' then some (c.toNat - 'a'.toNat + 10)
  else if 'A' ≤ c ∧ c ≤ 'F' then some (c.toNat - 'A'.toNat + 10)
  else none

/-- The number that four hexadecimal digits name. -/
def hexValue4? (a b c d : Char) : Option Nat := do
  let a ← hexValue? a
  let b ← hexValue? b
  let c ← hexValue? c
  let d ← hexValue? d
  return ((a * 16 + b) * 16 + c) * 16 + d

/-- The character that an escape of one letter stands for. -/
def simpleEscape? : Char → Option Char
  | '"' => some '"'
  | '\\' => some '\\'
  | '/' => some '/'
  | 'b' => some '\x08'
  | 'f' => some '\x0c'
  | 'n' => some '\n'
  | 'r' => some '\r'
  | 't' => some '\t'
  | _ => none

/-- The character of a pair of surrogates. -/
def surrogatePair (high low : Nat) : Char :=
  Char.ofNat (0x10000 + (high - 0xD800) * 0x400 + (low - 0xDC00))

/-- A piece of a quoted text: a character, or an escape that is half a pair of surrogates. -/
inductive Piece where
  | char (c : Char)
  | half (n : Nat)

def Piece.ofNumber (n : Nat) : Piece :=
  if 0xD800 ≤ n ∧ n ≤ 0xDFFF then .half n else .char (Char.ofNat n)

/-- Reads a quoted text from behind its opening quote. The pieces, also those read so far, are held
in reverse. -/
def pieces? : List Piece → List Char → Option (List Piece × List Char)
  | done, '"' :: rest => some (done, rest)
  | done, '\\' :: 'u' :: a :: b :: c :: d :: rest =>
    match hexValue4? a b c d with
    | none => none
    | some n => pieces? (.ofNumber n :: done) rest
  | done, '\\' :: e :: rest =>
    match simpleEscape? e with
    | none => none
    | some c => pieces? (.char c :: done) rest
  | done, c :: rest => if c.toNat < 0x20 then none else pieces? (.char c :: done) rest
  | _, [] => none

/-- The text of pieces in reverse, before the characters already joined. Every half has to belong to
a pair. -/
def joinPieces? : List Piece → List Char → Option (List Char)
  | [], joined => some joined
  | .char c :: rest, joined => joinPieces? rest (c :: joined)
  | .half low :: .half high :: rest, joined =>
    if high < 0xDC00 ∧ 0xDC00 ≤ low then joinPieces? rest (surrogatePair high low :: joined)
    else none
  | .half _ :: _, _ => none

/-- Reads a quoted text from behind its opening quote, as a part of a document. -/
def quotedText? (s : List Char) : Option (Document × List Char) :=
  (pieces? [] s).map fun (pieces, rest) =>
    (((joinPieces? pieces []).map fun s => .text (String.ofList s)).getD .unreadable, rest)

/-- The greatest unsigned number of 64 bits. -/
def maxUnsigned : Nat := 1 <<< 64 - 1

/-- Appends digits to a significand as long as it stays within 64 bits. The result holds the number
of digits that did not fit. -/
def appendDigits (significand : Nat) : List Char → Nat × Nat
  | [] => (significand, 0)
  | c :: rest =>
    let next := 10 * significand + (c.toNat - '0'.toNat)
    if next ≤ maxUnsigned then appendDigits next rest else (significand, rest.length + 1)

/-- The double of a significand and a power of ten, unless it is too large. -/
def scaledDouble? (negative : Bool) (significand : Nat) (exponent : Int) : Option Binary64 :=
  let power (e : Int) := Binary64.ofDecimal false 1 e
  let start := Binary64.ofInt significand
  let magnitude : Option Binary64 :=
    if significand = 0 then some Binary64.zero
    else if 308 < exponent then none
    else if 0 ≤ exponent then
      let product := start * power exponent
      if product.isFinite then some product else none
    else if -308 ≤ exponent then some (start / power (-exponent))
    else if -616 ≤ exponent then some (start / power 308 / power (-exponent - 308))
    else some Binary64.zero
  magnitude.map fun x => ⟨negative, x.magnitude⟩

/-- The exponent at the start of a text, if there is one and it is complete. -/
def exponent? : List Char → Option (Option Int × List Char)
  | c :: rest =>
    if c == 'e' || c == 'E' then
      let (negative, rest) := Number.takeSign rest
      match Number.spanDigits rest with
      | ([], _) => none
      | (digits, rest) =>
        let n : Int := Number.digitsValue digits
        some (some (if negative then -n else n), rest)
    else some (none, c :: rest)
  | [] => some (none, [])

/-- The digits after a point at the start of a text, if there is one and it is complete. -/
def fraction? : List Char → Option (Option (List Char) × List Char)
  | '.' :: rest =>
    match Number.spanDigits rest with
    | ([], _) => none
    | (digits, rest) => some (some digits, rest)
  | rest => some (none, rest)

/-- The number that whole digits, fraction and exponent make up. -/
def numberOfParts? (negative : Bool) (whole : List Char) (fraction : Option (List Char))
    (exponent : Option Int) : Option JsonNumber :=
  let (significand, dropped) := appendDigits 0 whole
  match fraction, exponent with
  | none, none =>
    if dropped = 0 then
      if !negative then some (.integer significand)
      else if 0 < significand && significand ≤ 1 <<< 63 then some (.integer (-significand))
      else some (.double ⟨true, (Binary64.ofInt significand).magnitude⟩)
    else (scaledDouble? negative significand dropped).map .double
  | _, _ =>
    let digits := fraction.getD []
    let (significand, unread) := appendDigits significand digits
    let shift : Int := (dropped : Int) - (digits.length - unread : Nat) + exponent.getD 0
    (scaledDouble? negative significand shift).map .double

/-- Reads a number at the start of a text. Only a zero that stands alone may come first. There is
none of a size that a double cannot have. -/
def number? (s : List Char) : Option (Option JsonNumber × List Char) :=
  let (negative, rest) :=
    match s with
    | '-' :: rest => (true, rest)
    | rest => (false, rest)
  let (whole, rest) := Number.spanDigits rest
  if whole.isEmpty || (whole.head? == some '0' && whole.length != 1) then none
  else do
    let (fraction, rest) ← fraction? rest
    let (exponent, rest) ← exponent? rest
    return (numberOfParts? negative whole fraction exponent, rest)

/-- Reads a value that is neither a list nor a record. -/
def scalar? : List Char → Option (Document × List Char)
  | 'n' :: 'u' :: 'l' :: 'l' :: rest => some (.null, rest)
  | 't' :: 'r' :: 'u' :: 'e' :: rest => some (.bool true, rest)
  | 'f' :: 'a' :: 'l' :: 's' :: 'e' :: rest => some (.bool false, rest)
  | '"' :: rest => quotedText? rest
  | rest => (number? rest).map fun (n, rest) => ((n.map .number).getD .unreadable, rest)

/-- Reads the items of a list up to its bracket, given the reader of one item. The fuel bounds the
number of items. -/
def items? (value? : List Char → Option (Document × List Char)) :
    Nat → List Document → List Char → Option (List Document × List Char)
  | 0, _, _ => none
  | fuel + 1, done, s =>
    match value? s with
    | none => none
    | some (item, rest) =>
      match skipSpace rest with
      | ',' :: rest => items? value? fuel (item :: done) rest
      | ']' :: rest => some ((item :: done).reverse, rest)
      | _ => none

/-- Reads the fields of a record up to its bracket, given the reader of one value. The fuel bounds
the number of fields. -/
def fields? (value? : List Char → Option (Document × List Char)) :
    Nat → List (Document × Document) → List Char → Option (List (Document × Document) × List Char)
  | 0, _, _ => none
  | fuel + 1, done, s =>
    match skipSpace s with
    | '"' :: rest =>
      match quotedText? rest with
      | none => none
      | some (name, rest) =>
        match skipSpace rest with
        | ':' :: rest =>
          match value? rest with
          | none => none
          | some (value, rest) =>
            match skipSpace rest with
            | ',' :: rest => fields? value? fuel ((name, value) :: done) rest
            | '\x7d' :: rest => some (((name, value) :: done).reverse, rest)
            | _ => none
        | _ => none
    | _ => none

/-- Reads a value at the start of a text, white space before it included. The fuel bounds how deep
it is nested; `levels` is the number of levels of it that are readable. -/
def value? : (fuel : Nat) → (levels : Nat) → List Char → Option (Document × List Char)
  | 0, _, s => scalar? (skipSpace s)
  | fuel + 1, levels, s =>
    let within (d : Document) : Document := if levels = 0 then .unreadable else d
    match skipSpace s with
    | '[' :: rest =>
      match skipSpace rest with
      | ']' :: rest => some (within (.list []), rest)
      | _ => (items? (value? fuel (levels - 1)) rest.length [] rest).map fun (items, rest) =>
          (within (.list items), rest)
    | '\x7b' :: rest =>
      match skipSpace rest with
      | '\x7d' :: rest => some (within (.record []), rest)
      | _ => (fields? (value? fuel (levels - 1)) rest.length [] rest).map fun (fields, rest) =>
          (within (.record fields), rest)
    | s => scalar? s

/-- How many lists and records may contain one another. -/
def maxDepth : Nat := 127

/-- Cuts a text that is one value into its parts. -/
def documentOfChars? (s : List Char) : Option Document :=
  match value? s.length maxDepth s with
  | some (d, rest) => if (skipSpace rest).isEmpty then some d else none
  | none => none

/-- Cuts a string that is one value into its parts. -/
def document? (s : String) : Option Document :=
  documentOfChars? s.toList

/-- Reads the value that takes up a whole string. The fields of its records are put in order; of
several fields of one name the last is kept. -/
def parse? (s : String) : Option Json :=
  (document? s).bind Document.value?

end Sweep.Json
