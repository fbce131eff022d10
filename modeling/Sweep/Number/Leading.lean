import Sweep.Number.Binary64
import Sweep.Number.Reading

/-!
# Numbers with a chosen number of places

A number with finitely many binary places is printed with a chosen number of decimal ones, rounded
exactly: as a plain decimal, with an exponent, or in whichever of the two forms is the shorter one.
The tools of the shell print their numbers in this way.
-/

namespace Sweep.Number

/-- A number with finitely many binary places, or none. -/
inductive BinaryValue where
  /-- The number `significand * 2 ^ exponent`, with a sign. -/
  | finite (isNegative : Bool) (significand : Nat) (exponent : Int)
  | infinite (isNegative : Bool)
  | nan
deriving DecidableEq, Repr

namespace BinaryValue

/-- How many bits a significand has, and which exponents there are. -/
structure Precision where
  bits : Nat
  leastExponent : Int
  greatestExponent : Int
deriving DecidableEq, Repr

/-- Numbers of 64 bits. -/
def double : Precision := ⟨53, -1074, 971⟩

/-- Numbers of 80 bits. -/
def extended : Precision := ⟨64, -16445, 16320⟩

/-- The quotient of natural numbers, rounded to a number of the given precision. -/
def ofRatio (p : Precision) (isNegative : Bool) (num den : Nat) : BinaryValue :=
  if num = 0 then .finite isNegative 0 0
  else
    let estimate : Int := (num.log2 : Int) - den.log2 - p.bits
    let quotient (e : Int) : Nat × Nat :=
      if 0 ≤ e then (num, den <<< e.toNat) else (num <<< (-e).toNat, den)
    -- The exponent is the least one at which the significand has no more bits than there are.
    let fits (e : Int) : Bool :=
      let (n, d) := quotient e
      n / d < 1 <<< p.bits
    let e := if fits estimate then estimate else estimate + 1
    let e := if fits (e - 1) then e - 1 else e
    let e := max e p.leastExponent
    let (n, d) := quotient e
    let s := roundHalfEven n d
    let (s, e) := if s = 1 <<< p.bits then (s / 2, e + 1) else (s, e)
    if p.greatestExponent < e then .infinite isNegative else .finite isNegative s e

def isNegative : BinaryValue → Bool
  | .finite b _ _ | .infinite b => b
  | .nan => false

/-- The number as a double-precision one of the library. -/
def ofBinary64 (x : Binary64) : BinaryValue :=
  if x.isNaN then .nan
  else if x.isFinite then .finite x.negative x.significand (x.scale - Binary64.unitExponent)
  else .infinite x.negative

def ofFloat (x : Float) : BinaryValue :=
  let bits := x.toBits.toNat
  ofBinary64 ⟨1 <<< 63 ≤ bits, bits % (1 <<< 63)⟩

end BinaryValue

/-- The digits of a number, with zeros before them up to a width. -/
def padDigits (width n : Nat) : List Char :=
  let digits := (toString n).toList
  List.replicate (width - digits.length) '0' ++ digits

def tenTo (n : Nat) : Nat := Nat.pow 10 n

/-- The absolute value of a finite number as a quotient. -/
def ratio (significand : Nat) (exponent : Int) : Nat × Nat :=
  if 0 ≤ exponent then (significand <<< exponent.toNat, 1)
  else (significand, 1 <<< (-exponent).toNat)

/-- A quotient as a plain decimal with a number of places. -/
def fixedForm (num den places : Nat) (hasPoint : Bool) : List Char :=
  let n := roundHalfEven (num * tenTo places) den
  let whole := (toString (n / tenTo places)).toList
  if places = 0 then (if hasPoint then whole ++ ['.'] else whole)
  else whole ++ '.' :: padDigits places (n % tenTo places)

/-- The exponent of the first digit of a quotient that is not zero. -/
def leadingExponent (num den : Nat) : Int :=
  if den ≤ num then ((toString (num / den)).length : Int) - 1
  else
    let n : Nat := (toString (den / num)).length
    if den ≤ num * tenTo (n - 1) then -((n : Int) - 1) else -(n : Int)

/-- The digits of a quotient, one before the point and `places` behind it, and the exponent. -/
def significantDigits (num den places : Nat) : Nat × Int :=
  if num = 0 then (0, 0)
  else
    let x := leadingExponent num den
    let shift : Int := places - x
    let n := if 0 ≤ shift then roundHalfEven (num * tenTo shift.toNat) den
      else roundHalfEven num (den * tenTo (-shift).toNat)
    if n = tenTo (places + 1) then (tenTo places, x + 1) else (n, x)

def exponentForm (digits : List Char) (exponent : Int) (hasPoint : Bool) : List Char :=
  let rest := digits.drop 1
  let point := if rest.isEmpty && !hasPoint then [] else ['.']
  digits.take 1 ++ point ++ rest ++ 'e' :: (if exponent < 0 then '-' else '+') ::
    padDigits 2 exponent.natAbs

def withoutTrailingZeros (text : List Char) : List Char :=
  if text.contains '.' then
    let trimmed := text.reverse.dropWhile (· == '0')
    (match trimmed with
      | '.' :: rest => rest
      | rest => rest).reverse
  else text

/-- The forms in which a number can be printed. -/
inductive PlaceForm where
  | fixed
  | exponent
  | general
deriving DecidableEq, Repr

/-- The absolute value of a number in a form, with a number of places; the flag asks for a point,
and for the zeros at the end, in any case. -/
def BinaryValue.digits (form : PlaceForm) (places : Nat) (isFull : Bool) : BinaryValue → List Char
  | .nan => "nan".toList
  | .infinite _ => "inf".toList
  | .finite _ s e =>
    let (num, den) := ratio s e
    match form with
    | .fixed => fixedForm num den places isFull
    | .exponent =>
      let (digits, x) := significantDigits num den places
      exponentForm (padDigits (places + 1) digits) x isFull
    | .general =>
      let places := max places 1
      let (digits, x) := significantDigits num den (places - 1)
      if x < -4 || (places : Int) ≤ x then
        let digits := padDigits places digits
        if isFull then exponentForm digits x true
        else
          let kept := (digits.drop 1).reverse.dropWhile (· == '0')
          exponentForm (digits.take 1 ++ kept.reverse) x false
      else
        let text := fixedForm num den ((places : Int) - 1 - x).toNat isFull
        if isFull then text else withoutTrailingZeros text

/-! ## The number at the start of a text

Some texts are numbers only as far as they go. What is read here is the longest number at the start
of a text: blanks, a sign, and decimal digits with a point and an exponent, or digits of base
sixteen after `0x`, or a word for infinity or for no number at all.
-/

/-- The number at the start of a text. -/
inductive LeadingValue where
  /-- A quotient, with a sign. -/
  | ratio (isNegative : Bool) (num den : Nat)
  | infinite (isNegative : Bool)
  | nan
deriving DecidableEq, Repr

def greatestExponent : Nat := 20000

def LeadingValue.rounded (p : BinaryValue.Precision) : LeadingValue → BinaryValue
  | .ratio isNegative num den => .ofRatio p isNegative num den
  | .infinite isNegative => .infinite isNegative
  | .nan => .nan

def isBlank (c : Char) : Bool := c == ' ' || (9 ≤ c.toNat && c.toNat ≤ 13)

def hexDigit? (c : Char) : Option Nat :=
  if c.isDigit then some (c.toNat - 48)
  else if 'a' ≤ c.toLower && c.toLower ≤ 'f' then some (c.toLower.toNat - 87)
  else none

def hexValue (digits : List Char) : Nat :=
  digits.foldl (fun n c => n * 16 + (hexDigit? c).getD 0) 0

/-- An exponent after one of two letters, and what follows it. -/
def leadingExponent? (letter : Char) (s : List Char) : Int × List Char :=
  match s with
  | c :: rest =>
    if c.toLower == letter then
      let (isNegative, rest) := takeSign rest
      match spanDigits rest with
      | ([], _) => (0, s)
      | (digits, after) =>
        let n := min (digitsValue (digits.take 9)) greatestExponent
        ((if isNegative then -(n : Int) else n), after)
    else (0, s)
  | [] => (0, s)

/-- A number whose point is moved by an exponent of a base. -/
def scaled (isNegative : Bool) (digits base : Nat) (exponent : Int) : LeadingValue :=
  if 0 ≤ exponent then .ratio isNegative (digits * Nat.pow base exponent.toNat) 1
  else .ratio isNegative digits (Nat.pow base (-exponent).toNat)

/-- The digits around a point, how many follow it, and what comes next. -/
def spanFraction (isDigit : Char → Bool) (s : List Char) : List Char × Nat × List Char :=
  let whole := s.takeWhile isDigit
  match s.drop whole.length with
  | '.' :: rest =>
    let fraction := rest.takeWhile isDigit
    if whole.isEmpty && fraction.isEmpty then ([], 0, s)
    else (whole ++ fraction, fraction.length, rest.drop fraction.length)
  | rest => (whole, 0, rest)

/-- Whether a text begins with a word, in any mixture of cases. -/
def beginsWith (word : String) (s : List Char) : Bool :=
  word.toList == (s.take word.length).map Char.toLower

/-- The longest number at the start of a text, and what follows it. -/
def leading? (text : List Char) : Option (LeadingValue × List Char) :=
  let (isNegative, s) := takeSign (text.dropWhile isBlank)
  if beginsWith "infinity" s then some (.infinite isNegative, s.drop 8)
  else if beginsWith "inf" s then some (.infinite isNegative, s.drop 3)
  else if beginsWith "nan" s then some (.nan, s.drop 3)
  else
    let hexadecimal : Option (LeadingValue × List Char) :=
      match s with
      | '0' :: x :: rest =>
        if x == 'x' || x == 'X' then
          match spanFraction (fun c => (hexDigit? c).isSome) rest with
          | ([], _, _) => none
          | (digits, places, rest) =>
            let (exponent, rest) := leadingExponent? 'p' rest
            some (scaled isNegative (hexValue digits) 2 (exponent - 4 * places), rest)
        else none
      | _ => none
    match hexadecimal with
    | some found => some found
    | none =>
      match spanFraction Char.isDigit s with
      | ([], _, _) => none
      | (digits, places, rest) =>
        let (exponent, rest) := leadingExponent? 'e' rest
        some (scaled isNegative (digitsValue digits) 10 (exponent - places), rest)

end Sweep.Number
