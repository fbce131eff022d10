import Sweep.Number.Binary64

/-!
# The fewest digits that name a number

The decimals that read back as a given number form an interval around it. Among the decimals with
the fewest digits in that interval the nearest to the number is its shortest name. It is found by
laying decimal grids of increasing fineness over the number: on each grid only the two neighbours
of the number have to be tried, and the first grid with a hit wins.
-/

namespace Sweep

/-- A decimal `digits * 10 ^ exponent`. -/
structure Decimal where
  digits : Nat
  exponent : Int
deriving DecidableEq, Repr

namespace Decimal

/-- The same decimal without trailing zeros in its digits; the fuel bounds their number. -/
def stripZeros : Nat → Decimal → Decimal
  | 0, d => d
  | fuel + 1, d =>
    if d.digits ≠ 0 ∧ d.digits % 10 = 0 then stripZeros fuel ⟨d.digits / 10, d.exponent + 1⟩
    else d

def digitChars (d : Decimal) : List Char :=
  Nat.toDigits 10 d.digits

/-- The place of the decimal point, counted from the first digit. -/
def point (d : Decimal) : Int :=
  d.digitChars.length + d.exponent

end Decimal

/-- Which of two equally near decimals of the same length is taken. -/
inductive Tie where
  | toEven
  | upward
deriving DecidableEq, Repr

namespace Shortest

/-- The interval of an exact value: all in units of `2 ^ (-unitExponent - 2)`. -/
structure Interval where
  lower : Nat
  value : Nat
  upper : Nat
  closed : Bool

/-- The interval of the decimals that read back as the absolute value of `x`. -/
def interval (x : Binary64) : Interval :=
  let m := x.significand
  let step := 1 <<< x.scale
  let below := if m = Binary64.binade ∧ 0 < x.scale then 1 else 2
  { lower := (4 * m - below) * step
    value := 4 * m * step
    upper := (4 * m + 2) * step
    closed := m % 2 = 0 }

/-- The denominator of the interval's units. -/
def denominator : Nat := 1 <<< (Binary64.unitExponent + 2)

/-- Whether the point `count / 10 ^ places` lies in the interval, both sides scaled up. -/
def Interval.holds (i : Interval) (up down count : Nat) : Bool :=
  let point := count * up
  let lower := i.lower * down
  let upper := i.upper * down
  if i.closed then lower ≤ point && point ≤ upper else lower < point && point < upper

/-- The best point of the grid of step `10 ^ exponent`, if one of the value's neighbours hits. -/
def onGrid (tie : Tie) (i : Interval) (exponent : Int) : Option Decimal :=
  let up := denominator * (if 0 ≤ exponent then Nat.pow 10 exponent.toNat else 1)
  let down := if 0 ≤ exponent then 1 else Nat.pow 10 (-exponent).toNat
  let value := i.value * down
  let low := value / up
  let high := low + 1
  let lowHits := i.holds up down low
  let highHits := i.holds up down high
  let toLow := value - low * up
  let toHigh := high * up - value
  let takeLow :=
    if lowHits && highHits then
      if toLow < toHigh then true
      else if toHigh < toLow then false
      else match tie with
        | .toEven => low % 2 == 0
        | .upward => false
    else lowHits
  if takeLow then some ⟨low, exponent⟩
  else if highHits then some ⟨high, exponent⟩
  else none

/-- The exponent of the first power of ten above the value, by counting digits. -/
def topExponent (i : Interval) : Int :=
  let whole := i.value / denominator
  if 0 < whole then (Nat.toDigits 10 whole).length
  else
    let scaled := i.value * Nat.pow 10 400 / denominator
    (Nat.toDigits 10 scaled).length - 400

/-- Tries grids of increasing fineness, the fuel being the number of grids left. -/
def search (tie : Tie) (i : Interval) : Nat → Int → Decimal
  | 0, exponent => ⟨i.value / denominator, exponent⟩
  | fuel + 1, exponent =>
    match onGrid tie i exponent with
    | some d => d
    | none => search tie i fuel (exponent - 1)

/-- The shortest decimal that reads back as the absolute value of a finite number. -/
def decimal (tie : Tie) (x : Binary64) : Decimal :=
  if x.isZero then ⟨0, 0⟩
  else
    let i := interval x
    (search tie i 18 (topExponent i)).stripZeros 400

end Shortest

end Sweep

/-! ## Written forms of numbers

Both forms write the fewest digits that read back. The data form, used wherever a value is stored,
passed on or hashed, always shows that the number is not an integer: by a point, or by an exponent
outside the range from `1e-5` up to `1e16`. The message form never uses an exponent and writes a
whole number without a point.
-/

namespace Sweep.Number

/-- The digits with a point after the first `point` of them, and zeros where there are none. -/
def positional (d : Decimal) : List Char × List Char :=
  let digits := d.digitChars
  let point := d.point
  if point ≤ 0 then (['0'], List.replicate (-point).toNat '0' ++ digits)
  else
    let whole := digits.take point.toNat
    (whole ++ List.replicate (point.toNat - whole.length) '0', digits.drop point.toNat)

/-- The digits with a point after the first of them and the exponent that restores the value. -/
def scientific (d : Decimal) : List Char :=
  let exponent := d.point - 1
  let mantissa :=
    match d.digitChars with
    | [] => []
    | [c] => [c]
    | c :: rest => c :: '.' :: rest
  let sign := if exponent < 0 then '-' else '+'
  mantissa ++ 'e' :: sign :: Nat.toDigits 10 exponent.natAbs

def signChars (x : Binary64) : List Char :=
  if x.negative then ['-'] else []

def dataForm (x : Binary64) : List Char :=
  let d := Shortest.decimal .toEven x
  let body :=
    if x.isZero then ['0', '.', '0']
    else if -4 ≤ d.point ∧ d.point ≤ 16 then
      let (whole, fraction) := positional d
      whole ++ '.' :: (if fraction.isEmpty then ['0'] else fraction)
    else scientific d
  signChars x ++ body

def messageForm (x : Binary64) : List Char :=
  if x.isNaN then ['N', 'a', 'N']
  else if x.isInfinite then signChars x ++ ['i', 'n', 'f']
  else if x.isZero then signChars x ++ ['0']
  else
    let (whole, fraction) := positional (Shortest.decimal .upward x)
    signChars x ++ whole ++ (if fraction.isEmpty then [] else '.' :: fraction)

def showData (x : Binary64) : String := String.ofList (dataForm x)

def showMessage (x : Binary64) : String := String.ofList (messageForm x)

end Sweep.Number
