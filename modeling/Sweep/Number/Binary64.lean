/-!
# Binary floating-point numbers of 64 bits

A number is its sign and its magnitude, the latter being the 63 bits of exponent and fraction read
as one natural number. The magnitude grows with the absolute value, so numbers are compared as
integers; every finite number is a whole multiple of `2 ^ (-1074)`, so arithmetic is exact
arithmetic on those multiples followed by one rounding to the nearest number, ties to even.
-/

namespace Sweep

/-- The quotient of two natural numbers rounded to the nearest integer, a tie to the even one. -/
def roundHalfEven (num den : Nat) : Nat :=
  let q := num / den
  let twice := 2 * (num % den)
  if twice < den then q else if den < twice then q + 1 else q + q % 2

/-- The quotient of a natural number by `2 ^ places` rounded to the nearest integer, a tie to the
even one. The bit below the last place tells whether the quotient has to be rounded up. -/
def roundShift (n places : Nat) : Nat :=
  if places = 0 then n
  else
    let q := n >>> places
    if !n.testBit (places - 1) then q
    else if n = (2 * q + 1) <<< (places - 1) then q + q % 2
    else q + 1

/-- A binary64 number. Magnitudes above that of infinity are not numbers. -/
structure Binary64 where
  negative : Bool
  magnitude : Nat
deriving DecidableEq, Repr

namespace Binary64

/-- The number of steps of a magnitude between two powers of two. -/
def binade : Nat := 1 <<< 52

/-- The magnitude of the infinities. -/
def infinityMagnitude : Nat := 2047 * binade

/-- The unit in which every finite number is whole is `2 ^ (-unitExponent)`. -/
def unitExponent : Nat := 1074

def zero : Binary64 := ⟨false, 0⟩

instance : Inhabited Binary64 := ⟨zero⟩

def infinity : Binary64 := ⟨false, infinityMagnitude⟩

def nan : Binary64 := ⟨false, infinityMagnitude + binade / 2⟩

def isNaN (x : Binary64) : Bool := infinityMagnitude < x.magnitude

def isFinite (x : Binary64) : Bool := x.magnitude < infinityMagnitude

def isInfinite (x : Binary64) : Bool := x.magnitude == infinityMagnitude

def isZero (x : Binary64) : Bool := x.magnitude == 0

/-- The exponent of two by which the significand counts units. -/
def scale (x : Binary64) : Nat := x.magnitude / binade - 1

/-- The integer that the scale multiplies. -/
def significand (x : Binary64) : Nat :=
  if x.magnitude < binade then x.magnitude else binade + x.magnitude % binade

/-- The absolute value of a finite number, counted in units. -/
def units (x : Binary64) : Nat := x.significand <<< x.scale

def signedSignificand (x : Binary64) : Int :=
  if x.negative then -(x.significand : Int) else x.significand

/-- The integer that a lower scale multiplies. -/
def significandAt (x : Binary64) (scale : Nat) : Nat :=
  if x.scale = scale then x.significand else x.significand <<< (x.scale - scale)

/-- The value of a finite number, counted in units. -/
def signedUnits (x : Binary64) : Int :=
  if x.negative then -(x.units : Int) else x.units

/-- The magnitude of the number nearest to a quotient of natural numbers. -/
def nearestMagnitude (num den : Nat) : Nat :=
  let num := num <<< unitExponent
  let s := (num / den).log2 - 52
  min infinityMagnitude (s * binade + roundHalfEven num (den <<< s))

/-- The magnitude of the number nearest to `n * 2 ^ k` units. -/
def nearestScaled (n : Nat) (k : Int) : Nat :=
  if n = 0 then 0
  else
    let s := ((n.log2 : Int) + k - 52).toNat
    let digits := if k ≤ s then roundShift n ((s : Int) - k).toNat else n <<< (k - s).toNat
    min infinityMagnitude (s * binade + digits)

/-- The number of the given sign nearest to a quotient of natural numbers. -/
def ofRatio (negative : Bool) (num den : Nat) : Binary64 :=
  ⟨negative, nearestMagnitude num den⟩

/-- The number nearest to an integer. -/
def ofInt (n : Int) : Binary64 := ⟨n < 0, nearestScaled n.natAbs unitExponent⟩

/-- The number of the given sign nearest to `digits * 10 ^ exponent`. -/
def ofDecimal (negative : Bool) (digits : Nat) (exponent : Int) : Binary64 :=
  let places : Int := digits.log2 / 3 + 1
  if digits = 0 then ⟨negative, 0⟩
  else if 400 < exponent then ⟨negative, infinityMagnitude⟩
  else if exponent + places < -400 then ⟨negative, 0⟩
  else if 0 ≤ exponent then ofRatio negative (digits * Nat.pow 10 exponent.toNat) 1
  else ofRatio negative digits (Nat.pow 10 (-exponent).toNat)

/-- The integer that orders the numbers; both zeros have the key 0. -/
def key (x : Binary64) : Int :=
  if x.negative then -(x.magnitude : Int) else x.magnitude

/-- The order of two numbers, which is undefined as soon as one is not a number. -/
def compare? (x y : Binary64) : Option Ordering :=
  if x.isNaN || y.isNaN then none else some (compare x.key y.key)

def lt (x y : Binary64) : Bool := x.compare? y == some .lt

def le (x y : Binary64) : Bool :=
  x.compare? y == some .lt || x.compare? y == some .eq

def neg (x : Binary64) : Binary64 := ⟨!x.negative, x.magnitude⟩

def abs (x : Binary64) : Binary64 := ⟨false, x.magnitude⟩

/-- The sum rounded to the nearest number. An exact zero is negative only if both terms are. -/
def add (x y : Binary64) : Binary64 :=
  if x.isNaN || y.isNaN then nan
  else if x.isInfinite then
    if y.isInfinite && x.negative != y.negative then nan else x
  else if y.isInfinite then y
  else
    let scale := min x.scale y.scale
    let a := x.significandAt scale
    let b := y.significandAt scale
    if x.negative = y.negative then ⟨x.negative, nearestScaled (a + b) scale⟩
    else if a < b then ⟨y.negative, nearestScaled (b - a) scale⟩
    else if b < a then ⟨x.negative, nearestScaled (a - b) scale⟩
    else zero

def sub (x y : Binary64) : Binary64 := x.add y.neg

/-- The product rounded to the nearest number. -/
def mul (x y : Binary64) : Binary64 :=
  let negative := x.negative != y.negative
  if x.isNaN || y.isNaN then nan
  else if x.isInfinite || y.isInfinite then
    if x.isZero || y.isZero then nan else ⟨negative, infinityMagnitude⟩
  else
    ⟨negative, nearestScaled (x.significand * y.significand)
      ((x.scale : Int) + y.scale - unitExponent)⟩

/-- The quotient rounded to the nearest number. -/
def div (x y : Binary64) : Binary64 :=
  let negative := x.negative != y.negative
  if x.isNaN || y.isNaN then nan
  else if x.isInfinite then
    if y.isInfinite then nan else ⟨negative, infinityMagnitude⟩
  else if y.isInfinite then ⟨negative, 0⟩
  else if y.isZero then
    if x.isZero then nan else ⟨negative, infinityMagnitude⟩
  else ofRatio negative x.units y.units

/-- The greatest integer that a finite number reaches. -/
def floorInt (x : Binary64) : Int :=
  if unitExponent ≤ x.scale then x.signedSignificand * (1 <<< (x.scale - unitExponent) : Nat)
  else x.signedSignificand >>> (unitExponent - x.scale)

/-- The greatest whole number that a number reaches; zeros and infinities are kept. -/
def floor (x : Binary64) : Binary64 :=
  if !x.isFinite || x.isZero then x
  else
    let n := x.floorInt
    if n = 0 then ⟨x.negative, 0⟩ else ofInt n

/-- Whether a finite number is whole. -/
def isWhole (x : Binary64) : Bool :=
  x.isFinite && (unitExponent ≤ x.scale || x.significand % (1 <<< (unitExponent - x.scale)) == 0)

instance : Add Binary64 := ⟨add⟩
instance : Sub Binary64 := ⟨sub⟩
instance : Mul Binary64 := ⟨mul⟩
instance : Div Binary64 := ⟨div⟩
instance : Neg Binary64 := ⟨neg⟩

@[simp] theorem compare?_eq_none_iff {x y : Binary64} :
    x.compare? y = none ↔ x.isNaN = true ∨ y.isNaN = true := by
  cases hx : x.isNaN <;> cases hy : y.isNaN <;> simp [compare?, hx, hy]

end Binary64

end Sweep
