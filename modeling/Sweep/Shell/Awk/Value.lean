import Sweep.Number.Leading
import Sweep.Shell.Octets
import Sweep.Shell.Tool.Printing

/-!
# Values of record programs

A value is a number or a text, and text that was read and looks like a number counts as both.
Numbers that are whole are shown without a point, others as a format says.
-/

namespace Sweep.Awk

inductive Value where
  /-- What a variable has before it is set: zero and the empty text at once. -/
  | unset
  | number (x : Float)
  | text (o : Octets)
  /-- Text from outside that looks like a number. -/
  | numeral (o : Octets) (x : Float)
deriving Inhabited

/-! ## Numbers -/

/-- A number with finitely many binary places as a floating-point one. -/
def floatOf : Number.BinaryValue → Float
  | .finite isNegative s e =>
    let x := (Float.ofNat s).scaleB e
    if isNegative then -x else x
  | .infinite isNegative => if isNegative then -(1.0 / 0.0) else 1.0 / 0.0
  | .nan => 0.0 / 0.0

/-- The number at the start of a text, or zero. -/
def leadingFloat (o : Octets) : Float :=
  match Number.leading? o with
  | some (value, _) => floatOf (value.rounded Number.BinaryValue.double)
  | none => 0.0

/-- The number that a whole text stands for, with blanks around it. It begins with a sign, a digit
or a point, and ends with a digit or a point. -/
def wholeFloat? (o : Octets) : Option Float :=
  let trimmed := ((o.dropWhile Octets.isSpace).reverse.dropWhile Octets.isSpace).reverse
  let isStart (c : Char) : Bool := c.isDigit || c == '+' || c == '-' || c == '.'
  let isEnd (c : Char) : Bool := c.isDigit || c == '.'
  if trimmed.head?.any isStart && trimmed.getLast?.any isEnd then
    match Number.leading? trimmed with
    | some (value, []) =>
      match value.rounded Number.BinaryValue.double with
      | .finite n s e => some (floatOf (.finite n s e))
      | _ => none
    | _ => none
  else none

/-- A finite number without its places behind the point. -/
def truncated (x : Float) : Float := if x < 0.0 then x.ceil else x.floor

/-- The rest of a division that is rounded toward zero; it has the sign of the first number. -/
def remainder (x y : Float) : Float :=
  match Number.BinaryValue.ofFloat x, Number.BinaryValue.ofFloat y with
  | .finite n s e, .finite _ t f =>
    if t = 0 then 0.0 / 0.0
    else
      let least := min e f
      let rest := (s <<< (e - least).toNat) % (t <<< (f - least).toNat)
      let r := (Float.ofNat rest).scaleB least
      if n then -r else r
  | .finite _ _ _, .infinite _ => x
  | _, _ => 0.0 / 0.0

def wholeOf? (x : Float) : Option Int :=
  match Number.BinaryValue.ofFloat x with
  | .finite n s e =>
    let (num, den) := Number.ratio s e
    if num % den = 0 then
      some (if n then -((num / den : Nat) : Int) else (num / den : Nat))
    else none
  | _ => none

/-- A number without its places behind the point, within the bounds of 64 bits. -/
def clampedInt (x : Float) : Int :=
  match Number.BinaryValue.ofFloat x with
  | .finite n s e =>
    let (num, den) := Number.ratio s e
    let m := num / den
    if n then -((min m (1 <<< 63) : Nat) : Int) else (min m ((1 <<< 64) - 1) : Nat)
  | .infinite true => -((1 <<< 63 : Nat) : Int)
  | .infinite false => ((1 <<< 63) - 1 : Nat)
  | .nan => -((1 <<< 63 : Nat) : Int)

def formattedFloat (format : Octets) (x : Float) : Octets :=
  (Tool.formatParts .sh (format.length + 1) format).flatMap fun part =>
    match part with
    | .text o => o
    | .directive flags width precision conversion _ =>
      let given : Tool.DirectiveNumber → Option Nat
        | .given n => some n
        | _ => none
      let d : Tool.Directive :=
        { flags, width := (given width).getD 0, precision := given precision, conversion }
      if "diouxX".toList.contains conversion then Tool.formatInt d (clampedInt x)
      else Tool.formatNumber d (Number.BinaryValue.ofFloat x)
    | _ => []

/-- A number as text; the format is for numbers that are not whole or that are too great. -/
def floatText (format : Octets) (x : Float) : Octets :=
  match wholeOf? x with
  | some n =>
    if -((1 <<< 63 : Nat) : Int) ≤ n && n ≤ ((1 <<< 64 : Nat) : Int) then
      Octets.ofInt (min n ((1 <<< 64) - 1 : Nat))
    else formattedFloat format x
  | none => if x.isNaN then "-nan".toList else formattedFloat format x

namespace Value

/-- Text from outside. -/
def ofInput (o : Octets) : Value :=
  match wholeFloat? o with
  | some x => .numeral o x
  | none => .text o

def ofNat (n : Nat) : Value := .number (Float.ofNat n)

def ofInt (n : Int) : Value := .number (Float.ofInt n)

def ofBool (b : Bool) : Value := .number (if b then 1.0 else 0.0)

def toFloat : Value → Float
  | .unset => 0.0
  | .number x | .numeral _ x => x
  | .text o => leadingFloat o

def toOctets (format : Octets) : Value → Octets
  | .unset => []
  | .number x => floatText format x
  | .text o | .numeral o _ => o

/-- Whether a value counts as true: a number that is not zero, or a text that is not empty. -/
def isTrue : Value → Bool
  | .unset => false
  | .number x | .numeral _ x => x != 0.0
  | .text o => !o.isEmpty

/-- Whether a value takes part in comparisons as a number. -/
def isNumeric : Value → Bool
  | .text _ => false
  | _ => true

/-- The order of two values: that of numbers if both are numeric, else that of their texts. -/
def compare (format : Octets) (a b : Value) : Ordering :=
  if a.isNumeric && b.isNumeric then
    let x := a.toFloat
    let y := b.toFloat
    if x < y then .lt else if x == y then .eq else .gt
  else
    let s := a.toOctets format
    let t := b.toOctets format
    if s == t then .eq else if Octets.le s t then .lt else .gt

end Value

/-! ## Dictionaries

The arrays of record programs: values by their keys, which are texts. Keys are spread over slots by
a sum of their bytes, and within a slot the key that was used last comes first; this gives the order
in which the keys are gone through. A key that is used as a number only has no place among the texts
until they are needed.
-/

inductive Key where
  | text (o : Octets)
  | number (n : Int)
deriving DecidableEq, Repr

def Key.toOctets : Key → Octets
  | .text o => o
  | .number n => Octets.ofInt n

structure Dictionary where
  values : List (Octets × Value) := []
  /-- The keys in the slots of texts. -/
  texts : Array (List Octets) := Array.replicate 64 []
  /-- The keys in the slots of numbers. -/
  numbers : Array (List Int) := Array.replicate 64 []
  /-- Whether all keys have a place among the texts. -/
  hasTexts : Bool := false
deriving Inhabited

/-- The sum of a text by which its slot is chosen. -/
def slotSum (o : Octets) : Nat :=
  o.foldl (fun h c => (h ^^^ c.toNat) * 16777619 % 4294967296) 2166136261

namespace Dictionary

def size (d : Dictionary) : Nat := d.values.length

def slots (d : Dictionary) : Nat := d.texts.size

def textSlot (d : Dictionary) (o : Octets) : Nat := slotSum o % d.slots

def numberSlot (d : Dictionary) (n : Int) : Nat := (n % (d.slots : Int)).toNat

/-- Puts a key to the front of its slot of texts. -/
def raiseText (d : Dictionary) (o : Octets) : Dictionary :=
  let i := d.textSlot o
  { d with texts := d.texts.modify i fun keys => o :: keys.filter (· != o) }

/-- Puts a key to the front of its slot of numbers. -/
def raiseNumber (d : Dictionary) (n : Int) : Dictionary :=
  let i := d.numberSlot n
  { d with numbers := d.numbers.modify i fun keys => n :: keys.filter (· != n) }

/-- Gives every key a place among the texts. -/
def withTexts (d : Dictionary) : Dictionary :=
  if d.hasTexts then d
  else
    let keys := d.numbers.toList.flatMap id
    keys.foldl (fun d n =>
      let o := Octets.ofInt n
      if (d.texts.getD (d.textSlot o) []).contains o then d else d.raiseText o)
      { d with hasTexts := true }

/-- Spreads the keys over twice as many slots if there are many of them. -/
def widened (d : Dictionary) : Dictionary :=
  if d.size ≤ 12 * d.slots then d
  else
    let wide : Dictionary := { d with
      texts := Array.replicate (2 * d.slots) [], numbers := Array.replicate (2 * d.slots) [] }
    let wide := (d.texts.toList.flatMap List.reverse).foldl raiseText wide
    (d.numbers.toList.flatMap List.reverse).foldl raiseNumber wide

def get? (d : Dictionary) (k : Key) : Option Value :=
  (d.values.find? fun e => e.1 == k.toOctets).map (·.2)

/-- Makes a key the one that was used last. -/
def touch (d : Dictionary) (k : Key) : Dictionary :=
  match k with
  | .text o => d.withTexts.raiseText o
  | .number n =>
    if (d.numbers.getD (d.numberSlot n) []).contains n then d.raiseNumber n
    else if d.hasTexts then (d.raiseText (Octets.ofInt n)).raiseNumber n
    else d.raiseNumber n

/-- The value of a key as it is replaced or added. -/
def replaced (o : Octets) (v : Value) : List (Octets × Value) → List (Octets × Value)
  | [] => [(o, v)]
  | e :: rest => if e.1 == o then (o, v) :: rest else e :: replaced o v rest

def insert (d : Dictionary) (k : Key) (v : Value) : Dictionary :=
  ({ d.touch k with values := replaced k.toOctets v d.values }).widened

def erase (d : Dictionary) (k : Key) : Dictionary :=
  let o := k.toOctets
  let d := d.withTexts
  { d with
    values := d.values.filter fun e => e.1 != o
    texts := d.texts.modify (d.textSlot o) fun keys => keys.filter (· != o)
    numbers := d.numbers.map fun keys => keys.filter fun n => Octets.ofInt n != o }

/-- The keys in the order in which they are gone through. -/
def keys (d : Dictionary) : List Octets := d.withTexts.texts.toList.flatMap id

/-- The texts under the numbers from one on. -/
def ofList (values : List Value) : Dictionary :=
  values.zipIdx.foldl (fun d (v, i) => d.insert (.number (i + 1)) v) {}

end Dictionary

end Sweep.Awk
