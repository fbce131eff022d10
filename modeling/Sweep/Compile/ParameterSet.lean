import Sweep.Compile.Failure
import Sweep.Experiment.Basic
import Sweep.Table

/-!
# Parameter sets

The parameter sets of a space are all combinations of its parameters' values, in the order in which
the first parameter changes slowest. The place of a set in that order is its identity, so equal sets
are kept apart.

A range is laid out in the arithmetic of its numbers, which is abstracted as `RangeArithmetic`: the
number of steps is the floor of the quotient of span and step, with a tolerance for rounding.
-/

namespace Sweep

/-- One choice of a value for every parameter of a space. -/
abbrev ParameterSet := Table Json

/-- The arithmetic in which a range is laid out. -/
class RangeArithmetic (α : Type) extends Add α, Sub α, Mul α, Div α where
  ofNat : Nat → α
  floor : α → α
  /-- What a quotient may fall short of a whole number. -/
  tolerance : α
  lt : α → α → Bool
  isFinite : α → Bool
  isWhole : α → Bool
  /-- The greatest integer that a finite number reaches. -/
  toInt : α → Int

instance : RangeArithmetic Binary64 where
  ofNat n := Binary64.ofInt n
  floor := Binary64.floor
  tolerance := Binary64.ofDecimal false 1 (-9)
  lt := Binary64.lt
  isFinite := Binary64.isFinite
  isWhole := Binary64.isWhole
  toInt := Binary64.floorInt

namespace RangeArithmetic

variable {α : Type} [RangeArithmetic α]

/-- The number of steps from `min` that stay within `max`. -/
def steps (min max step : α) : α :=
  floor ((max - min) / step + tolerance)

/-- The value after a number of steps. -/
def value (min step : α) (i : Nat) : α :=
  min + step * ofNat i

/-- The values of a range with the given number of steps. -/
def values (min step : α) (steps : Nat) : List α :=
  (List.range (steps + 1)).map (value min step)

end RangeArithmetic

open RangeArithmetic in
/-- The values of a range as numbers, or why it has none. -/
def RangeSpec.points (r : RangeSpec) : Except RangeFault (List Binary64) :=
  if !(r.min.isFinite && r.max.isFinite && r.step.isFinite) then .error .notFinite
  else if r.step.le Binary64.zero then .error (.stepNotPositive r.step)
  else if r.max.lt r.min then .error (.minAboveMax r.min r.max)
  else
    let steps := steps r.min r.max r.step
    if !steps.isFinite || (Binary64.ofInt maxRangeValues).le steps then
      .error (.tooManyValues (steps + Binary64.ofInt 1))
    else .ok (values r.min r.step steps.floorInt.toNat)

/-- Whether a range counts in whole numbers. -/
def RangeSpec.isIntegral (r : RangeSpec) : Bool := r.min.isWhole && r.step.isWhole

/-- A value of a range: an integer if the range counts in whole numbers and it has at most 63 bits,
else a double. -/
def rangeValue (integral : Bool) (x : Binary64) : Except RangeFault Json :=
  if integral && x.abs.lt (Binary64.ofInt (1 <<< 63 : Nat)) then .ok (.ofInt x.floorInt)
  else if x.isFinite then .ok (.number (.double x))
  else .error (.notRepresentable x)

def RangeSpec.values (r : RangeSpec) : Except RangeFault (List Json) := do
  (← r.points).mapM (rangeValue r.isIntegral)

def Domain.values (space parameter : String) : Domain → Except CompileError (List Json)
  | .enumeration values => .ok values
  | .range spec =>
    match spec.values with
    | .ok values => .ok values
    | .error fault => .error (.invalidRange space parameter fault)
  | .expression text => .ok [.text text]

/-- The first string of a list that occurs before. -/
def firstRepeated? : List String → List String → Option String
  | _, [] => none
  | seen, name :: rest =>
    if seen.contains name then some name else firstRepeated? (name :: seen) rest

def extendSets (name : String) (values : List Json) (sets : List ParameterSet) :
    List ParameterSet :=
  sets.flatMap fun set => values.map fun value => set.insert name value

def combine (space : String) : List SpaceParameter → List ParameterSet →
    Except CompileError (List ParameterSet)
  | [], sets => .ok sets
  | p :: rest, sets =>
    match p.domain.values space p.name with
    | .error e => .error e
    | .ok [] => .error (.emptyDomain space p.name)
    | .ok values => combine space rest (extendSets p.name values sets)

def Space.parameterSets (s : Space) : Except CompileError (List ParameterSet) :=
  match firstRepeated? [] (s.parameters.map (·.name)) with
  | some name => .error (.duplicateParameter s.name name)
  | none => combine s.name s.parameters [∅]

end Sweep
