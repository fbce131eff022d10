import Sweep.Number.Binary64
import Sweep.Number.Reading
import Sweep.Number.Shortest
import Sweep.Text.Blank

/-!
# The syntax of conditions

A condition combines comparisons of numbers, texts, truth values and one variable. The tree says
nothing about spelling: `and` and `&&` give the same node, and parentheses leave no trace.
-/

namespace Sweep.Condition

inductive Comparison where
  | eq | ne | lt | le | gt | ge
deriving DecidableEq, Repr

/-- The syntax tree of a condition. -/
inductive Expr where
  | number (x : Binary64)
  | text (s : String)
  | truth (b : Bool)
  | variable (name : String)
  | not (operand : Expr)
  | and (left right : Expr)
  | or (left right : Expr)
  | compare (left : Expr) (op : Comparison) (right : Expr)
deriving DecidableEq, Repr

/-- The variables of a condition from left to right, as often as they occur. -/
def Expr.names : Expr → List String
  | .number _ | .text _ | .truth _ => []
  | .variable name => [name]
  | .not operand => operand.names
  | .and left right | .or left right | .compare left _ right =>
    left.names ++ right.names

/-! ## Comparing operands

What a condition computes with: numbers, texts and truth values. Two operands that both read as
numbers are compared as numbers, two truth values as truth values with false below true, and any
others by their texts.
-/

/-- A value in a condition. -/
inductive Operand where
  | number (x : Binary64)
  | text (s : String)
  | truth (b : Bool)
deriving DecidableEq, Repr

namespace Operand

/-- The operand that an answer stands for: a number or a truth value if the trimmed answer is one,
else the trimmed answer itself. -/
def ofAnswer (answer : String) : Operand :=
  let trimmed := Text.trim answer
  match Number.read? trimmed with
  | some x => .number x
  | none =>
    match trimmed with
    | "true" | "True" => .truth true
    | "false" | "False" => .truth false
    | s => .text s

/-- Whether an operand counts as true where a truth value is needed. -/
def truthy : Operand → Bool
  | .truth b => b
  | .number x => !x.isZero
  | .text s => s != "" && s != "false" && s != "0"

def asText : Operand → String
  | .number x => Number.showMessage x
  | .text s => s
  | .truth true => "true"
  | .truth false => "false"

def number? : Operand → Option Binary64
  | .number x => some x
  | .text s => Number.read? (Text.trim s)
  | .truth _ => none

/-- The order of two operands, undefined only where a number is compared with what is none. -/
def order? (a b : Operand) : Option Ordering :=
  match a.number?, b.number? with
  | some x, some y => x.compare? y
  | _, _ =>
    match a, b with
    | .truth p, .truth q => some (Ord.compare p q)
    | _, _ => some (Ord.compare a.asText b.asText)

end Operand

/-- Whether a comparison holds of two values in the given order. -/
def Comparison.holds : Comparison → Option Ordering → Bool
  | .eq, some o => o == .eq
  | .ne, some o => o != .eq
  | .lt, some o => o == .lt
  | .le, some o => o != .gt
  | .gt, some o => o == .gt
  | .ge, some o => o != .lt
  | .ne, none => true
  | _, none => false

/-- Whether a comparison holds between two operands. -/
def Operand.compare (a : Operand) (op : Comparison) (b : Operand) : Bool :=
  op.holds (a.order? b)

end Sweep.Condition
