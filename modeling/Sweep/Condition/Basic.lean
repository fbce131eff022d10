import Sweep.Condition.Operand
import Sweep.Condition.Parser

/-!
# Conditions of transitions

A condition is read from a text and evaluated on at most one answer: it names at most one variable,
its placeholder, and the answer is bound to that. A condition without placeholder needs no answer
and takes no notice of one.
-/

namespace Sweep

/-- A condition: its text without the white space around it, and its syntax tree. -/
structure Condition where
  source : String
  expr : Condition.Expr
deriving DecidableEq, Repr

/-- Why a text is no condition, or a condition has no value. -/
inductive ConditionError where
  | syntaxError (column : Nat)
  | multipleVariables (first second : String)
  | missingInput (name : String)
  | empty
deriving DecidableEq, Repr

def ConditionError.message : ConditionError → String
  | .syntaxError column => s!"invalid condition at column {column}: syntax error"
  | .multipleVariables first second =>
    s!"condition references more than one variable: {first} and {second}"
  | .missingInput name => s!"condition requires a value for '{name}' but none was supplied"
  | .empty => "empty condition"

namespace Condition

/-- The column of the place from which `left` characters remain: one more than the number of
characters between the last line break before it and the place itself. -/
def column (s : List Char) (left : Nat) : Nat :=
  ((s.take (s.length - left)).reverse.takeWhile (· != '\n')).length + 1

def twoNames? : List String → Option (String × String)
  | [] => none
  | first :: rest => (rest.find? (· != first)).map fun second => (first, second)

/-- Reads a condition. -/
def parse (text : String) : Except ConditionError Condition :=
  if Text.isEmptyTrimmed text then .error .empty
  else
    let s := text.toList
    match parseTokens (lex s) with
    | .error left => .error (.syntaxError (column s left))
    | .ok expr =>
      match twoNames? expr.names with
      | some (first, second) => .error (.multipleVariables first second)
      | none => .ok ⟨Text.trim text, expr⟩

/-- The variable that an answer is bound to. -/
def placeholder (c : Condition) : Option String :=
  c.expr.names.head?

/-- Whether evaluation needs an answer. -/
def needsInput (c : Condition) : Bool :=
  c.placeholder.isSome

/-- The value of a tree whose variables all stand for one operand. -/
def Expr.eval (input : Operand) : Expr → Operand
  | .number x => .number x
  | .text s => .text s
  | .truth b => .truth b
  | .variable _ => input
  | .not operand => .truth (!(operand.eval input).truthy)
  | .and left right => .truth ((left.eval input).truthy && (right.eval input).truthy)
  | .or left right => .truth ((left.eval input).truthy || (right.eval input).truthy)
  | .compare left op right => .truth ((left.eval input).compare op (right.eval input))

def evaluate (c : Condition) (answer : Option String) : Except ConditionError Bool :=
  match c.placeholder, answer with
  | some _, some text => .ok (c.expr.eval (.ofAnswer text)).truthy
  | some name, none => .error (.missingInput name)
  | none, _ => .ok (c.expr.eval (.truth false)).truthy

end Condition

end Sweep
