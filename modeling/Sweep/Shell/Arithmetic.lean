import Sweep.Shell.Source.Word
import Sweep.Table

/-!
# Whole-number expressions

The expressions of a script: numbers, variables, the usual operators with the usual ranks, and
assignments. Numbers have 64 bits and wrap around. An expression is evaluated while it is read, so
a fault behind another one is never seen, and operands that do not matter are read and not
evaluated.
-/

namespace Sweep.Arithmetic

open Shell (Dialect isNameStart isNameChar)

inductive Token where
  | number (n : Int)
  | name (name : String)
  | sign (sign : String)
  | unknown
deriving DecidableEq, Repr

/-- Why an expression has no value. -/
inductive Fault where
  | expected (what : String)
  | divisionByZero
  /-- A variable that holds no number. -/
  | notNumber (value : Octets)
  | negativeExponent
deriving DecidableEq, Repr

def Fault.message (text : Octets) : Fault → Octets
  | .expected what =>
    Octets.ofString s!"arithmetic expression: expecting {what}: \"" ++ text ++ ['"']
  | .divisionByZero =>
    Octets.ofString "arithmetic expression: division by zero: \"" ++ text ++ ['"']
  | .notNumber value => Octets.ofString "Illegal number: " ++ value
  | .negativeExponent => text ++ Octets.ofString ": exponent less than 0"

/-! ## Numbers -/

/-- A number cut down to 64 bits. -/
def wrap (n : Int) : Int := n.bmod (1 <<< 64)

/-- A number moved into the range of 64 bits. -/
def clamp (n : Int) : Int :=
  if n < -(1 <<< 63 : Nat) then -(1 <<< 63 : Nat)
  else if (1 <<< 63 : Nat) ≤ n then (1 <<< 63 : Nat) - 1
  else n

def digitValue? (c : Char) : Option Nat :=
  if c.isDigit then some (c.toNat - 48)
  else if 'a' ≤ c && c ≤ 'z' then some (c.toNat - 87)
  else if 'A' ≤ c && c ≤ 'Z' then some (c.toNat - 55)
  else none

def isDigitIn (base : Nat) (c : Char) : Bool := (digitValue? c).any (· < base)

def valueIn (base : Nat) (digits : Octets) : Nat :=
  digits.foldl (fun n c => n * base + (digitValue? c).getD 0) 0

/-- The digits of a number at the start of a text, with their base, and what follows. -/
def takeNumber (s : Octets) : Nat × Octets :=
  match s with
  | '0' :: x :: rest =>
    let digits := rest.takeWhile (isDigitIn 16)
    if (x == 'x' || x == 'X') && !digits.isEmpty then
      (valueIn 16 digits, rest.drop digits.length)
    else
      let digits := (x :: rest).takeWhile (isDigitIn 8)
      (valueIn 8 digits, (x :: rest).drop digits.length)
  | s =>
    let digits := s.takeWhile Char.isDigit
    (Octets.digitsValue digits, s.drop digits.length)

/-- The number that a text holds, with blanks around it; a blank text holds zero. -/
def number? (o : Octets) : Option Int :=
  let o := o.dropWhile Octets.isSpace
  let (isNegative, digits) := match o with
    | '-' :: rest => (true, rest)
    | '+' :: rest => (false, rest)
    | rest => (false, rest)
  if o.isEmpty then some 0
  else if !(digits.head?.any Char.isDigit) then none
  else
    let (n, rest) := takeNumber digits
    let n : Int := if isNegative then -n else n
    if rest.all Octets.isSpace && clamp n == n then some n else none

/-! ## Tokens -/

/-- The operators, those that begin like a shorter one before it. -/
def signs (dialect : Dialect) : List String :=
  ["<<=", ">>="] ++ (if dialect = .bash then ["++", "--", "**", ","] else []) ++
  ["<<", ">>", "<=", ">=", "==", "!=", "&&", "||", "+=", "-=", "*=", "/=", "%=", "&=", "|=", "^=",
   "<", ">", "=", "+", "-", "*", "/", "%", "&", "|", "^", "!", "~", "?", ":", "(", ")"]

/-- The tokens of an expression, with a bound on their number. -/
def tokens (dialect : Dialect) : Nat → Octets → List Token
  | 0, _ => []
  | fuel + 1, s =>
    match s.dropWhile Octets.isSpace with
    | [] => []
    | c :: rest =>
      if c.isDigit then
        let (n, after) := takeNumber (c :: rest)
        match after with
        | '#' :: digits =>
          let digits := digits.takeWhile (isDigitIn n)
          if dialect = .bash && 2 ≤ n && !digits.isEmpty then
            .number (valueIn n digits) :: tokens dialect fuel (after.drop (digits.length + 1))
          else .number (clamp n) :: tokens dialect fuel after
        | _ => .number (clamp n) :: tokens dialect fuel after
      else if isNameStart c then
        let name := (c :: rest).takeWhile isNameChar
        .name (String.ofList name) :: tokens dialect fuel ((c :: rest).drop name.length)
      else
        match (signs dialect).find? fun sign => sign.toList.isPrefixOf (c :: rest) with
        | some sign => .sign sign :: tokens dialect fuel ((c :: rest).drop sign.length)
        | none => .unknown :: tokens dialect fuel rest

/-! ## Values -/

/-- The rest of an expression, and the variables that it has set, the last one first. -/
structure Evaluation where
  tokens : List Token
  assigned : List (String × Int) := []

/-- What an expression is evaluated in. -/
structure Context where
  dialect : Dialect
  /-- The text of a variable. -/
  value : String → Octets

abbrev EvalM := StateT Evaluation (Except Fault)

/-- Moves over a sign if it comes next. -/
def takeSign (sign : String) : EvalM Bool := do
  let s ← get
  if s.tokens.head? == some (.sign sign) then
    set { s with tokens := s.tokens.drop 1 }
    return true
  else return false

/-- Moves over one of some signs if it comes next. -/
def takeOneOf (signs : List String) : EvalM (Option String) := do
  let s ← get
  match s.tokens with
  | .sign sign :: rest =>
    if signs.contains sign then
      set { s with tokens := rest }
      return some sign
    else return none
  | _ => return none

def fail {α : Type} (f : Fault) : EvalM α := StateT.lift (.error f)

def truth (b : Bool) : Int := if b then 1 else 0

/-- What an operator makes of two numbers. -/
def apply (operator : String) (a b : Int) : Except Fault Int :=
  let word (n : Int) : Nat := (n % (1 <<< 64 : Nat)).toNat
  let bits (f : Nat → Nat → Nat) : Int := Int.ofNat (f (word a) (word b))
  match operator with
  | "+" => .ok (wrap (a + b))
  | "-" => .ok (wrap (a - b))
  | "*" => .ok (wrap (a * b))
  | "/" => if b = 0 then .error .divisionByZero else .ok (wrap (a.tdiv b))
  | "%" => if b = 0 then .error .divisionByZero else .ok (wrap (a.tmod b))
  | "**" => if b < 0 then .error .negativeExponent else
      .ok ((List.range b.toNat).foldl (fun n _ => wrap (n * a)) 1)
  | "==" => .ok (truth (a == b))
  | "!=" => .ok (truth (a != b))
  | "<" => .ok (truth (a < b))
  | "<=" => .ok (truth (a ≤ b))
  | ">" => .ok (truth (a > b))
  | ">=" => .ok (truth (a ≥ b))
  | "&" => .ok (wrap (bits (· &&& ·)))
  | "|" => .ok (wrap (bits (· ||| ·)))
  | "^" => .ok (wrap (bits (· ^^^ ·)))
  | "<<" => .ok (wrap (a * (1 <<< (b % 64).toNat : Nat)))
  | ">>" => .ok (wrap (a / (1 <<< (b % 64).toNat : Nat)))
  | _ => .error (.expected "primary")

/-- The operators between two operands by their ranks, the weakest first. -/
def levels (dialect : Dialect) : List (List String) :=
  [["|"], ["^"], ["&"], ["==", "!="], ["<", "<=", ">", ">="], ["<<", ">>"], ["+", "-"],
   ["*", "/", "%"]] ++ (if dialect = .bash then [["**"]] else [])

def assignments : List String :=
  ["=", "+=", "-=", "*=", "/=", "%=", "<<=", ">>=", "&=", "|=", "^="]

mutual

/-- The value of an expression that may be an assignment. The flag says whether it matters. -/
def assignment (c : Context) : Nat → Bool → EvalM Int
  | 0, _ => fail (.expected "primary")
  | fuel + 1, matters => do
    let s ← get
    match s.tokens with
    | .name name :: rest =>
      set { s with tokens := rest }
      match ← takeOneOf assignments with
      | some operator =>
        let n ← assignment c fuel matters
        if !matters then return n
        let n ← if operator = "=" then pure n
          else do
            let before ← lookUp c fuel name
            StateT.lift (apply (String.ofList operator.toList.dropLast) before n)
        modify fun s => { s with assigned := (name, n) :: s.assigned }
        return n
      | none =>
        set s
        choice c fuel matters
    | _ => choice c fuel matters

/-- The value of a choice between two expressions. -/
def choice (c : Context) : Nat → Bool → EvalM Int
  | 0, _ => fail (.expected "primary")
  | fuel + 1, matters => do
    let a ← alternatives c fuel matters
    if ← takeSign "?" then
      let yes ← assignment c fuel (matters && a != 0)
      if !(← takeSign ":") then fail (.expected "':'")
      let no ← choice c fuel (matters && a == 0)
      return if a != 0 then yes else no
    else return a

def alternatives (c : Context) : Nat → Bool → EvalM Int
  | 0, _ => fail (.expected "primary")
  | fuel + 1, matters => do
    let a ← conditions c fuel matters
    if ← takeSign "||" then
      let b ← alternatives c fuel (matters && a == 0)
      return truth (a != 0 || b != 0)
    else return a

def conditions (c : Context) : Nat → Bool → EvalM Int
  | 0, _ => fail (.expected "primary")
  | fuel + 1, matters => do
    let a ← operands c fuel (levels c.dialect) matters
    if ← takeSign "&&" then
      let b ← conditions c fuel (matters && a != 0)
      return truth (a != 0 && b != 0)
    else return a

/-- The value of operands with operators of the given levels between them. -/
def operands (c : Context) : Nat → List (List String) → Bool → EvalM Int
  | 0, _, _ => fail (.expected "primary")
  | fuel + 1, [], matters => operand c fuel matters
  | fuel + 1, level :: stronger, matters => do
    let a ← operands c fuel stronger matters
    further c fuel level stronger matters a

def further (c : Context) : Nat → List String → List (List String) → Bool → Int → EvalM Int
  | 0, _, _, _, _ => fail (.expected "primary")
  | fuel + 1, level, stronger, matters, a => do
    match ← takeOneOf level with
    | some operator =>
      let b ← operands c fuel stronger matters
      let n ← if matters then StateT.lift (apply operator a b) else pure b
      further c fuel level stronger matters n
    | none => return a

/-- The value of an operand with the signs before it. -/
def operand (c : Context) : Nat → Bool → EvalM Int
  | 0, _ => fail (.expected "primary")
  | fuel + 1, matters => do
    let s ← get
    let step (name : String) (by_ : Int) (isAfter : Bool) : EvalM Int := do
      if !matters then return 0
      let n ← lookUp c fuel name
      modify fun s => { s with assigned := (name, wrap (n + by_)) :: s.assigned }
      return if isAfter then n else wrap (n + by_)
    match s.tokens with
    | .number n :: rest =>
      set { s with tokens := rest }
      return n
    | .name name :: rest =>
      set { s with tokens := rest }
      if ← takeSign "++" then step name 1 true
      else if ← takeSign "--" then step name (-1) true
      else if matters then lookUp c fuel name else return 0
    | .sign "++" :: .name name :: rest =>
      set { s with tokens := rest }
      step name 1 false
    | .sign "--" :: .name name :: rest =>
      set { s with tokens := rest }
      step name (-1) false
    | .sign sign :: rest =>
      set { s with tokens := rest }
      match sign with
      | "(" =>
        let n ← assignment c fuel matters
        if !(← takeSign ")") then fail (.expected "')'")
        return n
      | "+" => operand c fuel matters
      | "-" => return wrap (-(← operand c fuel matters))
      | "!" => return truth ((← operand c fuel matters) == 0)
      | "~" => return -(← operand c fuel matters) - 1
      | _ => fail (.expected "primary")
    | _ => fail (.expected "primary")

/-- The number that a variable holds. In the richer dialect it may hold an expression. -/
def lookUp (c : Context) : Nat → String → EvalM Int
  | 0, _ => fail (.expected "primary")
  | fuel + 1, name => do
    let s ← get
    match s.assigned.find? fun a => a.1 == name with
    | some (_, n) => return n
    | none =>
      let text := c.value name
      match number? text with
      | some n => return n
      | none =>
        if c.dialect = .sh then fail (.notNumber text)
        else
          set { s with tokens := tokens c.dialect (text.length + 1) text }
          let n ← assignment c fuel true
          if !(← get).tokens.isEmpty then fail (.expected "EOF")
          modify fun t => { t with tokens := s.tokens }
          return n

end

/-- The value of a text as an expression, and the variables that it sets, the last one first. -/
def evaluate (c : Context) (text : Octets) : Except Fault (Int × List (String × Int)) := do
  let ts := tokens c.dialect (text.length + 1) text
  if ts.isEmpty && c.dialect = .bash then return (0, [])
  let body : EvalM Int := do
    let n ← assignment c (32 * (text.length + 32)) true
    let rec others : Nat → Int → EvalM Int
      | 0, n => return n
      | fuel + 1, n => do
        if ← takeSign "," then others fuel (← assignment c (32 * (text.length + 32)) true)
        else return n
    let n ← others text.length n
    if !(← get).tokens.isEmpty then fail (.expected "EOF")
    return n
  let (n, s) ← body { tokens := ts }
  return (n, s.assigned)

end Sweep.Arithmetic
