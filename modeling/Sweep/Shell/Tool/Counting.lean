import Sweep.Number.Leading
import Sweep.Shell.Regex
import Sweep.Shell.Tool.Printing

/-!
# Tools that calculate

`seq` prints the numbers from one to another, `expr` the value of an expression that is given word
by word.
-/

namespace Sweep.Tool

/-! ## Sequences -/

/-- A number of a sequence, and how many bytes and places it was written with. -/
structure SequenceNumber where
  value : Number.BinaryValue
  width : Nat := 0
  places : Option Nat := none

def quotientOf : Number.BinaryValue → Option (Int × Nat)
  | .finite isNegative s e =>
    let (num, den) := Number.ratio s e
    some (if isNegative then -(num : Int) else num, den)
  | _ => none

def roundedQuotient (num : Int) (den : Nat) : Number.BinaryValue :=
  Number.BinaryValue.ofRatio Number.BinaryValue.extended (num < 0) num.natAbs den

def sequenceNumber (c : ToolCall) (o : Octets) : ToolM SequenceNumber := do
  let invalid {α : Type} : ToolM α :=
    c.misuse 1 (Octets.ofString "invalid floating point argument: " ++ Octets.quoted o)
  match Number.leading? o with
  | some (value, []) =>
    let shown := o.dropWhile fun b => Octets.isSpace b || b == '+'
    let rounded := value.rounded Number.BinaryValue.extended
    if rounded = .nan then
      c.misuse 1 (Octets.ofString "invalid 'not-a-number' argument: " ++ Octets.quoted o)
    let isFinite := (quotientOf rounded).isSome
    let point := shown.dropWhile (· != '.')
    let hasPoint := !point.isEmpty
    if !isFinite || shown.any (fun b => b == 'x' || b == 'X') then
      return { value := rounded, places := if hasPoint || shown.contains 'p' then none else some 0 }
    let fraction := ((point.drop 1).takeWhile fun b => b != 'e' && b != 'E').length
    let before := shown.take (shown.length - point.length)
    let width : Int := (shown.length : Int) + (if !hasPoint then 0
      else if fraction = 0 then -1
      else if (before.getLast?.any Char.isDigit) then 0 else 1)
    let exponentPart := shown.dropWhile fun b => b != 'e' && b != 'E'
    if exponentPart.isEmpty then
      return { value := rounded, width := width.toNat, places := some fraction }
    let exponent := (Octets.toInt? (exponentPart.drop 1)).getD 0
    let places : Nat :=
      if exponent < 0 then fraction + exponent.natAbs else fraction - exponent.natAbs
    let width := width - exponentPart.length
    let width : Int :=
      if exponent < 0 then
        (if hasPoint && fraction != 0 then width else width + 1) + exponent.natAbs
      else
        (if hasPoint && places = 0 && fraction != 0 then width - 1 else width) +
          (exponent.natAbs - min fraction exponent.natAbs : Nat)
    return { value := rounded, width := width.toNat, places := some places }
  | _ => invalid

/-- A form for the numbers of a sequence: what stands before a number and behind it. -/
structure SequenceForm where
  before : Octets := []
  directive : Directive
  after : Octets := []

/-- Reads the form of the numbers. -/
def sequenceForm (c : ToolCall) (o : Octets) : ToolM SequenceForm := do
  let rec literal : Octets → Octets × Octets
    | '%' :: '%' :: rest =>
      let (text, rest) := literal rest
      ('%' :: text, rest)
    | '%' :: rest => ([], '%' :: rest)
    | b :: rest =>
      let (text, rest) := literal rest
      (b :: text, rest)
    | [] => ([], [])
  let (before, rest) := literal o
  match rest with
  | [] => c.fail 1 (Octets.told "format " (Octets.quoted o) " has no % directive")
  | _ :: rest =>
    let flags := rest.takeWhile fun b => "-+#0 '".toList.contains b
    let rest := rest.drop flags.length
    let width := rest.takeWhile Char.isDigit
    let rest := rest.drop width.length
    let (precision, rest) := match rest with
      | '.' :: more =>
        let digits := more.takeWhile Char.isDigit
        (some (Octets.digitsValue digits), more.drop digits.length)
      | rest => (none, rest)
    match rest with
    | [] => c.fail 1 (Octets.ofString "format " ++ Octets.quoted o ++ Octets.ofString " ends in %")
    | conversion :: rest =>
      if !"efgaEFGA".toList.contains conversion then
        c.fail 1 (Octets.ofString "format " ++ Octets.quoted o ++
          Octets.told " has unknown %" [conversion] " directive")
      let (after, rest) := literal rest
      if !rest.isEmpty then
        c.fail 1 (Octets.ofString "format " ++ Octets.quoted o ++
          Octets.ofString " has too many % directives")
      return {
        before, after
        directive := { flags, width := Octets.digitsValue width, precision, conversion } }

/-- The most numbers of a sequence. -/
def maxSequence : Nat := 1000000

/-- Prints the numbers from one to another. -/
def sequence (c : ToolCall) : ToolM Unit := do
  let forms : OptionForms := {
    plain := "w", valued := "fs", isOrdered := true
    long := [("equal-width", 'w'), ("format", 'f'), ("separator", 's')] }
  -- What looks like a negative number is no option.
  let isNumber (o : Octets) : Bool := match o with
    | '-' :: d :: _ => d.isDigit || d == '.'
    | _ => false
  let options := c.arguments.takeWhile fun o => !isNumber o
  let (found, first) ← forms.read { c with arguments := options }
  let operands := first ++ c.arguments.drop options.length
  let (a, b, z) ← match operands with
    | [] => c.misuse 1 (Octets.ofString "missing operand")
    | [last] => pure (['1'], ['1'], last)
    | [first, last] => pure (first, ['1'], last)
    | [first, step, last] => pure (first, step, last)
    | _ :: _ :: _ :: extra :: _ =>
      c.misuse 1 (Octets.ofString "extra operand " ++ Octets.quoted extra)
  let separator := (found.value? 's').getD ['\n']
  let start ← sequenceNumber c a
  let step ← sequenceNumber c b
  let last ← sequenceNumber c z
  match quotientOf step.value with
  | some (0, _) => c.misuse 1 (Octets.ofString "invalid Zero increment value: " ++ Octets.quoted b)
  | _ => pure ()
  let form ← match found.value? 'f' with
    | some o =>
      if found.has 'w' then
        c.misuse 1 (Octets.ofString
          "format string may not be specified when printing equal width strings")
      sequenceForm c o
    | none =>
      match start.places, step.places, last.places with
      | some p, some q, some r =>
        let places := max p q
        let own (n : SequenceNumber) (p : Nat) : Nat :=
          n.width + places - p + (if p = 0 && places != 0 then 1 else 0) -
            (if p != 0 && places = 0 then 1 else 0)
        let width := if found.has 'w' then max (own start p) (own last r) else 0
        pure { directive := { flags := ['0'], width, precision := some places, conversion := 'f' } }
      | _, _, _ =>
        pure { directive := { flags := [], width := 0, precision := none, conversion := 'g' } }
  let shown (x : Number.BinaryValue) : Octets :=
    form.before ++ formatNumber form.directive x ++ form.after
  let numbers : List Octets :=
    match quotientOf start.value, quotientOf step.value with
    | some (n, d), some (m, e) =>
      let isPast (x : Number.BinaryValue) : Bool :=
        match quotientOf x, quotientOf last.value with
        | some (x, p), some (y, q) => if m < 0 then x * q < y * p else y * p < x * q
        | _, _ =>
          -- The last number is infinite.
          last.value.isNegative != (m < 0)
      let valueAt (i : Nat) : Number.BinaryValue :=
        match quotientOf (roundedQuotient (m * i) e) with
        | some (k, f) => roundedQuotient (n * f + k * d) (d * f)
        | none => .nan
      let rec go : Nat → Nat → Octets → List Octets
        | 0, _, _ => []
        | fuel + 1, i, previous =>
          let x := if i = 0 then start.value else valueAt i
          let text := shown x
          if isPast x then
            -- A number just past the last one counts if it is printed as the last one.
            if i != 0 && text == shown last.value && text != previous then [text] else []
          else text :: go fuel (i + 1) text
      go maxSequence 0 []
    | _, _ => []
  if !numbers.isEmpty then print (separator.intercalate numbers ++ ['\n'])

/-! ## Expressions -/

/-- Why an expression has no value. -/
inductive ExprFault where
  | missing (after : Octets)
  | unexpected (o : Octets)
  | unclosed (after : Octets)
  | notClosed (o : Octets)
  | notNumber
  | divisionByZero
  | regex (f : Regex.Fault)

def ExprFault.message : ExprFault → Octets
  | .missing after => Octets.ofString "syntax error: missing argument after " ++ Octets.quoted after
  | .unexpected o => Octets.ofString "syntax error: unexpected argument " ++ Octets.quoted o
  | .unclosed after => Octets.ofString "syntax error: expecting ')' after " ++ Octets.quoted after
  | .notClosed o => Octets.ofString "syntax error: expecting ')' instead of " ++ Octets.quoted o
  | .notNumber => Octets.ofString "non-integer argument"
  | .divisionByZero => Octets.ofString "division by zero"
  | .regex f => Octets.ofString f.message

/-- The words of an expression that are left, and the one before them. -/
structure ExprScan where
  last : Octets := []
  rest : List Octets

abbrev ExprM := StateT ExprScan (Except ExprFault)

namespace ExprM

def take (word : String) : ExprM Bool := do
  match (← get).rest with
  | o :: rest =>
    if o == word.toList then
      set { last := o, rest : ExprScan }
      return true
    else return false
  | [] => return false

def takeOneOf (words : List String) : ExprM (Option String) := do
  match (← get).rest with
  | o :: rest =>
    match words.find? fun w => w.toList == o with
    | some w =>
      set { last := o, rest : ExprScan }
      return some w
    | none => return none
  | [] => return none

def fail {α : Type} (f : ExprFault) : ExprM α := StateT.lift (.error f)

/-- The next word, whatever it is. -/
def word : ExprM Octets := do
  let s ← get
  match s.rest with
  | o :: rest =>
    set { last := o, rest : ExprScan }
    return o
  | [] => fail (.missing s.last)

end ExprM

/-- Whether a value counts as none: it is empty or a zero. -/
def isNullValue (o : Octets) : Bool :=
  let digits := match o with
    | '-' :: rest => rest
    | rest => rest
  o.isEmpty || (!digits.isEmpty && digits.all (· == '0'))

/-- A whole number without blanks. -/
def exactInt? (o : Octets) : Option Int :=
  match o with
  | '-' :: digits =>
    if !digits.isEmpty && digits.all Char.isDigit then some (-(Octets.digitsValue digits : Int))
    else none
  | digits =>
    if !digits.isEmpty && digits.all Char.isDigit then some (Octets.digitsValue digits) else none

/-- What an expression at the start of a text matches: a group, or the number of bytes. -/
def matchValue (text pattern : Octets) : ExprM Octets := do
  match Regex.read { isLenient := true } pattern with
  | .error f => ExprM.fail (.regex f)
  | .ok (regex, groups) =>
    match regex.matchStart? {} text with
    | some found =>
      if groups = 0 then return Octets.ofNat found.matched.length
      else return (found.group? 1).getD []
    | none => return if groups = 0 then ['0'] else []

/-- The place of the first byte of a set. -/
def indexOfAny (text set : Octets) : Nat :=
  match text.findIdx? fun b => set.contains b with
  | some i => i + 1
  | none => 0

/-- Takes operators and their operands as long as there are any, with a bound on their number. -/
def ExprM.chain (step : Octets → ExprM (Option Octets)) : Nat → Octets → ExprM Octets
  | 0, a => return a
  | fuel + 1, a => do
    match ← step a with
    | some b => ExprM.chain step fuel b
    | none => return a

mutual

/-- An expression whose first operand that is something counts. The flag says whether the value
is wanted. -/
def exprAny : Nat → Bool → ExprM Octets
  | 0, _ => return []
  | fuel + 1, isWanted => do
    let step (a : Octets) : ExprM (Option Octets) := do
      if ← ExprM.take "|" then
        let b ← exprBoth fuel (isWanted && isNullValue a)
        return some (if isNullValue a then (if isNullValue b then ['0'] else b) else a)
      else return none
    ExprM.chain step fuel (← exprBoth fuel isWanted)

def exprBoth : Nat → Bool → ExprM Octets
  | 0, _ => return []
  | fuel + 1, isWanted => do
    let step (a : Octets) : ExprM (Option Octets) := do
      if ← ExprM.take "&" then
        let b ← exprOrder fuel (isWanted && !isNullValue a)
        return some (if isNullValue a || isNullValue b then ['0'] else a)
      else return none
    ExprM.chain step fuel (← exprOrder fuel isWanted)

def exprOrder : Nat → Bool → ExprM Octets
  | 0, _ => return []
  | fuel + 1, isWanted => do
    let step (a : Octets) : ExprM (Option Octets) := do
      match ← ExprM.takeOneOf ["<", "<=", "=", "==", "!=", ">=", ">"] with
      | none => return none
      | some operator =>
        let b ← exprSum fuel isWanted
        let (isLess, isEqual) := match exactInt? a, exactInt? b with
          | some m, some n => (decide (m < n), decide (m = n))
          | _, _ => (a != b && Octets.le a b, a == b)
        let holds := match operator with
          | "<" => isLess
          | "<=" => isLess || isEqual
          | "=" | "==" => isEqual
          | "!=" => !isEqual
          | ">=" => !isLess
          | _ => !isLess && !isEqual
        return some (if holds then ['1'] else ['0'])
    ExprM.chain step fuel (← exprSum fuel isWanted)

def exprSum : Nat → Bool → ExprM Octets
  | 0, _ => return []
  | fuel + 1, isWanted => do
    let step (a : Octets) : ExprM (Option Octets) := do
      match ← ExprM.takeOneOf ["+", "-"] with
      | none => return none
      | some operator =>
        let b ← exprProduct fuel isWanted
        if isWanted then
          match exactInt? a, exactInt? b with
          | some m, some n => return some (Octets.ofInt (if operator == "+" then m + n else m - n))
          | _, _ => ExprM.fail .notNumber
        else return some a
    ExprM.chain step fuel (← exprProduct fuel isWanted)

def exprProduct : Nat → Bool → ExprM Octets
  | 0, _ => return []
  | fuel + 1, isWanted => do
    let step (a : Octets) : ExprM (Option Octets) := do
      match ← ExprM.takeOneOf ["*", "/", "%"] with
      | none => return none
      | some operator =>
        let b ← exprMatch fuel isWanted
        if isWanted then
          match exactInt? a, exactInt? b with
          | some m, some n =>
            if operator != "*" && n = 0 then ExprM.fail .divisionByZero
            let value := match operator with
              | "*" => m * n
              | "/" => m.tdiv n
              | _ => m.tmod n
            return some (Octets.ofInt value)
          | _, _ => ExprM.fail .notNumber
        else return some a
    ExprM.chain step fuel (← exprMatch fuel isWanted)

def exprMatch : Nat → Bool → ExprM Octets
  | 0, _ => return []
  | fuel + 1, isWanted => do
    let step (a : Octets) : ExprM (Option Octets) := do
      if ← ExprM.take ":" then
        let b ← exprOperand fuel isWanted
        return some (← if isWanted then matchValue a b else pure a)
      else return none
    ExprM.chain step fuel (← exprOperand fuel isWanted)

def exprOperand : Nat → Bool → ExprM Octets
  | 0, _ => return []
  | fuel + 1, isWanted => do
    if ← ExprM.take "+" then ExprM.word
    else
      match ← ExprM.takeOneOf ["length", "match", "index", "substr", "(", ")"] with
      | some "length" => return Octets.ofNat (← exprOperand fuel isWanted).length
      | some "match" =>
        let text ← exprOperand fuel isWanted
        let pattern ← exprOperand fuel isWanted
        if isWanted then matchValue text pattern else return text
      | some "index" =>
        let text ← exprOperand fuel isWanted
        return Octets.ofNat (indexOfAny text (← exprOperand fuel isWanted))
      | some "substr" =>
        let text ← exprOperand fuel isWanted
        let start ← exprOperand fuel isWanted
        let count ← exprOperand fuel isWanted
        match exactInt? start, exactInt? count with
        | some m, some n =>
          return if m ≤ 0 || n ≤ 0 then [] else (text.drop (m.toNat - 1)).take n.toNat
        | _, _ => return []
      | some "(" =>
        let value ← exprAny fuel isWanted
        let s ← get
        match s.rest with
        | [] => ExprM.fail (.unclosed s.last)
        | o :: _ =>
          if ← ExprM.take ")" then return value else ExprM.fail (.notClosed o)
      | some _ => ExprM.fail (.unexpected [')'])
      | none => ExprM.word

end

def expression (c : ToolCall) : ToolM Unit := do
  let words := match c.arguments with
    | ['-', '-'] :: rest => rest
    | rest => rest
  if words.isEmpty then c.misuse 2 (Octets.ofString "missing operand")
  let whole : ExprM Octets := do
    let value ← exprAny (8 * words.length + 16) true
    match (← get).rest with
    | o :: _ => ExprM.fail (.unexpected o)
    | [] => return value
  match whole.run { rest := words } with
  | .ok (value, _) =>
    printLine value
    setStatus (if isNullValue value then 1 else 0)
  | .error f => c.fail 2 f.message

end Sweep.Tool
