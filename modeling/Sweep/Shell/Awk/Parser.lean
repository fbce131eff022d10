import Sweep.Shell.Regex
import Sweep.Shell.Awk.Program

/-!
# Reading record programs

A program is read from its tokens. After a fault reading goes on with the next statement, so that
several faults can be told at once.
-/

namespace Sweep.Awk

/-- What a name has been used for. -/
inductive NameKind where
  | variable_
  | array
  | function
deriving DecidableEq, Repr

/-- The names that mean something in every program. -/
def knownNames : List (String × NameKind) :=
  ["NF", "NR", "FNR", "FS", "OFS", "ORS", "RS", "FILENAME", "SUBSEP", "RSTART", "RLENGTH",
    "CONVFMT", "OFMT", "ARGC"].map (fun name => (name, NameKind.variable_)) ++
  [("ARGV", .array), ("ENVIRON", .array)]

/-- A function while it is read. -/
structure FunctionScope where
  parameters : List String
  /-- The parameters that are used as arrays. -/
  arrays : List String := []
  /-- Parameters that are handed on: to which function, and at which place. -/
  handed : List (String × String × Nat) := []

structure Parsing where
  tokens : List (Token × Nat)
  faults : List Octets := []
  /-- Whether a greater-than sign names an output, which it does outside of parentheses. -/
  isPrinting : Bool := false
  parentheses : Nat := 0
  braces : Nat := 0
  loops : Nat := 0
  /-- Whether the statements belong to a rule that is for no record. -/
  isOutside : Bool := false
  scope : Option FunctionScope := none
  kinds : List (String × NameKind) := knownNames
  /-- The functions that are called, with how many arguments. -/
  calls : List (String × Nat) := []
  /-- Functions with what their parameters are handed on to. -/
  functions : List (String × Function × List (String × String × Nat)) := []

/-- Why reading stops: what is read is not understood, or there is nothing to go on with. -/
inductive Stop where
  | fault
  | all
deriving DecidableEq, Repr

abbrev ParseM := ExceptT Stop (StateM Parsing)

namespace Parse

/-! ## Tokens -/

/-- The most faults that are told. -/
def maxFaults : Nat := 5

def note (line : Nat) (message : Octets) : ParseM Unit := do
  let s ← get
  set { s with faults := s.faults ++ [Octets.ofString s!"line {line}: " ++ message] }
  if maxFaults ≤ s.faults.length + 1 then throw .all

def line : ParseM Nat := do
  match (← get).tokens with
  | (_, n) :: _ => return n
  | [] => return 1

/-- Notes a fault that does not keep the parser from going on. -/
def noteHere (message : Octets) : ParseM Unit := do note (← line) message

/-- The next token. Braces and parentheses that close nothing are told and passed over. -/
def peek : ParseM Token := do
  let rec go (tokens : List (Token × Nat)) : ParseM Token := do
    match tokens with
    | [] => return .finish
    | (t, n) :: rest =>
      match t with
      | .extra =>
        modify fun s => { s with tokens := rest }
        note n "extra '\x7d'".toList
        go rest
      | .fatal message =>
        note n message
        throw .all
      | .sign ")" =>
        if 0 < (← get).parentheses then return t
        else
          modify fun s => { s with tokens := rest }
          note n "extra ')'".toList
          go rest
      | t => return t
  go (← get).tokens

/-- Passes a token over. -/
def advance : ParseM Unit := do
  let t ← peek
  modify fun s =>
    let s := match t with
      | .sign "(" => { s with parentheses := s.parentheses + 1 }
      | .sign ")" => { s with parentheses := s.parentheses - 1 }
      | .sign "\x7b" => { s with braces := s.braces + 1 }
      | .sign "\x7d" => { s with braces := s.braces - 1 }
      | _ => s
    match s.tokens with
    | [last] => { s with tokens := [last] }
    | tokens => { s with tokens := tokens.drop 1 }

/-- Stops at a token that does not fit. -/
def refuse {α : Type} : ParseM α := do
  let t ← peek
  let s ← get
  let n ← line
  let endsEarly := t.isSeparator || match t with
    | .finish => true
    | .sign o => o == "\x7d"
    | _ => false
  match t with
  | .unexpected c =>
    let fault := Octets.ofString s!"{n}: unexpected character '" ++ [c, '\'']
    modify fun s => { s with faults := s.faults ++ [fault] }
  | t =>
    let near := Octets.ofString " near " ++ t.shown
    if 0 < s.parentheses && endsEarly then note n ("missing )".toList ++ near)
    else
      match t with
      | .finish =>
        if 0 < s.braces then note n ("missing \x7d".toList ++ near)
        else note n ("syntax error at or".toList ++ near)
      | _ => note n ("syntax error at or".toList ++ near)
  throw .fault

def isSign (o : String) : ParseM Bool := do
  match ← peek with
  | .sign s => return s == o
  | _ => return false

def isKeyword (o : String) : ParseM Bool := do
  match ← peek with
  | .keyword s => return s == o
  | _ => return false

/-- Passes a sign over if it comes next. -/
def takeSign (o : String) : ParseM Bool := do
  if ← isSign o then
    advance
    return true
  else return false

def expect (o : String) : ParseM Unit := do
  if !(← takeSign o) then refuse

def skipLines : ParseM Unit := do
  match ← peek with
  | .newline => advance
  | _ => return

/-- Ends a statement. -/
def separator : ParseM Unit := do
  let t ← peek
  if t.isSeparator then
    advance
    match t with
    | .sign _ => skipLines
    | _ => return
  else refuse

/-! ## Names -/

def isParameter (name : String) : ParseM Bool := do
  return (← get).scope.any fun f => f.parameters.contains name

/-- Notes what a name is used for. -/
def useName (name : String) (kind : NameKind) : ParseM Unit := do
  let s ← get
  match s.scope with
  | some f =>
    if f.parameters.contains name then
      if kind = .array && !f.arrays.contains name then
        set { s with scope := some { f with arrays := name :: f.arrays } }
      return
  | none => pure ()
  match s.kinds.find? fun k => k.1 == name with
  | none => set { s with kinds := (name, kind) :: s.kinds }
  | some (_, known) =>
    if known != kind then
      let what := match known with
        | .variable_ => "variable"
        | .array => "array"
        | .function => "function"
      noteHere (Octets.ofString s!"illegal reference to {what} {name}")

/-! ## Expressions -/

/-- A regular expression of a program. -/
def regexOf (o : Octets) : Except String Regex :=
  match Regex.read { isExtended := true, letter := regexLetter? } o with
  | .ok (r, _) => .ok r
  | .error .openParenthesis => .error "missing ')'"
  | .error .closingParenthesis => .error "missing '('"
  | .error .openBracket | .error .emptyBracket => .error "bad class -- [], [^] or ["
  | .error _ => .error "missing operand"
where
  regexLetter? : Char → Option Char
    | '/' => some '/'
    | '"' => some '"'
    | 'a' => some '\x07'
    | 'f' => some '\x0c'
    | 'n' => some '\n'
    | 'r' => some '\r'
    | 't' => some '\t'
    | 'v' => some '\x0b'
    | _ => none

/-- The regular expression of a token; a fault in it ends reading. -/
def regex (o : Octets) : ParseM Regex := do
  match regexOf o with
  | .ok r => return r
  | .error reason =>
    noteHere (Octets.ofString s!"regular expression compile failed ({reason})\n" ++ o)
    throw .all

/-- An expression that is used as a regular one. A text that is known is read only once. -/
def asPattern (e : Expression) : ParseM Expression := do
  match e with
  | .text o => return .matchesRecord o (← regex o)
  | e => return e

def assignment? : String → Option (Option Operation)
  | "=" => some none
  | "+=" => some (some .add)
  | "-=" => some (some .subtract)
  | "*=" => some (some .multiply)
  | "/=" => some (some .divide)
  | "%=" => some (some .remainder)
  | "^=" => some (some .power)
  | _ => none

def comparison? : String → Option Comparison
  | "==" => some .equal
  | "!=" => some .notEqual
  | "<" => some .less
  | "<=" => some .lessOrEqual
  | ">" => some .greater
  | ">=" => some .greaterOrEqual
  | _ => none

/-- Whether a token can begin an operand that is joined to the one before it. -/
def startsOperand : Token → Bool
  | .number _ _ | .text _ | .regex _ | .name _ | .called _ | .builtin _ => true
  | .sign s => ["(", "$", "!", "+", "-", "++", "--"].contains s
  | .keyword s => s == "getline"
  | _ => false

/-- Performs something in parentheses, which have been opened, and closes them. -/
def closing {α : Type} (body : ParseM α) : ParseM α := do
  let a ← body
  expect ")"
  return a

mutual

/-- An expression. Every function here has a bound on the depth of what it reads. -/
def expression (fuel : Nat) : ParseM Expression := do
  match fuel with
  | 0 => refuse
  | fuel + 1 =>
    let test ← disjunction fuel
    if ← takeSign "?" then
      let yes ← expression fuel
      expect ":"
      return .condition test yes (← expression fuel)
    else return test

def disjunction (fuel : Nat) : ParseM Expression := do
  match fuel with
  | 0 => refuse
  | fuel + 1 => moreDisjunction fuel (← conjunction fuel)

def moreDisjunction (fuel : Nat) (a : Expression) : ParseM Expression := do
  match fuel with
  | 0 => refuse
  | fuel + 1 =>
    if ← takeSign "||" then moreDisjunction fuel (.either a (← conjunction fuel)) else return a

def conjunction (fuel : Nat) : ParseM Expression := do
  match fuel with
  | 0 => refuse
  | fuel + 1 => moreConjunction fuel (← membership fuel)

def moreConjunction (fuel : Nat) (a : Expression) : ParseM Expression := do
  match fuel with
  | 0 => refuse
  | fuel + 1 =>
    if ← takeSign "&&" then moreConjunction fuel (.both a (← membership fuel)) else return a

/-- Tests for elements. -/
def membership (fuel : Nat) : ParseM Expression := do
  match fuel with
  | 0 => refuse
  | fuel + 1 => moreMembership fuel (← matching fuel)

def moreMembership (fuel : Nat) (a : Expression) : ParseM Expression := do
  match fuel with
  | 0 => refuse
  | fuel + 1 =>
    if ← isKeyword "in" then
      advance
      match ← peek with
      | .name o =>
        let name := String.ofList o
        useName name .array
        advance
        moreMembership fuel (.isElement [a] name)
      | _ => refuse
    else return a

def matching (fuel : Nat) : ParseM Expression := do
  match fuel with
  | 0 => refuse
  | fuel + 1 => moreMatching fuel (← comparing fuel)

def moreMatching (fuel : Nat) (a : Expression) : ParseM Expression := do
  match fuel with
  | 0 => refuse
  | fuel + 1 =>
    if ← takeSign "~" then
      moreMatching fuel (.isMatch a (← asPattern (← comparing fuel)) false)
    else if ← takeSign "!~" then
      moreMatching fuel (.isMatch a (← asPattern (← comparing fuel)) true)
    else return a

def comparing (fuel : Nat) : ParseM Expression := do
  match fuel with
  | 0 => refuse
  | fuel + 1 => moreComparing fuel (← assigning fuel)

def moreComparing (fuel : Nat) (a : Expression) : ParseM Expression := do
  match fuel with
  | 0 => refuse
  | fuel + 1 =>
    match ← peek with
    | .sign o =>
      let s ← get
      if o == ">" && s.isPrinting && s.parentheses = 0 then return a
      match comparison? o with
      | some c =>
        advance
        moreComparing fuel (.compare c a (← assigning fuel))
      | none => return a
    | _ => return a

/-- Joined operands, or an assignment to a place. -/
def assigning (fuel : Nat) : ParseM Expression := do
  match fuel with
  | 0 => refuse
  | fuel + 1 =>
    let a ← moreJoined fuel (← sum fuel)
    match ← peek with
    | .sign o =>
      match assignment? o with
      | some operation =>
        if a.isPlace then
          advance
          return .assign a operation (← expression fuel)
        else return a
      | none => return a
    | _ => return a

def moreJoined (fuel : Nat) (a : Expression) : ParseM Expression := do
  match fuel with
  | 0 => refuse
  | fuel + 1 =>
    if startsOperand (← peek) then moreJoined fuel (.join a (← sum fuel)) else return a

def sum (fuel : Nat) : ParseM Expression := do
  match fuel with
  | 0 => refuse
  | fuel + 1 => moreSum fuel (← product fuel)

def moreSum (fuel : Nat) (a : Expression) : ParseM Expression := do
  match fuel with
  | 0 => refuse
  | fuel + 1 =>
    if ← takeSign "+" then moreSum fuel (.operate .add a (← product fuel))
    else if ← takeSign "-" then moreSum fuel (.operate .subtract a (← product fuel))
    else return a

def product (fuel : Nat) : ParseM Expression := do
  match fuel with
  | 0 => refuse
  | fuel + 1 => moreProduct fuel (← signed fuel)

def moreProduct (fuel : Nat) (a : Expression) : ParseM Expression := do
  match fuel with
  | 0 => refuse
  | fuel + 1 =>
    if ← takeSign "*" then moreProduct fuel (.operate .multiply a (← signed fuel))
    else if ← takeSign "/" then moreProduct fuel (.operate .divide a (← signed fuel))
    else if ← takeSign "%" then moreProduct fuel (.operate .remainder a (← signed fuel))
    else return a

/-- An operand with signs before it. -/
def signed (fuel : Nat) : ParseM Expression := do
  match fuel with
  | 0 => refuse
  | fuel + 1 =>
    if ← takeSign "!" then return .not (← signed fuel)
    else if ← takeSign "-" then return .negative (← signed fuel)
    else if ← takeSign "+" then return .positive (← signed fuel)
    else morePiped fuel (← power fuel)

/-- Records from the output of commands. -/
def morePiped (fuel : Nat) (a : Expression) : ParseM Expression := do
  match fuel with
  | 0 => refuse
  | fuel + 1 =>
    let s ← get
    if (← isSign "|") && !(s.isPrinting && s.parentheses = 0) then
      advance
      if !(← isKeyword "getline") then refuse
      advance
      morePiped fuel (.read .command (some a) (← place? fuel))
    else return a

def power (fuel : Nat) : ParseM Expression := do
  match fuel with
  | 0 => refuse
  | fuel + 1 =>
    let a ← stepped fuel
    if ← takeSign "^" then
      match ← peek with
      | .sign "-" | .sign "+" | .sign "!" => return .operate .power a (← signed fuel)
      | _ => return .operate .power a (← power fuel)
    else return a

/-- An operand with a step behind it. -/
def stepped (fuel : Nat) : ParseM Expression := do
  match fuel with
  | 0 => refuse
  | fuel + 1 =>
    let a ← operand fuel
    if a.isPlace then
      if ← takeSign "++" then return .step a 1.0 true
      else if ← takeSign "--" then return .step a (-1.0) true
      else return a
    else return a

/-- A place that a record is read into, if there is one. -/
def place? (fuel : Nat) : ParseM (Option Expression) := do
  match fuel with
  | 0 => refuse
  | fuel + 1 =>
    match ← peek with
    | .name _ | .sign "$" => return some (← operand fuel)
    | _ => return none

def operand (fuel : Nat) : ParseM Expression := do
  match fuel with
  | 0 => refuse
  | fuel + 1 =>
    match ← peek with
    | .number x _ =>
      advance
      return .number x
    | .text o =>
      advance
      return .text o
    | .regex o =>
      let r ← regex o
      advance
      return .matchesRecord o r
    | .name o => nameOperand fuel (String.ofList o)
    | .called o =>
      let name := String.ofList o
      let isVariable := (← get).kinds.any fun k => k.1 == name && k.2 != .function
      if isVariable || (← isParameter name) then nameOperand fuel name
      else
        advance
        callOperand fuel name
    | .builtin name =>
      advance
      builtinOperand fuel name
    | .keyword "getline" =>
      advance
      let place ← place? fuel
      if ← takeSign "<" then return .read .file (some (← power fuel)) place
      else return .read .main none place
    | .sign "(" =>
      advance
      let es ← closing (expressions fuel)
      if ← isKeyword "in" then
        advance
        match ← peek with
        | .name o =>
          let name := String.ofList o
          useName name .array
          advance
          return .isElement es name
        | _ => refuse
      else
        let s ← get
        let t ← peek
        -- Several expressions stand for themselves as what is printed only.
        let endsOutput : Bool := t.isSeparator || match t with
          | .sign o => o == ">" || o == ">>" || o == "|"
          | _ => false
        if 1 < es.length && !(s.isPrinting && s.parentheses = 0 && endsOutput) then refuse
        return .group es
    | .sign "$" =>
      advance
      match ← peek with
      | .sign "-" =>
        advance
        return .field (.negative (← operand fuel))
      | .sign "+" =>
        advance
        return .field (.positive (← operand fuel))
      | .sign "!" =>
        advance
        return .field (.not (← operand fuel))
      | _ => return .field (← operand fuel)
    | .sign "++" =>
      advance
      let a ← operand fuel
      if a.isPlace then return .step a 1.0 false else refuse
    | .sign "--" =>
      advance
      let a ← operand fuel
      if a.isPlace then return .step a (-1.0) false else refuse
    | _ => refuse

/-- A variable or an element. A name that a function has is called. -/
def nameOperand (fuel : Nat) (name : String) : ParseM Expression := do
  match fuel with
  | 0 => refuse
  | fuel + 1 =>
    advance
    let s ← get
    let isFunction := s.kinds.any fun k => k.1 == name && k.2 = .function
    if ← takeSign "[" then
      useName name .array
      let es ← expressions fuel
      expect "]"
      return .element name es
    else if isFunction && !(← isParameter name) then callOperand fuel name
    else
      useName name .variable_
      return .variable_ name

/-- The arguments of a call and the call itself. -/
def callOperand (fuel : Nat) (name : String) : ParseM Expression := do
  match fuel with
  | 0 => refuse
  | fuel + 1 =>
    useName name .function
    expect "("
    let arguments ← if ← isSign ")" then pure [] else handedExpressions fuel name 0
    expect ")"
    modify fun s => { s with calls := s.calls ++ [(name, arguments.length)] }
    return .call name arguments

/-- Arguments that are handed to a function, from a place on. A lone name may be an array. -/
def handedExpressions (fuel : Nat) (function : String) (i : Nat) : ParseM (List Expression) := do
  match fuel with
  | 0 => refuse
  | fuel + 1 =>
    let s ← get
    let lone? : Option String := match s.tokens with
      | (.name o, _) :: (.sign ",", _) :: _ | (.name o, _) :: (.sign ")", _) :: _ =>
        some (String.ofList o)
      | _ => none
    let e ← match lone? with
      | some name =>
        advance
        if ← isParameter name then
          modify fun s => { s with scope := s.scope.map fun f =>
            { f with handed := (name, function, i) :: f.handed } }
        pure (Expression.variable_ name)
      | none => expression fuel
    if ← takeSign "," then return e :: (← handedExpressions fuel function (i + 1)) else return [e]

/-- A call of a function that every program has. -/
def builtinOperand (fuel : Nat) (name : String) : ParseM Expression := do
  match fuel with
  | 0 => refuse
  | fuel + 1 =>
    if name == "length" && !(← isSign "(") then return .builtin name []
    expect "("
    let es ← if ← isSign ")" then pure [] else builtinArguments fuel name
    let (_, least, most) := (builtins.find? fun b => b.1 == name).getD (name, 0, 0)
    let takesPattern := ["match", "split", "sub", "gsub"].contains name
    if takesPattern && (es.length < least || most < es.length) then refuse
    expect ")"
    if es.length < least || most < es.length then
      noteHere (Octets.ofString s!"wrong number of arguments in call to {name}")
    match name, es with
    | "match", [a, b] => return .builtin name [a, ← asPattern b]
    | "sub", a :: rest | "gsub", a :: rest => return .builtin name ((← asPattern a) :: rest)
    | _, es => return .builtin name es

/-- The arguments of such a function. Some of them are names of arrays. -/
def builtinArguments (fuel : Nat) (name : String) : ParseM (List Expression) := do
  match fuel with
  | 0 => refuse
  | fuel + 1 =>
    match name with
    | "length" =>
      let s ← get
      match s.tokens with
      | (.name o, _) :: (.sign ")", _) :: _ =>
        let name := String.ofList o
        advance
        return [.variable_ name]
      | _ => expressions fuel
    | "split" =>
      let text ← expression fuel
      expect ","
      match ← peek with
      | .name o =>
        let array := String.ofList o
        useName array .array
        advance
        if ← takeSign "," then return text :: .variable_ array :: (← expressions fuel)
        else return [text, .variable_ array]
      | _ => refuse
    | _ => expressions fuel

def expressions (fuel : Nat) : ParseM (List Expression) := do
  match fuel with
  | 0 => refuse
  | fuel + 1 =>
    let e ← expression fuel
    if ← takeSign "," then return e :: (← expressions fuel) else return [e]

end

/-! ## Statements -/

/-- An output statement behind its first word. -/
def output (fuel : Nat) (isFormatted : Bool) : ParseM Statement := do
  modify fun s => { s with isPrinting := true, parentheses := 0 }
  let isEmpty : Bool ← do
    let t ← peek
    pure (t.isSeparator || match t with
      | .sign o => o == ">" || o == ">>" || o == "|"
      | _ => false)
  let arguments ← if isEmpty then pure [] else expressions fuel
  let arguments := match arguments with
    | [.group es] => es
    | arguments => arguments
  let kind? : Option OutputKind ← do
    match ← peek with
    | .sign ">" => pure (some .file)
    | .sign ">>" => pure (some .appended)
    | .sign "|" => pure (some .command)
    | _ => pure none
  modify fun s => { s with isPrinting := false }
  if isFormatted && arguments.isEmpty then noteHere "no arguments in call to printf".toList
  match kind? with
  | some kind =>
    advance
    return .print isFormatted arguments (some (kind, ← expression fuel))
  | none => return .print isFormatted arguments none

/-- Passes over what is not understood, up to the end of a statement. -/
def recover : Nat → ParseM Unit
  | 0 => throw .all
  | fuel + 1 => do
    let t ← peek
    if t.isSeparator then
      modify fun s => { s with isPrinting := false, parentheses := 0 }
      separator
    else
      match t with
      | .finish => throw .all
      | _ =>
        advance
        recover fuel

mutual

/-- A statement with its end. After a fault it is passed over. -/
def statement (fuel : Nat) : ParseM Statement := do
  match fuel with
  | 0 => refuse
  | fuel + 1 =>
    try statementBody fuel
    catch
      | .fault => do
        recover (fuel + 1)
        return .nothing
      | .all => throw .all

def statementBody (fuel : Nat) : ParseM Statement := do
  match fuel with
  | 0 => refuse
  | fuel + 1 =>
    let ended (s : Statement) : ParseM Statement := do
      separator
      return s
    let t ← peek
    if t.isSeparator then
      separator
      return .nothing
    match t with
    | .sign "\x7b" => block fuel
    | .keyword "print" =>
      advance
      ended (← output fuel false)
    | .keyword "printf" =>
      advance
      ended (← output fuel true)
    | .keyword "if" =>
      advance
      expect "("
      let test ← closing (expression fuel)
      skipLines
      let yes ← statement fuel
      if ← isKeyword "else" then
        advance
        return .branch test yes (← statement fuel)
      else return .branch test yes .nothing
    | .keyword "while" =>
      advance
      expect "("
      let test ← closing (expression fuel)
      return .loop test (← loopBody fuel)
    | .keyword "do" =>
      advance
      let body ← loopBody fuel
      if !(← isKeyword "while") then refuse
      advance
      expect "("
      let test ← closing (expression fuel)
      ended (.loopAfter body test)
    | .keyword "for" =>
      advance
      expect "("
      match (← get).tokens with
      | (.name o, _) :: (.keyword "in", _) :: (.name a, _) :: (.sign ")", _) :: _ =>
        useName (String.ofList o) .variable_
        useName (String.ofList a) .array
        advance
        advance
        advance
        expect ")"
        return .each (String.ofList o) (String.ofList a) (← loopBody fuel)
      | _ =>
        let part (close : String) : ParseM (Option Expression) := do
          if ← takeSign close then return none
          let e ← expression fuel
          expect close
          return some e
        let asStatement : Option Expression → Statement
          | some e => .expression e
          | none => .nothing
        let start ← part ";"
        let test ← part ";"
        let step ← part ")"
        return .counted (asStatement start) test (asStatement step) (← loopBody fuel)
    | .keyword "break" =>
      if (← get).loops = 0 then noteHere "break statement outside of loop".toList
      advance
      ended .leave
    | .keyword "continue" =>
      if (← get).loops = 0 then noteHere "continue statement outside of loop".toList
      advance
      ended .continue
    | .keyword "next" =>
      if (← get).isOutside then noteHere "improper use of next".toList
      advance
      ended .next
    | .keyword "nextfile" =>
      if (← get).isOutside then noteHere "improper use of nextfile".toList
      advance
      ended .nextFile
    | .keyword "exit" =>
      advance
      if (← peek).isSeparator then ended (.exit none) else ended (.exit (some (← expression fuel)))
    | .keyword "return" =>
      if (← get).scope.isNone then noteHere "return outside function body".toList
      advance
      if (← peek).isSeparator then ended (.return none)
      else ended (.return (some (← expression fuel)))
    | .keyword "delete" =>
      advance
      match ← peek with
      | .name o =>
        let array := String.ofList o
        useName array .array
        advance
        if ← takeSign "[" then
          let es ← expressions fuel
          expect "]"
          ended (.delete array (some es))
        else ended (.delete array none)
      | _ => refuse
    | _ => ended (.expression (← expression fuel))

def loopBody (fuel : Nat) : ParseM Statement := do
  match fuel with
  | 0 => refuse
  | fuel + 1 =>
    skipLines
    modify fun s => { s with loops := s.loops + 1 }
    let body ← statement fuel
    modify fun s => { s with loops := s.loops - 1 }
    return body

def block (fuel : Nat) : ParseM Statement := do
  match fuel with
  | 0 => refuse
  | fuel + 1 =>
    expect "\x7b"
    return .block (← statements fuel)

/-- Statements up to a closing brace. -/
def statements (fuel : Nat) : ParseM (List Statement) := do
  match fuel with
  | 0 => refuse
  | fuel + 1 =>
    if ← takeSign "\x7d" then return []
    else
      match ← peek with
      | .finish => refuse
      | _ => return (← statement fuel) :: (← statements fuel)

end

/-! ## Rules and functions -/

/-- A function behind its first word. -/
def function (fuel : Nat) : ParseM Unit := do
  let name ← match ← peek with
    | .name o | .called o => pure (String.ofList o)
    | _ => refuse
  if (← get).functions.any fun f => f.1 == name then
    noteHere (Octets.ofString s!"redefinition of {name}")
  useName name .function
  advance
  expect "("
  let rec names (fuel : Nat) (found : List String) : ParseM (List String) := do
    match fuel with
    | 0 => refuse
    | fuel + 1 =>
      match ← peek with
      | .name o =>
        let parameter := String.ofList o
        if found.contains parameter then
          noteHere (Octets.ofString s!"{parameter} is duplicated in argument list")
        advance
        if ← takeSign "," then names fuel (found ++ [parameter]) else return found ++ [parameter]
      | _ => refuse
  let parameters ← if ← isSign ")" then pure [] else names fuel []
  expect ")"
  skipLines
  modify fun s => { s with scope := some { parameters }, isOutside := false, loops := 0 }
  let body ← block fuel
  modify fun s =>
    let scope := s.scope.getD { parameters }
    { s with
      scope := none
      functions := s.functions ++
        [(name, { parameters, body, arrays := scope.arrays }, scope.handed)] }

/-- A rule, or a function, which is kept apart. -/
def rule (fuel : Nat) : ParseM (Option Rule) := do
  modify fun s => { s with isOutside := false, loops := 0, scope := none }
  match ← peek with
  | .keyword "function" =>
    advance
    function fuel
    return none
  | .keyword "BEGIN" =>
    advance
    modify fun s => { s with isOutside := true }
    return some ⟨.start, ← block fuel⟩
  | .keyword "END" =>
    advance
    modify fun s => { s with isOutside := true }
    return some ⟨.finish, ← block fuel⟩
  | .sign "\x7b" => return some ⟨.every, ← block fuel⟩
  | _ =>
    let first ← expression fuel
    let selector ← if ← takeSign "," then do pure (Selector.range first (← expression fuel))
      else pure (.where_ first)
    if ← isSign "\x7b" then return some ⟨selector, ← block fuel⟩
    else
      separator
      return some ⟨selector, .print false [] none⟩

/-- Passes over what is not understood, up to a block, and reads that. The numbers bound the depth
of the block and what is passed over. -/
def recoverOutside (depth : Nat) : Nat → ParseM Unit
  | 0 => throw .all
  | fuel + 1 => do
    match ← peek with
    | .finish => throw .all
    | .sign "\x7b" =>
      modify fun s => { s with isPrinting := false, parentheses := 0 }
      let _ ← block depth
    | _ =>
      advance
      recoverOutside depth fuel

/-- The rules up to the end, with a bound on their number. -/
def rules : Nat → ParseM (List Rule)
  | 0 => return []
  | fuel + 1 => do
    match ← peek with
    | .finish => return []
    | _ =>
      let depth := 40 * fuel + 100
      let r ← (do
        try rule depth
        catch
          | .fault => do
            recoverOutside depth (fuel + 1)
            return none
          | .all => throw .all : ParseM (Option Rule))
      return r.toList ++ (← rules fuel)

def spreadArrays (functions : List (String × Function × List (String × String × Nat))) :
    Nat → List (String × Function × List (String × String × Nat))
  | 0 => functions
  | fuel + 1 =>
    let marked := functions.map fun (name, f, handed) =>
      let more := handed.filterMap fun (parameter, callee, i) =>
        match functions.find? fun g => g.1 == callee with
        | some (_, g, _) =>
          match g.parameters[i]? with
          | some p =>
            if g.arrays.contains p && !f.arrays.contains parameter then some parameter else none
          | none => none
        | none => none
      (name, { f with arrays := more.eraseDups ++ f.arrays }, handed)
    spreadArrays marked fuel

def whole : ParseM Program := do
  let bound := (← get).tokens.length + 1
  let rules ← rules bound
  let s ← get
  if s.faults.isEmpty then
    for (name, count) in s.calls.eraseDups do
      match s.functions.find? fun f => f.1 == name with
      | none => noteHere (Octets.ofString s!"function {name} never defined")
      | some (_, f, _) =>
        if f.parameters.length < count then
          note 1 (Octets.ofString s!"too many arguments in call to {name}")
  let functions := spreadArrays s.functions (s.functions.length + 1)
  return { rules, functions := functions.map fun (name, f, _) => (name, f) }

end Parse

/-- The program of a text, or the messages about what is wrong with it. -/
def Program.read (text : Octets) : Except (List Octets) Program :=
  let (result, s) := Parse.whole.run { tokens := tokens text }
  match result with
  | .ok program => if s.faults.isEmpty then .ok program else .error s.faults
  | .error _ => .error s.faults

end Sweep.Awk
