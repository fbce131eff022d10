import Sweep.Shell.Tool.Basic

/-!
# Tests

`test` tells by its status whether a condition on texts, numbers or files holds. Its arguments are
read from left to right; a word that could be an operator counts as an operand where an operator
makes no sense. The richer dialect decides by the number of arguments first.
-/

namespace Sweep.Tool

/-- Why a test has no answer. -/
inductive TestFault where
  | notNumber (o : Octets)
  | unexpected (o : Octets)
  | argumentExpected (operator : Octets)
  | closingExpected
  | unaryExpected (o : Octets)
  | binaryExpected (o : Octets)
  | tooMany

/-- What decides conditions: the files, and the dialect. -/
structure TestContext where
  files : FileTree
  isRich : Bool
  /-- Whether the program of the same name is meant. -/
  isProgram : Bool := false

def TestFault.message (c : TestContext) : TestFault → Octets
  | .notNumber o =>
    if c.isProgram then Octets.ofString "invalid integer " ++ Octets.quoted o
    else if c.isRich then o ++ Octets.ofString ": integer expression expected"
    else Octets.ofString "Illegal number: " ++ o
  | .unexpected o =>
    if c.isProgram then Octets.ofString "extra argument " ++ Octets.quoted o
    else o ++ Octets.ofString ": unexpected operator"
  | .argumentExpected o =>
    if c.isProgram then Octets.ofString "missing argument after " ++ Octets.quoted o
    else if c.isRich then o ++ Octets.ofString ": argument expected"
    else o ++ Octets.ofString ": argument expected"
  | .closingExpected =>
    if c.isProgram then Octets.ofString "')' expected"
    else if c.isRich then Octets.ofString "\x60)' expected"
    else Octets.ofString "closing paren expected"
  | .unaryExpected o =>
    if c.isProgram then Octets.quoted o ++ Octets.ofString ": unary operator expected"
    else o ++ Octets.ofString ": unary operator expected"
  | .binaryExpected o =>
    if c.isProgram then Octets.quoted o ++ Octets.ofString ": binary operator expected"
    else o ++ Octets.ofString ": binary operator expected"
  | .tooMany => Octets.ofString "too many arguments"

/-- Paths that always lead somewhere, though to no file. -/
def isDevice (path : String) : Bool :=
  ["/dev/null", "/dev/stdin", "/dev/stdout", "/dev/stderr", "/dev/zero", "/dev/tty"].contains path

/-- Whether a condition on one operand holds. -/
def unaryTest (c : TestContext) (operator : String) (a : Octets) : Bool :=
  let t := c.files
  let path := Octets.toText a
  match operator with
  | "-n" => !a.isEmpty
  | "-z" => a.isEmpty
  | "-e" | "-r" | "-w" | "-a" | "-O" | "-G" => t.leadsSomewhere path || isDevice path
  | "-f" => t.isFile path
  | "-d" => t.isDirectory path || ["/", "/bin", "/usr", "/usr/bin", "/dev", "/etc"].contains path
  | "-c" => isDevice path
  | "-s" =>
    match t.find path with
    | .ok (.file content _) => content.size != 0
    | .ok .directory => true
    | .error _ => false
  | "-x" =>
    match t.find path with
    | .ok (.file _ executable) => executable
    | .ok .directory => true
    | .error _ => false
  | _ => false

def unaryOperators : List String :=
  ["-r", "-w", "-x", "-e", "-f", "-d", "-c", "-b", "-p", "-u", "-g", "-k", "-s", "-t", "-z", "-n",
   "-h", "-O", "-G", "-L", "-S"]

def binaryOperators (c : TestContext) : List String :=
  ["=", "!=", "<", ">", "-eq", "-ne", "-ge", "-gt", "-le", "-lt", "-nt", "-ot", "-ef"] ++
    (if c.isRich then ["=="] else [])

/-- The number that an operand stands for. -/
def testNumber (o : Octets) : Except TestFault Int :=
  match Octets.toInt? o with
  | some n => if -(1 <<< 63 : Nat) ≤ n && n < (1 <<< 63 : Nat) then .ok n else .error (.notNumber o)
  | none => .error (.notNumber o)

/-- Whether a condition on two operands holds. -/
def binaryTest (c : TestContext) (operator : String) (a b : Octets) : Except TestFault Bool :=
  let compare (p : Int → Int → Bool) : Except TestFault Bool := do
    return p (← testNumber a) (← testNumber b)
  match operator with
  | "=" | "==" => .ok (a == b)
  | "!=" => .ok (a != b)
  | "<" => .ok (!Octets.le b a)
  | ">" => .ok (!Octets.le a b)
  | "-eq" => compare fun m n => m == n
  | "-ne" => compare fun m n => m != n
  | "-lt" => compare fun m n => decide (m < n)
  | "-le" => compare fun m n => decide (m ≤ n)
  | "-gt" => compare fun m n => decide (m > n)
  | "-ge" => compare fun m n => decide (m ≥ n)
  | "-nt" =>
    .ok (c.files.leadsSomewhere (Octets.toText a) && !c.files.leadsSomewhere (Octets.toText b))
  | "-ot" =>
    .ok (!c.files.leadsSomewhere (Octets.toText a) && c.files.leadsSomewhere (Octets.toText b))
  | _ => .ok (a == b && c.files.leadsSomewhere (Octets.toText a))

inductive TestWord where
  | finish
  | operand
  | unary (operator : String)
  | binary (operator : String)
  | negation
  | both
  | either
  | opening
  | closing
deriving DecidableEq

def plainTestWord (c : TestContext) (o : Octets) : TestWord :=
  let text := Octets.toText o
  if unaryOperators.contains text then .unary text
  else if (binaryOperators c).contains text then .binary text
  else
    match text with
    | "!" => .negation
    | "-a" => .both
    | "-o" => .either
    | "(" => .opening
    | ")" => .closing
    | _ => .operand

/-- What the first of some words is, seen together with those behind it. -/
def testWord (c : TestContext) : List Octets → TestWord
  | [] => .finish
  | o :: rest =>
    match plainTestWord c o with
    | .unary operator =>
      let isOperand := match rest with
        | [] => true
        | [_] => false
        | next :: _ =>
          match plainTestWord c next with
          | .binary _ => true
          | _ => false
      if isOperand then .operand else .unary operator
    | .opening => if rest.isEmpty then .operand else .opening
    | w => w

mutual

/-- Alternatives, read from the words whose first one has been looked at. What is left begins with
the last word that was used. The number bounds the steps. -/
def testAny (c : TestContext) : Nat → TestWord → List Octets → Except TestFault (Bool × List Octets)
  | 0, _, ws => .ok (false, ws)
  | fuel + 1, w, ws => do
    let (a, ws) ← testAll c fuel w ws
    if testWord c (ws.drop 1) = .either then
      let ws := ws.drop 2
      let (b, ws) ← testAny c fuel (testWord c ws) ws
      return (a || b, ws)
    else return (a, ws)

def testAll (c : TestContext) : Nat → TestWord → List Octets → Except TestFault (Bool × List Octets)
  | 0, _, ws => .ok (false, ws)
  | fuel + 1, w, ws => do
    let (a, ws) ← testOne c fuel w ws
    if testWord c (ws.drop 1) = .both then
      let ws := ws.drop 2
      let (b, ws) ← testAll c fuel (testWord c ws) ws
      return (a && b, ws)
    else return (a, ws)

def testOne (c : TestContext) : Nat → TestWord → List Octets → Except TestFault (Bool × List Octets)
  | 0, _, ws => .ok (false, ws)
  | fuel + 1, w, ws => do
    match w with
    | .negation =>
      let next := testWord c (ws.drop 1)
      let (a, ws) ← testOne c fuel next (if next = .finish then ws else ws.drop 1)
      return (!a, ws)
    | .finish => return (false, ws)
    | .opening =>
      let ws := ws.drop 1
      let next := testWord c ws
      if next = .closing then return (false, ws)
      let (a, ws) ← testAny c fuel next ws
      let ws := ws.drop 1
      if testWord c ws = .closing then return (a, ws) else .error .closingExpected
    | .unary operator =>
      match ws.drop 1 with
      | [] => .error (.argumentExpected operator.toList)
      | a :: rest => return (unaryTest c operator a, a :: rest)
    | _ =>
      match testWord c (ws.drop 1) with
      | .binary operator =>
        match ws with
        | a :: _ :: b :: rest => return (← binaryTest c operator a b, b :: rest)
        | _ => .error (.argumentExpected operator.toList)
      | _ => return (!(ws.headD []).isEmpty, ws)

end

/-- Whether a condition holds, by the rules of the standard dialect. -/
def testPlain (c : TestContext) : Nat → List Octets → Except TestFault Bool
  | 0, _ => .ok false
  | fuel + 1, ws => do
    let evaluate (w : TestWord) (ws : List Octets) : Except TestFault Bool := do
      let (a, rest) ← testAny c (8 * ws.length + 8) w ws
      match rest with
      | o :: _ :: _ => .error (.unexpected o)
      | _ => return a
    let grouped : Except TestFault Bool :=
      if ws.head? == some ['('] && ws.getLast? == some [')'] then
        let inside := (ws.drop 1).dropLast
        evaluate (testWord c inside) inside
      else if ws.head? == some ['!'] then (testPlain c fuel (ws.drop 1)).map not
      else evaluate (testWord c ws) ws
    match ws with
    | [] => return false
    | [_, o, _] =>
      match plainTestWord c o with
      | .binary _ => evaluate .operand ws
      | _ => grouped
    | [_, _, _, _] => grouped
    | ws => evaluate (testWord c ws) ws

/-- Whether a condition holds, decided by the number of words first. -/
def testCounted (c : TestContext) : Nat → List Octets → Except TestFault Bool
  | 0, _ => .ok false
  | fuel + 1, ws => do
    match ws with
    | [] => return false
    | [a] => return !a.isEmpty
    | [a, b] =>
      if a == ['!'] then return b.isEmpty
      else
        match plainTestWord c a with
        | .unary operator => return unaryTest c operator b
        | _ => if a == "-a".toList then return unaryTest c "-e" b else .error (.unaryExpected a)
    | [a, o, b] =>
      match plainTestWord c o with
      | .binary operator => binaryTest c operator a b
      | .both => return !a.isEmpty && !b.isEmpty
      | .either => return !a.isEmpty || !b.isEmpty
      | _ =>
        if a == ['!'] then return !(← testCounted c fuel [o, b])
        else if a == ['('] && b == [')'] then return !o.isEmpty
        else .error (.binaryExpected o)
    | ws =>
      if ws.length = 4 && ws.head? == some ['!'] then
        return !(← testCounted c fuel (ws.drop 1))
      else if ws.length = 4 && ws.head? == some ['('] && ws.getLast? == some [')'] then
        testCounted c fuel (ws.drop 1).dropLast
      else
        let (a, rest) ← testAny c (8 * ws.length + 8) (testWord c ws) ws
        match rest with
        | _ :: _ :: _ => .error .tooMany
        | _ => return a

def testAs (isRich isProgram : Bool) (c : ToolCall) : ToolM Unit := do
  let context : TestContext := { files := (← get).files, isRich := isRich || isProgram, isProgram }
  let isBracket := c.name.toList.getLast? == some '['
  let words ← if isBracket then
      if c.arguments.getLast? == some [']'] then pure c.arguments.dropLast
      else if isProgram then c.fail 2 (Octets.ofString "missing ']'")
      else if isRich then c.fail 2 (Octets.ofString "missing \x60]'")
      else c.fail 2 (Octets.ofString "missing ]")
    else pure c.arguments
  let answer := if isRich || isProgram then testCounted context (words.length + 1) words
    else testPlain context (words.length + 1) words
  match answer with
  | .ok holds => setStatus (if holds then 0 else 1)
  | .error fault => c.fail 2 (fault.message context)

end Sweep.Tool
