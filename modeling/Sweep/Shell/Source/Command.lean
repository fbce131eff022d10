import Sweep.Shell.Source.Word

/-!
# Reading commands

Commands are read one line at a time, so that those at the start of a script are carried out even
if a later one cannot be read. What counts as a reserved word, and whether line feeds are passed
over, depends on the place, so a token that is read may be put back and looked at again.
-/

namespace Sweep.Shell

/-- The parts of the shell whose faults end the script; no function may have their names. -/
def specialParts : List String :=
  [".", ":", "break", "continue", "eval", "exec", "exit", "export", "local", "readonly", "return",
   "set", "shift", "times", "trap", "unset"]

/-- The parts of the shell whose arguments are taken for assignments. -/
def declaringParts : List String := ["export", "readonly", "local", "declare", "typeset"]

namespace Source

/-- How a token is looked for. -/
inductive TokenMode where
  | plain
  | reserved
  /-- Line feeds before the token are passed over. -/
  | reservedAfterLines
deriving DecidableEq, Repr

inductive ListKind where
  /-- The commands of one line. -/
  | line
  /-- At least one command. -/
  | body
  | optional
deriving DecidableEq, Repr

/-- Readers for what lies within a command. -/
structure Knot where
  list : ListKind → ReadM (Option Script)
  command : TokenMode → ReadM Script
  script : Bool → ReadM Script

namespace Knot

def word (k : Knot) (around : Surroundings) : ReadM Word := Source.word k.script around

end Knot

/-- Moves over blanks and a comment. -/
def skipBlanks : ReadM Unit :=
  repeating (fun (_ : Unit) => do
    match ← peek? with
    | some ' ' | some '\t' =>
      advance
      return .inl ()
    | some '#' =>
      let _ ← takeWhile (· != '\n')
      return .inr ()
    | _ => return .inr ()) ()

/-- The lines up to one that ends a text. -/
def textLines (a : AwaitedText) : ReadM Octets :=
  repeating (fun ((found, isJoined) : Octets × Bool) => do
    let rest := (← get).rest
    if rest.isEmpty then return .inr found
    let line ← takeWhile (· != '\n')
    let isLast := (← get).rest.isEmpty
    advance
    let line := if a.withoutTabs && !isJoined then line.dropWhile (· == '\t') else line
    if !isJoined && line == a.delimiter then return .inr found
    let isJoined := !a.isQuoted && (line.reverse.takeWhile (· == '\\')).length % 2 == 1
    return .inl (found ++ (if isLast then line else line ++ ['\n']), isJoined)) ([], false)

def readTexts (k : Knot) : ReadM Unit := do
  let awaited := (← get).awaited
  modify fun s => { s with awaited := [] }
  for a in awaited do
    let line := (← get).line
    let text ← textLines a
    let w : Word ← if a.isQuoted then pure [.quoted text] else within text line (k.word .lines)
    modify fun s => { s with texts := (a.number, w) :: s.texts }

/-- The sign of a redirection at the start of the text. -/
def redirectionKind : ReadM RedirectionKind := do
  let isRich := (← get).dialect = .bash
  if ← take? '>' then
    if ← take? '>' then return .append
    else if ← take? '|' then return .write
    else if ← take? '&' then return .duplicate
    else return .write
  else
    advance
    if ← take? '<' then
      if ← take? '-' then return .text true
      else if isRich && (← peek?) == some '<' then
        advance
        return .word
      else return .text false
    else if ← take? '&' then return .duplicate
    else if ← take? '>' then return .readWrite
    else return .read

/-- The digits of a descriptor before a sign of redirection. -/
def descriptorDigits (s : Source) : Octets :=
  let digits := s.rest.takeWhile Char.isDigit
  let digits := if s.dialect = .sh then digits.take 1 else digits
  match s.rest.drop digits.length with
  | '<' :: _ | '>' :: _ => digits
  | _ => []

/-- The values of a list between parentheses. -/
def listValues (k : Knot) : ReadM (List Word) :=
  repeating (fun (found : List Word) => do
    skipBlanks
    match ← peek? with
    | none => failAtLast (some .closing)
    | some '\n' =>
      advance
      return .inl found
    | some ')' =>
      advance
      return .inr found
    | some c =>
      if isMeta c then fail (.unexpected .opening none)
      return .inl (found ++ [← k.word .blanks])) []

def wordToken (k : Knot) : ReadM Token := do
  let w ← k.word .blanks
  if (← get).dialect = .bash && (← peek?) == some '(' then
    match w with
    | [.plain o] =>
      let isAdded := "+=".toList.isSuffixOf o
      let name := o.takeWhile isNameChar
      if isName name && (o.drop name.length == ['='] || o.drop name.length == ['+', '=']) then
        advance
        return .list (String.ofList name) isAdded (← listValues k)
      return .word w
    | _ => return .word w
  return .word w

/-- The next token of the text. -/
def rawToken (k : Knot) : ReadM Token := do
  skipBlanks
  let isRich := (← get).dialect = .bash
  match ← peek? with
  | none => return .finish
  | some '\n' =>
    advance
    return .newline
  | some '&' =>
    advance
    if ← take? '&' then return .both
    else if isRich && (← take? '>') then
      return .redirection 1 (.writeBoth (← take? '>'))
    else return .background
  | some '|' =>
    advance
    if ← take? '|' then return .either
    else if isRich && (← take? '&') then return .pipe true
    else return .pipe false
  | some ';' =>
    advance
    if ← take? ';' then return .endOfArm else return .semicolon
  | some '(' =>
    advance
    return .opening
  | some ')' =>
    advance
    return .closing
  | some c =>
    let digits := descriptorDigits (← get)
    if c == '<' || c == '>' || !digits.isEmpty then
      modify fun s => { s with rest := s.rest.drop digits.length }
      let isOutput := (← get).rest.head? == some '>'
      let kind ← redirectionKind
      let descriptor := if digits.isEmpty then (if isOutput then 1 else 0)
        else Octets.digitsValue digits
      return .redirection descriptor kind
    else wordToken k

/-- Puts the token read last back. -/
def pushBack : ReadM Unit := modify fun s => { s with isPushedBack := true }

/-- The next token, which may have been put back. -/
def nextToken (k : Knot) : ReadM Token := do
  let s ← get
  if s.isPushedBack then
    set { s with isPushedBack := false }
    return s.last
  else
    let t ← rawToken k
    modify fun s => { s with last := t }
    return t

def reservedName? (dialect : Dialect) (w : Word) : Option String :=
  (Word.bare? w).bind fun o =>
    let name := String.ofList o
    let isReserved := reservedWords.contains name ||
      (dialect = .bash && (name == "function" || name == "[["))
    if isReserved then some name else none

def token (k : Knot) (mode : TokenMode) : ReadM Token := do
  let t ← if mode = .reservedAfterLines then
      repeating (fun (_ : Unit) => do
        match ← nextToken k with
        | .newline =>
          readTexts k
          return .inl ()
        | t => return .inr t) ()
    else nextToken k
  let t : Token ← match t with
    | .word w =>
      if mode = .plain then pure t
      else pure (((reservedName? (← get).dialect w).map Token.reserved).getD t)
    | _ => pure t
  modify fun s => { s with last := t }
  return t

def expectReserved (k : Knot) (mode : TokenMode) (name : String) : ReadM Unit := do
  match ← token k mode with
  | .reserved found => if found != name then failAtLast (some (.reserved name))
  | _ => failAtLast (some (.reserved name))

def expectClosing (k : Knot) : ReadM Unit := do
  match ← token k .plain with
  | .closing => return
  | _ => failAtLast (some .closing)

def redirection (k : Knot) (descriptor : Nat) (kind : RedirectionKind) : ReadM Redirection := do
  match ← token k .plain with
  | .word w =>
    match kind with
    | .read => return .read descriptor w
    | .write => return .write descriptor w
    | .append => return .append descriptor w
    | .readWrite => return .readWrite descriptor w
    | .writeBoth isAppended => return .writeBoth isAppended w
    | .word => return .word descriptor w
    | .duplicate => return .duplicate descriptor w
    | .text withoutTabs =>
      let s ← get
      let number := s.nextText
      let wanted : AwaitedText :=
        { number, delimiter := Word.literal w, isQuoted := Word.isQuoted w, withoutTabs }
      set { s with nextText := number + 1, awaited := s.awaited ++ [wanted] }
      return .text descriptor number
  | _ => failAtLast

/-- Reads the redirections behind a command. -/
def redirections (k : Knot) : ReadM (List Redirection) :=
  repeating (fun (found : List Redirection) => do
    match ← token k .reserved with
    | .redirection descriptor kind => return .inl (found ++ [← redirection k descriptor kind])
    | _ =>
      pushBack
      return .inr found) []

/-- The end of a subscript in the pieces of a word, and whether a value is added. -/
def subscript? : Word → Word → Option (Word × Bool × Word)
  | reversed, .plain o :: rest =>
    let inside := o.takeWhile (· != ']')
    match o.drop inside.length with
    | ']' :: '=' :: value => some ((.plain inside :: reversed).reverse, false, .plain value :: rest)
    | ']' :: '+' :: '=' :: value =>
      some ((.plain inside :: reversed).reverse, true, .plain value :: rest)
    | _ => subscript? (.plain o :: reversed) rest
  | reversed, p :: rest => subscript? (p :: reversed) rest
  | _, [] => none

def assignment? (dialect : Dialect) (w : Word) : Option Assignment :=
  match w with
  | .plain o :: rest =>
    let name := o.takeWhile isNameChar
    if !isName name then none
    else
      let value (o : Octets) : Word := if o.isEmpty then rest else .plain o :: rest
      match o.drop name.length with
      | '=' :: o => some (.single (String.ofList name) .none false (value o))
      | '+' :: '=' :: o =>
        if dialect = .bash then some (.single (String.ofList name) .none true (value o)) else none
      | '[' :: o =>
        if dialect = .bash then
          (subscript? [] (.plain o :: rest)).map fun (position, isAdded, value) =>
            .single (String.ofList name) (.position position) isAdded value
        else none
      | _ => none
  | _ => none

/-- A command of words while it is read. -/
structure SimpleScan where
  assignments : List Assignment := []
  words : List Word := []
  redirections : List Redirection := []

/-- Whether a word names a part of the shell whose arguments are assignments. -/
def isDeclaring (words : List Word) : Bool :=
  match words.head?.bind Word.bare? with
  | some o => declaringParts.contains (String.ofList o)
  | none => false

/-- Reads the body of a function whose name and first parenthesis have been read. -/
def functionBody (k : Knot) (w : Word) : ReadM Script := do
  expectClosing k
  let name := Word.literal w
  let isRich := (← get).dialect = .bash
  if !isRich &&
      (!isName name || !(Word.bare? w).isSome || specialParts.contains (String.ofList name))
  then fail .badFunctionName
  return .define name (← k.command .reservedAfterLines)

/-- Reads a command that consists of words. -/
def simple (k : Knot) : ReadM Script := do
  let _ ← token k .plain
  pushBack
  let line := (← get).line
  repeating (fun (s : SimpleScan) => do
    let finished : ReadM (SimpleScan ⊕ Script) := do
      pushBack
      return .inr (.command line s.assignments s.words s.redirections)
    match ← token k .plain with
    | .word w =>
      let dialect := (← get).dialect
      match if s.words.isEmpty then assignment? dialect w else none with
      | some a => return .inl { s with assignments := s.assignments ++ [a] }
      | none => return .inl { s with words := s.words ++ [w] }
    | .list name isAdded values =>
      let assignments := s.assignments ++ [.list name isAdded values]
      if s.words.isEmpty then return .inl { s with assignments }
      else if isDeclaring s.words then
        return .inl { s with assignments, words := s.words ++ [[.plain name.toList]] }
      else fail (.unexpected .opening none)
    | .redirection descriptor kind =>
      return .inl { s with redirections := s.redirections ++ [← redirection k descriptor kind] }
    | .opening =>
      match s.words with
      | [w] =>
        if s.assignments.isEmpty && s.redirections.isEmpty then
          return .inr (← functionBody k w)
        else finished
      | _ => finished
    | _ => finished) {}

/-- Reads the branches of a conditional behind its first word. -/
def conditional (k : Knot) : ReadM Script := do
  let branch : ReadM (Script × Script) := do
    let condition ← k.list .body
    expectReserved k .plain "then"
    let yes ← k.list .body
    return (condition.getD .empty, yes.getD .empty)
  let branches ← repeating (fun (found : List (Script × Script)) => do
    let found := (← branch) :: found
    match ← token k .plain with
    | .reserved "elif" => return .inl found
    | _ => return .inr found) []
  let no ← match (← get).last with
    | .reserved "else" => k.list .body
    | _ => do
      pushBack
      pure none
  expectReserved k .plain "fi"
  return branches.foldl (fun no (condition, yes) => .conditional condition yes no)
    (no.getD .empty)

def loopWords (k : Knot) : ReadM (List Word) :=
  repeating (fun (found : List Word) => do
    match ← token k .plain with
    | .word w => return .inl (found ++ [w])
    | .newline | .semicolon => return .inr found
    | _ => failAtLast) []

/-- Reads the expressions of a counting loop behind its first parenthesis. -/
def counted (k : Knot) (line : Nat) : ReadM Script := do
  advance
  let start ← k.word (.upTo ';' true)
  advance
  let condition ← k.word (.upTo ';' true)
  advance
  let step ← k.word .number
  let _ ← token k .reserved
  match (← get).last with
  | .semicolon => pure ()
  | _ => pushBack
  match ← token k .reservedAfterLines with
  | .reserved "\x7b" =>
    let body ← k.list .body
    expectReserved k .plain "\x7d"
    return .counted line start condition step (body.getD .empty)
  | .reserved "do" =>
    let body ← k.list .body
    expectReserved k .plain "done"
    return .counted line start condition step (body.getD .empty)
  | _ => failAtLast (some (.reserved "do"))

/-- Reads a loop over words behind its first word. -/
def each (k : Knot) (line : Nat) : ReadM Script := do
  let t ← token k .plain
  let name ← match t with
    | .word w =>
      match Word.bare? w with
      | some name => if isName name then pure name else fail .badLoopVariable
      | none => fail .badLoopVariable
    | _ => fail .badLoopVariable
  let words ← match ← token k .reservedAfterLines with
    | .reserved "in" => do pure (some (← loopWords k))
    | .semicolon => pure none
    | _ => do
      pushBack
      pure none
  expectReserved k .reservedAfterLines "do"
  let body ← k.list .body
  expectReserved k .plain "done"
  return .each line (String.ofList name) words (body.getD .empty)

def patternOf : Token → Word
  | .word w => w
  | .reserved name => [.plain name.toList]
  | _ => []

/-- Reads the patterns of an arm, the first of which has been read, up to the parenthesis. -/
def patterns (k : Knot) : ReadM (List Word) := do
  let found ← repeating (fun (found : List Word) => do
    let found := found ++ [patternOf (← get).last]
    match ← token k .plain with
    | .pipe _ =>
      let _ ← token k .plain
      return .inl found
    | _ => return .inr found) []
  match (← get).last with
  | .closing => return found
  | _ => failAtLast (some .closing)

/-- Reads a choice between patterns behind its first word. -/
def cases (k : Knot) (line : Nat) : ReadM Script := do
  let subject ← match ← token k .plain with
    | .word w => pure w
    | _ => failAtLast (some (.word []))
  expectReserved k .reservedAfterLines "in"
  let _ ← token k .reservedAfterLines
  let arms ← repeating (fun (found : List (List Word × Script)) => do
    match (← get).last with
    | .reserved "esac" => return .inr found
    | first =>
      match first with
      | .opening => let _ ← token k .plain
      | _ => pure ()
      let fitting ← patterns k
      let body ← k.list .optional
      let found := found ++ [(fitting, body.getD .empty)]
      match ← token k .reservedAfterLines with
      | .reserved "esac" => return .inr found
      | .endOfArm =>
        let _ ← token k .reservedAfterLines
        return .inl found
      | _ => failAtLast (some .endOfArm)) []
  return .cases line subject arms

/-- The words between double brackets. -/
inductive ConditionToken where
  | word (w : Word)
  | both
  | either
  | opening
  | closing

/-- Reads the tokens of a condition up to its closing brackets. -/
def conditionTokens (k : Knot) : ReadM (List ConditionToken) :=
  repeating (fun (found : List ConditionToken) => do
    skipBlanks
    match ← peek? with
    | none => fail (.unexpected .finish none)
    | some '\n' =>
      advance
      return .inl found
    | some '(' =>
      advance
      return .inl (found ++ [.opening])
    | some ')' =>
      advance
      return .inl (found ++ [.closing])
    | some '&' =>
      advance
      advance
      return .inl (found ++ [.both])
    | some '|' =>
      advance
      advance
      return .inl (found ++ [.either])
    | some '<' =>
      advance
      return .inl (found ++ [.word [.plain ['<']]])
    | some '>' =>
      advance
      return .inl (found ++ [.word [.plain ['>']]])
    | some _ =>
      let isSearch := match found.getLast? with
        | some (.word [.plain ['=', '~']]) => true
        | _ => false
      let w ← k.word (if isSearch then .expression else .blanks)
      if Word.bare? w == some [']', ']'] then return .inr found
      else return .inl (found ++ [.word w])) []

/-- The operators with one operand in a condition. -/
def unaryOperators : List String :=
  ["-a", "-b", "-c", "-d", "-e", "-f", "-g", "-h", "-k", "-n", "-o", "-p", "-r", "-s", "-t", "-u",
   "-v", "-w", "-x", "-z", "-L", "-N", "-O", "-G", "-R", "-S"]

/-- Whether a word is one of some texts, unquoted. -/
def isOneOf (texts : List String) (w : Word) : Option String :=
  (Word.bare? w).bind fun o =>
    if texts.contains (String.ofList o) then some (String.ofList o) else none

/-- The operators with two operands in a condition. -/
def binaryOperators : List String :=
  ["=", "==", "!=", "=~", "<", ">", "-eq", "-ne", "-lt", "-le", "-gt", "-ge", "-nt", "-ot", "-ef"]

mutual

/-- Alternatives of a condition, with a bound on the steps. -/
def anyCondition : Nat → List ConditionToken → Option (Condition × List ConditionToken)
  | 0, _ => none
  | fuel + 1, ts => do
    let (a, rest) ← allConditions fuel ts
    match rest with
    | .either :: rest =>
      let (b, rest) ← anyCondition fuel rest
      return (.either a b, rest)
    | rest => return (a, rest)

/-- Conditions that have to hold together. -/
def allConditions : Nat → List ConditionToken → Option (Condition × List ConditionToken)
  | 0, _ => none
  | fuel + 1, ts => do
    let (a, rest) ← oneCondition fuel ts
    match rest with
    | .both :: rest =>
      let (b, rest) ← allConditions fuel rest
      return (.both a b, rest)
    | rest => return (a, rest)

/-- A condition without signs that join it to others. -/
def oneCondition : Nat → List ConditionToken → Option (Condition × List ConditionToken)
  | 0, _ => none
  | fuel + 1, ts =>
    match ts with
    | .opening :: rest => do
      let (a, rest) ← anyCondition fuel rest
      match rest with
      | .closing :: rest => return (a, rest)
      | _ => none
    | .word a :: rest =>
      if (isOneOf ["!"] a).isSome then do
        let (c, rest) ← oneCondition fuel rest
        return (.negation c, rest)
      else
        match rest with
        | .word o :: .word b :: after =>
          match isOneOf binaryOperators o with
          | some operator => some (.binary operator a b, after)
          | none =>
            match isOneOf unaryOperators a with
            | some operator => some (.unary operator o, .word b :: after)
            | none => some (.word a, rest)
        | .word b :: after =>
          match isOneOf unaryOperators a with
          | some operator => some (.unary operator b, after)
          | none => some (.word a, rest)
        | _ => some (.word a, rest)
    | _ => none

end

/-- Reads a condition behind its opening brackets. -/
def condition (k : Knot) (line : Nat) : ReadM Script := do
  let ts ← conditionTokens k
  match anyCondition (4 * ts.length + 4) ts with
  | some (c, []) => return .condition line c
  | _ => fail (.unexpected (.reserved "]]") none)

def announcedFunction (k : Knot) : ReadM Script := do
  match ← token k .plain with
  | .word w =>
    match ← token k .reservedAfterLines with
    | .opening => expectClosing k
    | _ => pushBack
    return .define (Word.literal w) (← k.command .reservedAfterLines)
  | _ => failAtLast

/-- Adds the redirections behind a command. -/
def redirected (k : Knot) (line : Nat) (script : Script) : ReadM Script := do
  match ← redirections k with
  | [] => return script
  | found =>
    match script with
    | .subshell line body _ => return .subshell line body found
    | script => return .redirected line script found

def command (k : Knot) (mode : TokenMode) : ReadM Script := do
  let line := (← get).line
  let t ← token k mode
  let compound (script : Script) : ReadM Script := redirected k line script
  match t with
  | .reserved "if" => compound (← conditional k)
  | .reserved "while" | .reserved "until" =>
    let isUntil := match t with
      | .reserved "until" => true
      | _ => false
    let condition ← k.list .body
    expectReserved k .plain "do"
    let body ← k.list .body
    expectReserved k .plain "done"
    compound (.loop isUntil (condition.getD .empty) (body.getD .empty))
  | .reserved "for" =>
    skipBlanks
    if (← get).dialect = .bash && "((".toList.isPrefixOf (← get).rest then
      advance
      compound (← counted k line)
    else compound (← each k line)
  | .reserved "case" => compound (← cases k line)
  | .reserved "\x7b" =>
    let body ← k.list .body
    expectReserved k .plain "\x7d"
    compound (body.getD .empty)
  | .reserved "function" => announcedFunction k
  | .reserved "[[" => compound (← condition k line)
  | .opening =>
    if (← get).dialect = .bash && (← get).rest.head? == some '(' then
      advance
      let w ← k.word .number
      compound (.number line w)
    else
      let body ← k.list .body
      expectClosing k
      compound (.subshell line (body.getD .empty) [])
  | .word _ | .redirection _ _ | .list _ _ _ =>
    pushBack
    simple k
  | _ => failAtLast

/-- Messages of a command that go where its output goes. -/
def withMessages (script : Script) : Script :=
  .redirected 0 script [.duplicate 2 [.plain ['1']]]

/-- Reads commands with pipes between them. -/
def pipeline (k : Knot) (mode : TokenMode) : ReadM Script := do
  let negated ← match ← token k mode with
    | .reserved "!" => pure true
    | _ => do
      pushBack
      pure false
  let first ← command k (if negated then .reserved else .plain)
  let stages ← repeating (fun (found : List Script) => do
    match ← token k .plain with
    | .pipe isMessage =>
      let found := if isMessage then found.dropLast ++ (found.getLast?.map withMessages).toList
        else found
      return .inl (found ++ [← command k .reservedAfterLines])
    | _ =>
      pushBack
      return .inr found) [first]
  let script := match stages with
    | [one] => one
    | stages => .pipe stages
  return if negated then .negation script else script

/-- Reads pipelines that depend on each other. -/
def conjunction (k : Knot) : ReadM Script := do
  let first ← pipeline k .plain
  repeating (fun (script : Script) => do
    match ← token k .plain with
    | .both => return .inl (.both script (← pipeline k .reservedAfterLines))
    | .either => return .inl (.either script (← pipeline k .reservedAfterLines))
    | _ =>
      pushBack
      return .inr script) first

/-- Reads commands up to what ends their list. -/
def list (k : Knot) (kind : ListKind) : ReadM (Option Script) := do
  let mode : TokenMode := if kind = .line then .reserved else .reservedAfterLines
  repeating (fun ((before, mayEnd) : Option Script × Bool) => do
    let ended : ReadM ((Option Script × Bool) ⊕ Option Script) := do
      readTexts k
      pushBack
      modify fun s => { s with last := .finish }
      return .inr before
    match ← token k mode with
    | .newline =>
      readTexts k
      return .inr before
    | .finish => ended
    | t =>
      pushBack
      if mayEnd && t.endsList then return .inr before
      let one ← conjunction k
      let line := (← get).line
      let finished (script : Script) : ReadM ((Option Script × Bool) ⊕ Option Script) := do
        return .inr (some (Script.after before script))
      let mayEnd := kind != .line
      match ← token k .plain with
      | .finish =>
        readTexts k
        pushBack
        modify fun s => { s with last := .finish }
        finished one
      | .newline =>
        pushBack
        return .inl (some (Script.after before one), mayEnd)
      | .background => return .inl (some (Script.after before (.background line one)), mayEnd)
      | .semicolon => return .inl (some (Script.after before one), mayEnd)
      | _ =>
        if kind = .line then failAtLast
        pushBack
        finished one) (none, decide (kind = .optional))

/-- Reads a script that stands in a word. -/
def innerScript (k : Knot) (isParenthesized : Bool) : ReadM Script := do
  let body ← list k .optional
  if isParenthesized then expectClosing k
  return body.getD .empty

/-- The readers for what lies within, with a bound on the depth. -/
def knot : Nat → Knot
  | 0 =>
    { list := fun _ => failAtLast
      command := fun _ => failAtLast
      script := fun _ => failAtLast }
  | depth + 1 =>
    -- Nothing is built for a depth before something that deep is found.
    { list := fun kind => list (knot depth) kind
      command := fun mode => command (knot depth) mode
      script := fun isParenthesized => innerScript (knot depth) isParenthesized }

/-- Reads the commands of the next line, if there is another one. -/
def commandLine : ReadM (Option Script) := do
  modify fun s => { s with isPushedBack := false, awaited := [] }
  let found ← list (knot ((← get).rest.length + 2)) .line
  match found, (← get).last with
  | none, .finish => return none
  | none, _ => return some .empty
  | some script, _ => return some script

end Source

end Sweep.Shell
