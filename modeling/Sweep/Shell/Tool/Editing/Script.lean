import Sweep.Shell.Regex
import Sweep.Shell.Tool.Printing

/-!
# Scripts of edits

A script for `sed` is a list of commands, each of which may be meant for certain lines only. Blocks
and labels are replaced by the numbers of the commands to go on with.
-/

namespace Sweep.Tool.Editing

/-- An expression, or the one that was used last. -/
structure Pattern where
  regex : Option Regex
  groups : Nat := 0
  matching : Regex.Matching := {}

/-- Which line is meant. -/
inductive Address where
  | line (n : Nat)
  | last
  | matching (p : Pattern)
  /-- A line, and every so many lines after it. -/
  | steps (first step : Nat)
  /-- So many lines after the start of a range. -/
  | further (n : Nat)
  /-- The next line whose number is a multiple. -/
  | multiple (n : Nat)

inductive ReplacementPart where
  | text (o : Octets)
  /-- What a group has matched, or the whole match. -/
  | group (n : Nat)
  /-- Changes the case of what follows: `U`, `L`, until `E`, or of one letter: `u`, `l`. -/
  | recase (letter : Char)

structure Substitution where
  pattern : Pattern
  replacement : List ReplacementPart
  isGlobal : Bool := false
  nth : Nat := 1
  isPrinted : Bool := false
  file : Option Octets := none

inductive Action where
  /-- A command that is told by its letter alone. -/
  | plain (letter : Char)
  | skipUnless (finish : Nat)
  | substitute (s : Substitution)
  | transliterate (pairs : List (Char × Char))
  | jump (letter : Char) (target : Nat)
  | text (letter : Char) (o : Octets)
  | file (letter : Char) (path : Octets)
  | quit (isSilent : Bool) (status : Nat)
  | listing (width : Option Nat)

structure EditCommand where
  first : Option Address := none
  second : Option Address := none
  isNegated : Bool := false
  action : Action

/-! ## Reading -/

/-- Why a text is no script. -/
structure EditFault where
  /-- The number of bytes up to the fault, if it has a place. -/
  position : Option Nat
  message : String

/-- What is left of a script, and how many bytes have been taken. -/
structure EditSource where
  rest : Octets
  taken : Nat := 0

abbrev EditM := StateT EditSource (Except EditFault)

namespace EditM

def next : EditM (Option Char) := do
  let s ← get
  match s.rest with
  | c :: rest =>
    set { rest, taken := s.taken + 1 : EditSource }
    return some c
  | [] => return none

def peek : EditM (Option Char) := do return (← get).rest.head?

def skip (n : Nat) : EditM Unit :=
  modify fun s => { rest := s.rest.drop n, taken := s.taken + min n s.rest.length }

def fail {α : Type} (message : String) : EditM α := do
  throw { position := some (← get).taken, message }

def skipBlanks : EditM Unit := do
  let blanks := (← get).rest.takeWhile fun c => c == ' ' || c == '\t'
  skip blanks.length

def skipSpace : EditM Unit := do
  let blanks := (← get).rest.takeWhile Octets.isSpace
  skip blanks.length

/-- Decimal digits. -/
def number : EditM Nat := do
  let digits := (← get).rest.takeWhile Char.isDigit
  skip digits.length
  return Octets.digitsValue digits

def line : EditM Octets := do
  let o := (← get).rest.takeWhile (· != '\n')
  skip o.length
  return o

end EditM

/-- The length of a bracket expression behind its opening bracket, if it is closed. -/
def bracketLength (o : Octets) : Option Nat :=
  let start := match o with
    | '^' :: ']' :: _ => 2
    | '^' :: _ => 1
    | ']' :: _ => 1
    | _ => 0
  let rec go : Nat → Nat → Octets → Option Nat
    | 0, _, _ => none
    | fuel + 1, n, rest =>
      match rest with
      | [] | '\n' :: _ => none
      | ']' :: _ => some (n + 1)
      | '[' :: c :: more =>
        if c == ':' || c == '.' || c == '=' then
          let inside := more.takeWhile (· != c)
          match more.drop inside.length with
          | _ :: ']' :: after => go fuel (n + inside.length + 4) after
          | _ => go fuel (n + 1) (c :: more)
        else go fuel (n + 1) (c :: more)
      | _ :: more => go fuel (n + 1) more
  go (o.length + 1) start (o.drop start)

/-- The text up to a delimiter, which loses the backslash before it; nothing if there is none. In an
expression a delimiter between brackets does not count. -/
def delimited (delimiter : Char) (isRegex : Bool) : Nat → Octets → EditM (Option Octets)
  | 0, _ => return none
  | fuel + 1, found => do
    match (← get).rest with
    | [] => return none
    | '\n' :: rest =>
      if isRegex then return none
      else if delimiter == '\n' then
        EditM.skip 1
        return some found.reverse
      else
        let _ := rest
        EditM.skip 1
        delimited delimiter isRegex fuel ('\n' :: found)
    | c :: rest =>
      if c == delimiter then
        EditM.skip 1
        return some found.reverse
      else if c == '\\' then
        match rest with
        | [] =>
          EditM.skip 1
          return none
        | d :: _ =>
          EditM.skip 2
          if d == delimiter then
            let kept : Octets := if !isRegex && d == '&' then [d, '\\'] else [d]
            delimited delimiter isRegex fuel (kept ++ found)
          else delimited delimiter isRegex fuel (d :: '\\' :: found)
      else if c == '[' && isRegex then
        match bracketLength rest with
        | some n =>
          EditM.skip (n + 1)
          let inside := rest.take n
          -- A delimiter may be escaped here as well.
          let cleaned := unescaped delimiter inside
          delimited delimiter isRegex fuel (cleaned.reverse ++ '[' :: found)
        | none =>
          let after := (rest.takeWhile (· != '\n')).length
          EditM.skip (after + 1)
          return none
      else
        EditM.skip 1
        delimited delimiter isRegex fuel (c :: found)
where
  unescaped (delimiter : Char) : Octets → Octets
    | '\\' :: c :: rest =>
      if c == delimiter then c :: unescaped delimiter rest
      else '\\' :: unescaped delimiter (c :: rest)
    | c :: rest => c :: unescaped delimiter rest
    | [] => []

/-- The byte that a letter after a backslash stands for. -/
def letterByte? : Char → Option Char
  | 'a' => some '\x07'
  | 'f' => some '\x0c'
  | 'n' => some '\n'
  | 'r' => some '\r'
  | 't' => some '\t'
  | 'v' => some '\x0b'
  | _ => none

/-- The byte that a number after a backslash stands for, and the bytes that it takes behind the
backslash. -/
def numberByte? (o : Octets) : Option (Char × Nat) :=
  let read (base width : Nat) (isDigit : Char → Bool) (digits : Octets) : Option (Char × Nat) :=
    let found := (digits.take width).takeWhile isDigit
    if found.isEmpty then none
    else
      let value := found.foldl (fun n c => n * base + (Number.hexDigit? c).getD 0) 0
      some (Char.ofNat (value % 256), found.length + 1)
  match o with
  | 'x' :: rest => read 16 2 (fun c => (Number.hexDigit? c).isSome) rest
  | 'o' :: rest => read 8 3 isOctal rest
  | 'd' :: rest => read 10 3 Char.isDigit rest
  | 'c' :: c :: _ => some (Char.ofNat (Nat.xor c.toUpper.toNat 64), 2)
  | _ => none

/-- An expression with numbers after backslashes replaced by bytes that stand for themselves. -/
def plainRegex : Nat → Octets → Octets
  | 0, o => o
  | fuel + 1, o =>
    match o with
    | '\\' :: rest =>
      match numberByte? rest with
      | some (b, n) =>
        let shown : Octets := if "^$.*[]\\".toList.contains b then ['\\', b] else [b]
        shown ++ plainRegex fuel (rest.drop n)
      | none =>
        match rest with
        | c :: more => '\\' :: c :: plainRegex fuel more
        | [] => ['\\']
    | '[' :: rest =>
      match bracketLength rest with
      | some n => '[' :: bracketText (rest.take n) ++ plainRegex fuel (rest.drop n)
      | none => '[' :: plainRegex fuel rest
    | c :: rest => c :: plainRegex fuel rest
    | [] => []
where
  /-- Letters after backslashes have their meaning between brackets as well. -/
  bracketText : Octets → Octets
    | '\\' :: c :: rest =>
      match letterByte? c with
      | some b => b :: bracketText rest
      | none => '\\' :: bracketText (c :: rest)
    | c :: rest => c :: bracketText rest
    | [] => []

/-- Reads an expression; an empty one stands for the one that was used last. -/
def pattern (isExtended : Bool) (text : Octets) (matching : Regex.Matching) : EditM Pattern := do
  if text.isEmpty then return { regex := none, matching }
  let grammar : Regex.Grammar := { isExtended, letter := letterByte? }
  match Regex.read grammar (plainRegex (text.length + 1) text) with
  | .ok (regex, groups) => return { regex := some regex, groups, matching }
  | .error f => EditM.fail f.message

def replacementParts : Nat → Octets → List ReplacementPart
  | 0, _ | _, [] => []
  | fuel + 1, '\\' :: c :: rest =>
    if c.isDigit then .group (c.toNat - '0'.toNat) :: replacementParts fuel rest
    else if "ULEul".toList.contains c then .recase c :: replacementParts fuel rest
    else
      match letterByte? c with
      | some b => .text [b] :: replacementParts fuel rest
      | none =>
        match numberByte? (c :: rest) with
        | some (b, n) => .text [b] :: replacementParts fuel ((c :: rest).drop n)
        | none => .text [c] :: replacementParts fuel rest
  | fuel + 1, '&' :: rest => .group 0 :: replacementParts fuel rest
  | fuel + 1, c :: rest => .text [c] :: replacementParts fuel rest

def address (isExtended : Bool) : EditM (Option Address) := do
  let regex (delimiter : Char) : EditM (Option Address) := do
    match ← delimited delimiter true ((← get).rest.length + 1) [] with
    | none => EditM.fail "unterminated address regex"
    | some text =>
      let flags := (← get).rest.takeWhile fun c => c == 'I' || c == 'M'
      EditM.skip flags.length
      let p ← pattern isExtended text
        { ignoreCase := flags.contains 'I', hasLines := flags.contains 'M' }
      return some (.matching p)
  match (← get).rest with
  | '$' :: _ =>
    EditM.skip 1
    return some .last
  | '/' :: _ =>
    EditM.skip 1
    regex '/'
  | '\\' :: c :: _ =>
    EditM.skip 2
    regex c
  | c :: _ =>
    if c.isDigit then
      let n ← EditM.number
      EditM.skipBlanks
      if (← EditM.peek) == some '~' then
        EditM.skip 1
        return some (.steps n (← EditM.number))
      return some (.line n)
    else return none
  | [] => return none

/-- Reads the second address of a range. -/
def secondAddress (isExtended : Bool) : EditM Address := do
  match ← EditM.peek with
  | some '+' =>
    EditM.skip 1
    return .further (← EditM.number)
  | some '~' =>
    EditM.skip 1
    return .multiple (← EditM.number)
  | _ =>
    match ← address isExtended with
    | some a => return a
    | none =>
      EditM.skip 0
      EditM.fail "unexpected \x60,'"

/-- Checks that a command has come to its end. -/
def endOfCommand : EditM Unit := do
  EditM.skipBlanks
  match ← EditM.peek with
  | none | some '\x7d' | some '#' => return
  | some c =>
    EditM.skip 1
    if c != '\n' && c != ';' then EditM.fail "extra characters after command"

/-- The text that a command adds, up to the end of a line whose end is not escaped. -/
def addedText : Nat → Octets → Octets × Nat
  | 0, _ | _, [] => ([], 0)
  | _ + 1, '\n' :: _ => ([], 1)
  | fuel + 1, '\\' :: c :: rest =>
    let (text, n) := addedText fuel rest
    ((letterByte? c).getD c :: text, n + 2)
  | _ + 1, ['\\'] => ([], 1)
  | fuel + 1, c :: rest =>
    let (text, n) := addedText fuel rest
    (c :: text, n + 1)

/-- Reads the text that a command adds. -/
def textArgument : EditM Octets := do
  EditM.skipBlanks
  match (← get).rest with
  | [] => EditM.fail "expected \\ after \x60a', \x60c' or \x60i'"
  | '\n' :: _ => EditM.fail "expected \\ after \x60a', \x60c' or \x60i'"
  | '\\' :: rest =>
    let blanks := rest.takeWhile fun c => c == ' ' || c == '\t'
    match rest.drop blanks.length with
    | '\n' :: _ => EditM.skip (blanks.length + 2)
    | [] => EditM.skip (blanks.length + 1)
    | _ => EditM.skip 1
  | _ => pure ()
  let s ← get
  let (text, n) := addedText (s.rest.length + 1) s.rest
  EditM.skip n
  return if s.rest.isEmpty then [] else text ++ ['\n']

def label : EditM Octets := do
  EditM.skipBlanks
  let o := (← get).rest.takeWhile fun c => !Octets.isSpace c && c != ';' && c != '\x7d'
  EditM.skip o.length
  return o

def fileName : EditM Octets := do
  EditM.skipBlanks
  let o ← EditM.line
  if o.isEmpty then EditM.fail "missing filename in r/R/w/W commands"
  EditM.skip 1
  return o

structure SubstitutionFlags where
  isGlobal : Bool := false
  isPrinted : Bool := false
  nth : Option Nat := none
  matching : Regex.Matching := {}
  file : Option Octets := none

/-- Reads the flags of a substitution, with a bound on their number. -/
def substitutionFlags : Nat → SubstitutionFlags → EditM SubstitutionFlags
  | 0, f => return f
  | fuel + 1, f => do
    match ← EditM.peek with
    | none | some '\x7d' | some '#' => return f
    | some c =>
      EditM.skip 1
      match c with
      | 'g' =>
        if f.isGlobal then EditM.fail "multiple \x60g' options to \x60s' command"
        substitutionFlags fuel { f with isGlobal := true }
      | 'p' =>
        if f.isPrinted then EditM.fail "multiple \x60p' options to \x60s' command"
        substitutionFlags fuel { f with isPrinted := true }
      | 'i' | 'I' =>
        substitutionFlags fuel { f with matching := { f.matching with ignoreCase := true } }
      | 'm' | 'M' =>
        substitutionFlags fuel { f with matching := { f.matching with hasLines := true } }
      | 'w' => return { f with file := some (← fileName) }
      | '\n' | ';' => return f
      | ' ' | '\t' | '\r' => substitutionFlags fuel f
      | c =>
        if c.isDigit then
          if f.nth.isSome then EditM.fail "multiple number options to \x60s' command"
          let more := (← get).rest.takeWhile Char.isDigit
          EditM.skip more.length
          let n := Octets.digitsValue (c :: more)
          if n = 0 then EditM.fail "number option to \x60s' command may not be zero"
          substitutionFlags fuel { f with nth := some n }
        else EditM.fail "unknown option to \x60s'"

/-- A command whose jumps still have names. -/
inductive NamedAction where
  | action (a : Action)
  | opening
  | closing
  | label (name : Octets)
  | jump (letter : Char) (name : Octets)

structure NamedCommand where
  first : Option Address := none
  second : Option Address := none
  isNegated : Bool := false
  action : NamedAction

/-- The pairs of a transliteration, with escapes. -/
def transliterationSide : Nat → Octets → List Char
  | 0, _ | _, [] => []
  | fuel + 1, '\\' :: c :: rest =>
    match letterByte? c with
    | some b => b :: transliterationSide fuel rest
    | none => (if c == '\\' then [c] else ['\\', c]) ++ transliterationSide fuel rest
  | fuel + 1, c :: rest => c :: transliterationSide fuel rest

/-- Reads what a command does; its letter has been taken. The flag says whether it has an address,
and the number how many it has. -/
def action (isExtended : Bool) (addresses : Nat) (letter : Char) : EditM NamedAction := do
  let plain : EditM NamedAction := do
    endOfCommand
    return .action (.plain letter)
  match letter with
  | '\x7b' => return .opening
  | '\x7d' =>
    if 0 < addresses then EditM.fail "\x7d doesn't want any addresses"
    endOfCommand
    return .closing
  | '=' | 'd' | 'D' | 'g' | 'G' | 'h' | 'H' | 'n' | 'N' | 'p' | 'P' | 'x' | 'z' | 'F' => plain
  | 'l' | 'L' =>
    EditM.skipBlanks
    let width ←
      if (← EditM.peek).any Char.isDigit then do pure (some (← EditM.number)) else pure none
    endOfCommand
    return .action (.listing width)
  | 'q' | 'Q' =>
    if addresses = 2 then EditM.fail "command only uses one address"
    EditM.skipBlanks
    let status ← EditM.number
    endOfCommand
    return .action (.quit (letter == 'Q') status)
  | 'a' | 'i' | 'c' => return .action (.text letter (← textArgument))
  | 'r' | 'R' | 'w' | 'W' => return .action (.file letter (← fileName))
  | ':' =>
    if 0 < addresses then EditM.fail ": doesn't want any addresses"
    let name ← label
    if name.isEmpty then EditM.fail "\":\" lacks a label"
    endOfCommand
    return .label name
  | 'b' | 't' | 'T' =>
    let name ← label
    endOfCommand
    return .jump letter name
  | 'v' =>
    let _ ← label
    endOfCommand
    return .action (.plain 'v')
  | 's' =>
    let bound := (← get).rest.length + 1
    let unterminated {α : Type} : EditM α := EditM.fail "unterminated \x60s' command"
    match ← EditM.next with
    | none | some '\n' | some '\\' => unterminated
    | some delimiter =>
      match ← delimited delimiter true bound [] with
      | none => unterminated
      | some text =>
        match ← delimited delimiter false bound [] with
        | none => unterminated
        | some replacement =>
          let f ← substitutionFlags bound {}
          let p ← pattern isExtended text f.matching
          let parts := replacementParts (replacement.length + 1) replacement
          let greatest := parts.foldl (fun n part =>
            match part with
            | .group k => max n k
            | _ => n) 0
          if p.regex.isSome && p.groups < greatest then
            EditM.fail s!"invalid reference \\{toString greatest} on \x60s' command's RHS"
          return .action (.substitute {
            pattern := p, replacement := parts, isGlobal := f.isGlobal, nth := f.nth.getD 1
            isPrinted := f.isPrinted, file := f.file })
  | 'y' =>
    let bound := (← get).rest.length + 1
    let unterminated {α : Type} : EditM α := EditM.fail "unterminated \x60y' command"
    match ← EditM.next with
    | none | some '\n' | some '\\' => unterminated
    | some delimiter =>
      match ← delimited delimiter false bound [] with
      | none => unterminated
      | some source =>
        match ← delimited delimiter false bound [] with
        | none => unterminated
        | some target =>
          let a := transliterationSide (source.length + 1) source
          let b := transliterationSide (target.length + 1) target
          if a.length != b.length then EditM.fail "strings for \x60y' command are different lengths"
          endOfCommand
          return .action (.transliterate (a.zip b))
  | _ => EditM.fail s!"unknown command: \x60{letter.toString}'"

/-- Reads the commands of a script, with a bound on their number. The number counts the open
blocks. -/
def namedCommands (isExtended : Bool) : Nat → Nat → EditM (List NamedCommand)
  | 0, _ => return []
  | fuel + 1, depth => do
    let blanks := (← get).rest.takeWhile fun c => Octets.isSpace c || c == ';'
    EditM.skip blanks.length
    if (← EditM.peek) == some '#' then
      let _ ← EditM.line
      namedCommands isExtended fuel depth
    else if (← get).rest.isEmpty then
      if depth = 0 then return []
      else throw { position := some 0, message := "unmatched \x60\x7b'" }
    else
      let first ← address isExtended
      EditM.skipBlanks
      let second ← if first.isSome && (← EditM.peek) == some ',' then do
          EditM.skip 1
          EditM.skipBlanks
          if (← EditM.peek).isNone then EditM.fail "unexpected \x60,'"
          match (← EditM.peek) with
          | some c =>
            if !(c.isDigit || "/\\$+~".toList.contains c) then
              EditM.skip 1
              EditM.fail "unexpected \x60,'"
          | none => pure ()
          pure (some (← secondAddress isExtended))
        else pure none
      EditM.skipBlanks
      let isNegated := (← EditM.peek) == some '!'
      if isNegated then
        EditM.skip 1
        EditM.skipBlanks
        if (← EditM.peek) == some '!' then
          EditM.skip 1
          EditM.fail "multiple \x60!'s"
      let isZero := match first with
        | some (.line 0) => true
        | _ => false
      let allowsZero := match second with
        | some (.matching _) => true
        | _ => false
      match ← EditM.next with
      | none => EditM.fail "missing command"
      | some letter =>
        if isZero && !allowsZero then EditM.fail "invalid usage of line address 0"
        if letter == '#' then EditM.fail "comments don't accept any addresses"
        if letter == '\x7d' && depth = 0 then EditM.fail "unexpected \x60\x7d'"
        if letter == '\n' || letter == ';' then EditM.fail "missing command"
        let addresses := (if first.isSome then 1 else 0) + (if second.isSome then 1 else 0)
        let a ← action isExtended addresses letter
        let depth := match a with
          | .opening => depth + 1
          | .closing => depth - 1
          | _ => depth
        return { first, second, isNegated, action := a } :: (← namedCommands isExtended fuel depth)

/-- The number of the command that closes the block which has been opened before some commands. -/
def closingIndex : Nat → Nat → List NamedCommand → Nat
  | _, n, [] => n
  | depth, n, c :: rest =>
    match c.action with
    | .opening => closingIndex (depth + 1) (n + 1) rest
    | .closing => if depth = 0 then n else closingIndex (depth - 1) (n + 1) rest
    | _ => closingIndex depth (n + 1) rest

/-- Commands with numbers in place of names. -/
def resolved (commands : List NamedCommand) : Except EditFault (List EditCommand) :=
  commands.zipIdx.mapM fun (c, i) => do
    let a : Action ← match c.action with
      | .action a => pure a
      | .opening => pure (.skipUnless (closingIndex 0 (i + 1) (commands.drop (i + 1))))
      | .closing | .label _ => pure (.plain ':')
      | .jump letter name =>
        if name.isEmpty then pure (.jump letter commands.length)
        else
          match commands.findIdx? fun d => match d.action with
              | .label other => other == name
              | _ => false with
          | some target => pure (.jump letter target)
          | none =>
            let message := s!"can't find label for jump to \x60{Octets.toText name}'"
            throw { position := none, message }
    return { first := c.first, second := c.second, isNegated := c.isNegated, action := a }

/-- Reads a script. -/
def commands (isExtended : Bool) (script : Octets) : Except EditFault (List EditCommand) := do
  let (named, _) ← (namedCommands isExtended (script.length + 2) 0).run { rest := script }
  resolved named

end Sweep.Tool.Editing
