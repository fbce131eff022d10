import Sweep.Shell.Launcher

/-!
# Looking for files

`find` visits what lies under some directories, evaluates an expression of tests and actions at each
place, and goes on below it unless it is told not to.
-/

namespace Sweep.Shell

/-- A test or an action, and what they are combined to. -/
inductive Quest where
  | always (holds : Bool)
  | name (pattern : Octets) (ignoresCase : Bool)
  | path (pattern : Octets) (ignoresCase : Bool)
  | kind (letters : Octets)
  | empty
  /-- A size in units, compared by a sign. -/
  | size (sign : Char) (count unit : Nat)
  | executable
  | mode (sign : Char) (bits : Nat)
  | print (finish : Char)
  | printed (format : Octets)
  | start (words : List Octets)
  /-- Starts a program once at the end for all places. -/
  | collect (number : Nat) (words : List Octets)
  | delete
  | skipInside
  | stop
  | negation (q : Quest)
  | both (a b : Quest)
  | either (a b : Quest)
  | list (a b : Quest)
deriving Inhabited

namespace Quest

/-- Whether an action says itself what is to be done with a place. -/
def acts : Quest → Bool
  | .print _ | .printed _ | .start _ | .collect _ _ | .delete => true
  | .negation q => q.acts
  | .both a b | .either a b | .list a b => a.acts || b.acts
  | _ => false

def deletes : Quest → Bool
  | .delete => true
  | .negation q => q.deletes
  | .both a b | .either a b | .list a b => a.deletes || b.deletes
  | _ => false

end Quest

/-- What holds for the whole search. -/
structure QuestRules where
  least : Nat := 0
  most : Option Nat := none
  isDepthFirst : Bool := false

/-- What is left of the arguments of a search. -/
structure QuestReading where
  rest : List Octets
  rules : QuestRules := {}
  collected : Nat := 0

abbrev QuestM := StateT QuestReading ToolM

namespace Quest

def next? : QuestM (Option String) := do return (← get).rest.head?.map Octets.toText

def skip : QuestM Unit := modify fun r => { r with rest := r.rest.drop 1 }

/-- The value of a test. -/
def operand (c : ToolCall) (name : String) : QuestM Octets := do
  match (← get).rest with
  | value :: rest =>
    modify fun r => { r with rest }
    return value
  | [] => c.fail 1 (Octets.ofString s!"missing argument to '{name}'")

/-- The words of a program up to its end; the flag says whether all places are its arguments. -/
def commandWords (c : ToolCall) (name : String) : QuestM (List Octets × Bool) := do
  let words := (← get).rest
  let rec go : List Octets → List Octets → Option (List Octets × Bool × List Octets)
    | _, [] => none
    | seen, [';'] :: rest => some (seen, false, rest)
    | seen, w :: rest =>
      if w == ['+'] && seen.getLast? == some ['\x7b', '\x7d'] then some (seen.dropLast, true, rest)
      else go (seen ++ [w]) rest
  match go [] words with
  | some (seen, isCollected, rest) =>
    modify fun r => { r with rest }
    return (seen, isCollected)
  | none => c.fail 1 (Octets.ofString s!"missing argument to '{name}'")

/-- A number with a sign before it. -/
def signed (o : Octets) : Char × Octets :=
  match o with
  | '+' :: rest => ('+', rest)
  | '-' :: rest => ('-', rest)
  | rest => (' ', rest)

/-- Compares by a sign. -/
def compare (sign : Char) (found wanted : Nat) : Bool :=
  if sign == '+' then wanted < found else if sign == '-' then found < wanted else found == wanted

/-- A test or an action by its name, which has been taken. -/
def primary (c : ToolCall) (name : String) : QuestM Quest := do
  let depth (change : Nat → QuestRules → QuestRules) : QuestM Quest := do
    let value ← operand c name
    if value.isEmpty || !value.all Char.isDigit then
      c.fail 1 (Octets.ofString
        s!"Expected a positive decimal integer argument to {name}, but got " ++ Octets.quoted value)
    modify fun r => { r with rules := change (Octets.digitsValue value) r.rules }
    return .always true
  match name with
  | "-true" | "-noleaf" | "-follow" | "-xdev" | "-mount" | "-daystart" | "-warn" | "-nowarn" |
    "-readable" | "-writable" => return .always true
  | "-false" | "-nouser" | "-nogroup" => return .always false
  | "-name" => return .name (← operand c name) false
  | "-iname" => return .name (← operand c name) true
  | "-path" | "-wholename" => return .path (← operand c name) false
  | "-ipath" | "-iwholename" => return .path (← operand c name) true
  | "-type" | "-xtype" =>
    let value ← operand c name
    if value.isEmpty then
      c.fail 1 (Octets.ofString s!"Arguments to {name} should contain at least one letter")
    match value.find? fun l => !"bcdpflsD,".toList.contains l with
    | some l => c.fail 1 (Octets.told s!"Unknown argument to {name}: " [l] "")
    | none => return .kind value
  | "-empty" => return .empty
  | "-executable" => return .executable
  | "-perm" =>
    let value ← operand c name
    let (sign, digits) := match value with
      | '-' :: rest => ('-', rest)
      | '/' :: rest => ('/', rest)
      | rest => (' ', rest)
    if digits.isEmpty || !digits.all fun d => '0' ≤ d && d ≤ '7' then
      return .mode sign (if digits.contains 'x' then 64 else 0)
    return .mode sign (digits.foldl (fun n d => n * 8 + (d.toNat - '0'.toNat)) 0)
  | "-size" =>
    let value ← operand c name
    let (sign, text) := signed value
    let digits := text.takeWhile Char.isDigit
    let unit? : Option Nat := match text.drop digits.length with
      | [] | ['b'] => some 512
      | ['c'] => some 1
      | ['w'] => some 2
      | ['k'] => some 1024
      | ['M'] => some 1048576
      | ['G'] => some 1073741824
      | _ => none
    match unit? with
    | some unit =>
      if digits.isEmpty then c.fail 1 (Octets.told "Invalid argument \x60" value s!"' to {name}")
      return .size sign (Octets.digitsValue digits) unit
    | none => c.fail 1 (Octets.told "Invalid argument \x60" value s!"' to {name}")
  | "-mtime" | "-mmin" | "-atime" | "-amin" | "-ctime" | "-cmin" =>
    -- What there is has been made just now.
    let (sign, digits) := signed (← operand c name)
    let age := if name.toList.getLast? == some 'n' then 1 else 0
    return .always (compare sign age (Octets.digitsValue digits))
  | "-newer" | "-anewer" | "-cnewer" | "-samefile" | "-links" | "-inum" | "-user" | "-group" =>
    let _ ← operand c name
    return .always (name == "-user" || name == "-group")
  | "-maxdepth" => depth fun n rules => { rules with most := some n }
  | "-mindepth" => depth fun n rules => { rules with least := n }
  | "-depth" | "-d" =>
    modify fun r => { r with rules := { r.rules with isDepthFirst := true } }
    return .always true
  | "-print" => return .print '\n'
  | "-print0" => return .print '\x00'
  | "-printf" => return .printed (← operand c name)
  | "-exec" | "-execdir" | "-ok" =>
    let (words, isCollected) ← commandWords c name
    if words.isEmpty then c.fail 1 (Octets.ofString s!"missing argument to '{name}'")
    if isCollected then
      let r ← get
      set { r with collected := r.collected + 1 }
      return .collect r.collected words
    else return .start words
  | "-delete" =>
    modify fun r => { r with rules := { r.rules with isDepthFirst := true } }
    return .delete
  | "-prune" => return .skipInside
  | "-quit" => return .stop
  | _ =>
    if name.toList.head? == some '-' then
      c.fail 1 (Octets.ofString s!"unknown predicate \x60{name}'")
    else c.fail 1 (Octets.ofString s!"paths must precede expression: \x60{name}'")

mutual

/-- Expressions one after the other; the last one decides. -/
def sequence (c : ToolCall) : Nat → QuestM Quest
  | 0 => return .always true
  | fuel + 1 => do
    let a ← alternatives c fuel
    if (← next?) = some "," then
      skip
      return .list a (← sequence c fuel)
    else return a

def alternatives (c : ToolCall) : Nat → QuestM Quest
  | 0 => return .always true
  | fuel + 1 => do
    let a ← conditions c fuel
    match ← next? with
    | some "-o" | some "-or" =>
      skip
      return .either a (← alternatives c fuel)
    | _ => return a

def conditions (c : ToolCall) : Nat → QuestM Quest
  | 0 => return .always true
  | fuel + 1 => do
    let a ← single c fuel
    match ← next? with
    | some "-a" | some "-and" =>
      skip
      return .both a (← conditions c fuel)
    | none | some "-o" | some "-or" | some ")" | some "," => return a
    | some _ => return .both a (← conditions c fuel)

def single (c : ToolCall) : Nat → QuestM Quest
  | 0 => return .always true
  | fuel + 1 => do
    match ← next? with
    | none => c.fail 1 (Octets.ofString "expected an expression after '!'")
    | some "!" | some "-not" =>
      skip
      return .negation (← single c fuel)
    | some "(" =>
      skip
      if (← next?) = some ")" then
        c.fail 1 (Octets.ofString "invalid expression; empty parentheses are not allowed.")
      let q ← sequence c fuel
      if (← next?) = some ")" then
        skip
        return q
      else
        c.fail 1 (Octets.ofString ("invalid expression; I was expecting to find a ')' somewhere " ++
          "but did not see one."))
    | some word =>
      skip
      primary c word

end

end Quest

/-- What a search is for. -/
structure QuestRequest where
  starts : List Octets
  rules : QuestRules
  quest : Quest

def QuestRequest.read (c : ToolCall) : ToolM QuestRequest := do
  let arguments := c.arguments.dropWhile fun a =>
    a == ['-', 'L'] || a == ['-', 'P'] || a == ['-', 'H']
  let isStart (a : Octets) : Bool :=
    (a.head? != some '-' || a.length = 1) && a != ['('] && a != ['!'] && a != [')'] && a != [',']
  let starts := arguments.takeWhile isStart
  let rest := arguments.drop starts.length
  let starts := if starts.isEmpty then [['.']] else starts
  if rest.isEmpty then return { starts, rules := {}, quest := .print '\n' }
  let (quest, r) ← (Quest.sequence c (8 * rest.length + 8)).run { rest }
  match r.rest with
  | [')'] :: _ => c.fail 1 (Octets.ofString "invalid expression; you have too many ')'")
  | _ :: _ => c.fail 1 (Octets.ofString "invalid expression")
  | [] =>
    let quest := if quest.acts then quest else .both quest (.print '\n')
    return { starts, rules := r.rules, quest }

/-- What a search has found out so far. -/
structure QuestState where
  isSkipping : Bool := false
  hasStopped : Bool := false
  status : Nat := 0
  collected : List (Nat × List Octets × Octets) := []

abbrev SeekM := StateT QuestState ShellM

structure QuestPlace where
  path : Octets
  start : Octets
  depth : Nat

namespace QuestPlace

def name (p : QuestPlace) : Octets :=
  let trimmed := (p.path.reverse.dropWhile (· == '/')).reverse
  if trimmed.isEmpty && !p.path.isEmpty then ['/']
  else (trimmed.reverse.takeWhile (· != '/')).reverse

end QuestPlace

namespace Quest

/-- Whether a text fits a pattern in which a backslash quotes. -/
def fitsPattern (pattern : Octets) (ignoresCase : Bool) (text : Octets) : Bool :=
  let change (o : Octets) : Octets := if ignoresCase then o.map Char.toLower else o
  let rec marks : Octets → List Glob.Mark
    | '\\' :: c :: rest => (c, true) :: marks rest
    | c :: rest => (c, false) :: marks rest
    | [] => []
  Glob.fitsMarks (marks (change pattern)) (change text)

/-- The permissions of what a path leads to. -/
def modeOf (t : FileTree) (path : String) : Nat :=
  match t.find path with
  | .ok (.file _ false) => 420
  | _ => 493

def printedBy (t : FileTree) (p : QuestPlace) : Nat → Octets → Octets
  | 0, _ | _, [] => []
  | fuel + 1, '%' :: c :: rest =>
    let path := Octets.toText p.path
    let text : Octets := match c with
      | 'p' => p.path
      | 'f' => p.name
      | 'h' =>
        let above := (p.path.reverse.dropWhile (· != '/')).drop 1
        if above.isEmpty then ['.'] else above.reverse
      | 'P' => ((p.path.drop p.start.length).dropWhile (· == '/'))
      | 'H' => p.start
      | 'd' => Octets.ofNat p.depth
      | 's' =>
        match t.find path with
        | .ok (.file content _) => Octets.ofNat content.size
        | _ => Octets.ofNat 4096
      | 'y' => if t.isDirectory path then ['d'] else ['f']
      | 'm' => if modeOf t path = 420 then "644".toList else "755".toList
      | '%' => ['%']
      | c => ['%', c]
    text ++ printedBy t p fuel rest
  | fuel + 1, '\\' :: c :: rest =>
    let text : Octets := match c with
      | 'n' => ['\n']
      | 't' => ['\t']
      | '0' => ['\x00']
      | '\\' => ['\\']
      | c => ['\\', c]
    text ++ printedBy t p fuel rest
  | fuel + 1, c :: rest => c :: printedBy t p fuel rest

/-- Evaluates an expression at a place. -/
def evaluate (start : Starter) (name : String) (p : QuestPlace) : Quest → SeekM Bool
  | .always holds => return holds
  | .name pattern ignoresCase => return fitsPattern pattern ignoresCase p.name
  | .path pattern ignoresCase => return fitsPattern pattern ignoresCase p.path
  | .kind letters => do
    let s ← getThe State
    return letters.contains (if s.files.isDirectory (Octets.toText p.path) then 'd' else 'f')
  | .empty => do
    let t := (← getThe State).files
    let path := Octets.toText p.path
    match t.find path with
    | .ok (.file content _) => return content.size = 0
    | .ok .directory =>
      match t.list path with
      | .ok names => return names.isEmpty
      | .error _ => return false
    | .error _ => return false
  | .size sign count unit => do
    match (← getThe State).files.find (Octets.toText p.path) with
    | .ok (.file content _) => return compare sign ((content.size + unit - 1) / unit) count
    | _ => return compare sign ((4096 + unit - 1) / unit) count
  | .executable => return modeOf (← getThe State).files (Octets.toText p.path) = 493
  | .mode sign bits => do
    let mode := modeOf (← getThe State).files (Octets.toText p.path)
    return if sign == ' ' then mode = bits
      else if sign == '-' then Nat.land mode bits = bits
      else bits = 0 || Nat.land mode bits != 0
  | .print finish => do
    let _ ← writeTo 1 (p.path ++ [finish])
    return true
  | .printed format => do
    let s ← getThe State
    let _ ← writeTo 1 (printedBy s.files p (format.length + 1) format)
    return true
  | .start words => do
    let words := words.map fun w => Launcher.replaced ['\x7b', '\x7d'] p.path (w.length + 1) w
    let attempt : ShellM Bool := do
      setStatus 0
      match ← start (Octets.toText (words.headD [])) (words.drop 1) with
      | .ok () => return (← get).status = 0
      | .error fault =>
        Launcher.complain name 1
          (Octets.quoted (words.headD []) ++ Octets.ofString s!": {fault.phrase}")
        return false
    attempt
  | .collect number words => do
    modify fun q => { q with collected := q.collected ++ [(number, words, p.path)] }
    return true
  | .delete => do
    let t := (← getThe State).files
    let path := Octets.toText p.path
    if p.path == ['.'] then return true
    let removed : Except FileFault FileTree := do
      if t.isDirectory path then
        if (← t.list path).isEmpty then
          let place ← t.locate path
          return { t with nodes := t.nodes.erase (FileTree.absolute place.way) }
        else throw .notEmpty
      else t.removeFile path
    match removed with
    | .ok files =>
      modifyThe State fun s => { s with files }
      return true
    | .error fault =>
      tell (Octets.ofString s!"{name}: cannot delete " ++ Octets.quoted p.path ++
        Octets.ofString s!": {fault.phrase}\n")
      modify fun q => { q with status := 1 }
      return false
  | .skipInside => do
    modify fun q => { q with isSkipping := true }
    return true
  | .stop => do
    modify fun q => { q with hasStopped := true }
    return true
  | .negation q => return !(← evaluate start name p q)
  | .both a b => do
    if ← evaluate start name p a then
      if (← get).hasStopped then return true
      evaluate start name p b
    else return false
  | .either a b => do
    if ← evaluate start name p a then return true else evaluate start name p b
  | .list a b => do
    let _ ← evaluate start name p a
    evaluate start name p b

end Quest

/-- Visits a place and what lies under it, with a bound on the depth. -/
def visit (starter : Starter) (name : String) (r : QuestRequest) (start : Octets) :
    Nat → Nat → Octets → SeekM Unit
  | 0, _, _ => return
  | fuel + 1, depth, path => do
    let q ← get
    if q.hasStopped then return
    let p : QuestPlace := { path, start, depth }
    let look : SeekM Unit := do
      if r.rules.least ≤ depth && !(← get).hasStopped then
        let _ ← r.quest.evaluate starter name p
    let inside : SeekM Unit := do
      if r.rules.most.all fun most => depth < most then
        match (← getThe State).files.list (Octets.toText path) with
        | .ok names =>
          for n in names do
            let base := if path.getLast? == some '/' then path else path ++ ['/']
            visit starter name r start fuel (depth + 1) (base ++ Octets.ofString n)
        | .error _ => return
    if r.rules.isDepthFirst then
      inside
      look
    else
      set { q with isSkipping := false }
      look
      if !(← get).isSkipping then inside

/-- Looks for files. -/
def find : Launcher := fun start name arguments => do
  let call : ToolCall := { name, arguments }
  match ← performTool name (QuestRequest.read call) with
  | none => return
  | some r =>
    let whole : SeekM Unit := do
      for path in r.starts do
        match (← getThe State).files.find (Octets.toText path) with
        | .ok _ => visit start name r path 4096 0 path
        | .error fault =>
          tell (Octets.ofString (name ++ ": ") ++ Octets.quoted path ++
            Octets.ofString s!": {fault.phrase}\n")
          modify fun q => { q with status := 1 }
      let q ← get
      let numbers := (q.collected.map (·.1)).eraseDups
      for number in numbers do
        let places := q.collected.filter fun x => x.1 == number
        match places with
        | [] => pure ()
        | (_, words, _) :: _ =>
          let arguments := words ++ places.map (·.2.2)
          let attempt : ShellM Bool := do
            setStatus 0
            match ← start (Octets.toText (arguments.headD [])) (arguments.drop 1) with
            | .ok () => return (← get).status = 0
            | .error fault =>
              Launcher.complain name 1
                (Octets.quoted (arguments.headD []) ++ Octets.ofString s!": {fault.phrase}")
              return false
          if !(← attempt) then modify fun q => { q with status := 1 }
    let ((), q) ← whole.run {}
    setStatus q.status

end Sweep.Shell
