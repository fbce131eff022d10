import Sweep.Files.Tree
import Sweep.Shell.Octets

/-!
# Tools

A tool is a small program that works on its arguments, its input and the files. What it writes is
kept in order, its messages among its output, and it ends with a status.
-/

namespace Sweep

/-- What a tool is asked to do. -/
structure ToolCall where
  /-- How the tool is called, which begins its messages. -/
  name : String
  arguments : List Octets
  environment : List (String × Octets) := []
  /-- What precedes the messages of a tool that is a part of the shell. -/
  place : Octets := []
deriving Inhabited

/-- What a tool works on, and what it has done so far. -/
structure ToolState where
  input : Octets
  files : FileTree
  /-- The size of the file that the input comes from, if it is one. What is not used of a file
  remains for the next tool. -/
  inputSize : Option Nat := none
  /-- What has been written, the last text first, and whether it is a message. -/
  written : List (Bool × Octets) := []
  status : Nat := 0

/-- What a tool does; it may stop early. -/
abbrev ToolM := ExceptT Unit (StateM ToolState)

abbrev Tool := ToolCall → ToolM Unit

namespace Tool

def print (o : Octets) : ToolM Unit := modify fun s => { s with written := (false, o) :: s.written }

def printLine (o : Octets) : ToolM Unit := print (o ++ ['\n'])

/-- Writes a message as it is. -/
def tell (o : Octets) : ToolM Unit := modify fun s => { s with written := (true, o) :: s.written }

def setStatus (status : Nat) : ToolM Unit := modify fun s => { s with status }

def stop {α : Type} (status : Nat) : ToolM α := do
  setStatus status
  throw ()

/-- Stops if a result is a fault. -/
def orStop {α : Type} (r : Except (ToolM Unit) α) : ToolM α := do
  match r with
  | .ok a => return a
  | .error complaint =>
    complaint
    throw ()

end Tool

namespace ToolCall

/-- Writes a message and goes on; the status is that of a failure from now on. -/
def complain (c : ToolCall) (status : Nat) (message : Octets) : ToolM Unit := do
  Tool.tell (c.place ++ Octets.ofString c.name ++ [':', ' '] ++ message ++ ['\n'])
  Tool.setStatus status

/-- Stops with a message. -/
def fail {α : Type} (c : ToolCall) (status : Nat) (message : Octets) : ToolM α := do
  c.complain status message
  throw ()

/-- Stops with a message and the advice to ask for help. -/
def misuse {α : Type} (c : ToolCall) (status : Nat) (message : Octets) : ToolM α := do
  c.fail status (message ++ Octets.ofString s!"\nTry '{c.name} --help' for more information.")

end ToolCall

/-! ## Names in messages -/

namespace Octets

def isPrintable (c : Char) : Bool := ' ' ≤ c && c ≤ '~'

/-- The escape of a byte that cannot be printed. -/
def byteEscape (c : Char) : Octets :=
  let digit (n : Nat) : Char := Char.ofNat ('0'.toNat + n % 8)
  match c with
  | '\t' => ['\\', 't']
  | '\n' => ['\\', 'n']
  | '\r' => ['\\', 'r']
  | '\x07' => ['\\', 'a']
  | '\x08' => ['\\', 'b']
  | '\x0b' => ['\\', 'v']
  | '\x0c' => ['\\', 'f']
  | c => ['\\', digit (c.toNat / 64), digit (c.toNat / 8), digit c.toNat]

/-- The body of a quoted name; the flag says whether escapes are being written. -/
def quotedBody : Bool → Octets → Octets
  | true, [] => ['\'']
  | false, [] => ['\'']
  | isEscaping, c :: rest =>
    if isPrintable c then
      let start : Octets := if isEscaping then ['\'', '\''] else []
      let text : Octets := if c == '\'' then ['\'', '\\', '\'', '\''] else [c]
      start ++ text ++ quotedBody false rest
    else
      let start : Octets := if isEscaping then [] else ['\'', '$', '\'']
      start ++ byteEscape c ++ quotedBody true rest

def quoted (name : Octets) : Octets :=
  if name.contains '\'' && name.all isPrintable &&
      !name.any fun c => "\"\\$\x60!".toList.contains c then
    '"' :: name ++ ['"']
  else '\'' :: quotedBody false name

/-- A name as it is, or between quotes if it could be misread. -/
def quotedIfNeeded (name : Octets) : Octets :=
  let isSpecial (c : Char) : Bool :=
    !isPrintable c || " !\"$&'()*;<=>?[\\^\x60|".toList.contains c
  let startsSpecial := match name with
    | '#' :: _ | '~' :: _ => true
    | ['\x7b'] | ['\x7d'] => true
    | _ => false
  if name.isEmpty || startsSpecial || name.any isSpecial then quoted name else name

end Octets

/-! ## Options -/

structure OptionForms where
  /-- Letters that take no value. -/
  plain : String := ""
  /-- Letters that take a value. -/
  valued : String := ""
  /-- Long names and the letters that they stand for. A letter that is no byte cannot be given by
  itself. -/
  long : List (String × Char) := []
  /-- Letters whose value may be missing; it then has to follow its name at once. -/
  optional : String := ""
  /-- Whether options end at the first operand. -/
  isOrdered : Bool := false
  /-- The status after an option that there is none of. -/
  misuseStatus : Nat := 1
  /-- A line that stands before the advice to ask for help. -/
  usage : String := ""
  /-- What is shown in place of the line and the advice, if anything is. -/
  help : List String := []

/-- The options that are set, in order, with their values. -/
abbrev FoundOptions := List (Char × Octets)

namespace FoundOptions

def has (found : FoundOptions) (c : Char) : Bool := found.any fun o => o.1 == c

/-- The last value of an option. -/
def value? (found : FoundOptions) (c : Char) : Option Octets :=
  (found.reverse.find? fun o => o.1 == c).map (·.2)

def values (found : FoundOptions) (c : Char) : List Octets :=
  found.filterMap fun o => if o.1 == c then some o.2 else none

/-- The last of some letters that is set. -/
def last? (found : FoundOptions) (letters : String) : Option Char :=
  (found.reverse.find? fun o => letters.toList.contains o.1).map (·.1)

end FoundOptions

namespace OptionForms

/-- Options and operands while they are told apart. -/
structure Scan where
  found : FoundOptions := []
  operands : List Octets := []

/-- Stops because of an option that is not understood. -/
def misuse {α : Type} (f : OptionForms) (c : ToolCall) (message : Octets) : ToolM α := do
  let usage := if f.usage.isEmpty then [] else [f.usage]
  let advice := if f.help.isEmpty then usage ++ [s!"Try '{c.name} --help' for more information."]
    else f.help
  c.fail f.misuseStatus (message ++ Octets.ofString ("\n" ++ "\n".intercalate advice))

/-- The letter of a long name, which may be cut short. -/
def longLetter (f : OptionForms) (c : ToolCall) (shown name : Octets) : ToolM (String × Char) := do
  match f.long.find? fun l => l.1.toList == name with
  | some l => return l
  | none =>
    let fitting := f.long.filter fun l => name.isPrefixOf l.1.toList
    match fitting with
    | [] => f.misuse c (Octets.told "unrecognized option '" shown "'")
    | l :: others =>
      if others.all fun other => other.2 == l.2 then return l
      else
        let names := fitting.flatMap fun l => Octets.ofString s!" '--{l.1}'"
        f.misuse c
          (Octets.told "option '" shown "' is ambiguous; possibilities:" ++ names)

/-- Tells options and operands apart, with a bound on the number of the letters. -/
def scan (f : OptionForms) (c : ToolCall) : Nat → Scan → List Octets → ToolM Scan
  | 0, s, _ | _, s, [] => return s
  | fuel + 1, s, argument :: rest => do
    match argument with
    | ['-', '-'] => return { s with operands := s.operands ++ rest }
    | '-' :: '-' :: text =>
      let name := text.takeWhile (· != '=')
      let (long, letter) ← f.longLetter c argument name
      let add (value : Octets) : Scan := { s with found := s.found ++ [(letter, value)] }
      match text.drop name.length with
      | _ :: value =>
        if f.valued.toList.contains letter || f.optional.toList.contains letter then
          f.scan c fuel (add value) rest
        else
          f.misuse c (Octets.ofString s!"option '--{long}' doesn't allow an argument")
      | [] =>
        if f.valued.toList.contains letter then
          match rest with
          | value :: rest => f.scan c fuel (add value) rest
          | [] => f.misuse c (Octets.ofString s!"option '--{long}' requires an argument")
        else f.scan c fuel (add []) rest
    | '-' :: letter :: more =>
      let add (value : Octets) : Scan := { s with found := s.found ++ [(letter, value)] }
      if f.valued.toList.contains letter then
        match more, rest with
        | [], value :: rest => f.scan c fuel (add value) rest
        | [], [] =>
          f.misuse c (Octets.told "option requires an argument -- '" [letter] "'")
        | more, rest => f.scan c fuel (add more) rest
      else if f.optional.toList.contains letter && f.plain.toList.contains letter then
        f.scan c fuel (add more) rest
      else if f.plain.toList.contains letter then
        match more with
        | [] => f.scan c fuel (add []) rest
        | more => f.scan c fuel (add []) (('-' :: more) :: rest)
      else f.misuse c (Octets.told "invalid option -- '" [letter] "'")
    | operand =>
      if f.isOrdered then return { s with operands := s.operands ++ operand :: rest }
      else f.scan c fuel { s with operands := s.operands ++ [operand] } rest

/-- The options among arguments, and the operands. -/
def read (f : OptionForms) (c : ToolCall) : ToolM (FoundOptions × List Octets) := do
  let bound := (c.arguments.map List.length).foldl (· + · + 1) 1
  let s ← f.scan c bound {} c.arguments
  return (s.found, s.operands)

end OptionForms

/-! ## Files as sources of text -/

namespace Tool

def readPath (path : Octets) : ToolM (Except FileFault Octets) := do
  let s ← get
  match Octets.toText path with
  | "/dev/null" => return .ok []
  | "/dev/stdin" =>
    set { s with input := [] }
    return .ok s.input
  | text => return (s.files.readBytes text).map Octets.ofBytes

def readInput : ToolM Octets := do
  let s ← get
  set { s with input := [] }
  return s.input

/-- How a tool tells that it cannot read a file. -/
structure SourceFaults where
  status : Nat := 1
  /-- The message for a file that cannot be opened. -/
  unopened : Octets → Octets → Octets := fun path phrase =>
    Octets.quotedIfNeeded path ++ [':', ' '] ++ phrase
  /-- The message for a directory. -/
  directory : Octets → Octets → Octets := fun path phrase =>
    Octets.quotedIfNeeded path ++ [':', ' '] ++ phrase

/-- The text of a source; a dash stands for the input. -/
def source? (c : ToolCall) (faults : SourceFaults) (path : Octets) : ToolM (Option Octets) := do
  if path == ['-'] then return some (← readInput)
  match ← readPath path with
  | .ok text => return some text
  | .error .isDirectory =>
    c.complain faults.status (faults.directory path (Octets.ofString FileFault.isDirectory.phrase))
    return none
  | .error fault =>
    c.complain faults.status (faults.unopened path (Octets.ofString fault.phrase))
    return none

/-- Works on the sources that are named one after the other, or on the input if none is. -/
def forSources (c : ToolCall) (faults : SourceFaults) (operands : List Octets)
    (body : Octets → Octets → ToolM Unit) : ToolM Unit := do
  let operands := if operands.isEmpty then [['-']] else operands
  for path in operands do
    match ← source? c faults path with
    | some text => body path text
    | none => pure ()

/-- The texts of the sources that are named, or of the input if none is, each with its name. -/
def sources (c : ToolCall) (faults : SourceFaults) (operands : List Octets) :
    ToolM (List (Octets × Octets)) := do
  let operands := if operands.isEmpty then [['-']] else operands
  operands.filterMapM fun path => do
    return (← source? c faults path).map fun text => (path, text)

def joinedSources (c : ToolCall) (faults : SourceFaults) (operands : List Octets) :
    ToolM Octets := do
  return (← sources c faults operands).flatMap (·.2)

/-- The lines of a text with their line feeds, if they have one. -/
def fullLines (o : Octets) : List Octets :=
  let ls := Octets.lines o
  match o.getLast? with
  | some '\n' => ls.map (· ++ ['\n'])
  | _ => ls.dropLast.map (· ++ ['\n']) ++ ls.getLast?.toList

/-- Writes a file anew, unless it is one that swallows everything. -/
def writePath (path : Octets) (text : Octets) (appends : Bool) : ToolM (Except FileFault Unit) := do
  let s ← get
  let path := Octets.toText path
  if path = "/dev/null" then return .ok ()
  let bytes := Octets.toBytes text
  match if appends then s.files.appendBytes path bytes else s.files.writeBytes path bytes with
  | .ok files =>
    set { s with files }
    return .ok ()
  | .error fault => return .error fault

end Tool

end Sweep
