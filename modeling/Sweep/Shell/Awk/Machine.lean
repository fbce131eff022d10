import Sweep.Shell.Awk.Parser
import Sweep.Shell.Awk.Value
import Sweep.Shell.Launcher

/-!
# The state of a record program

Variables, arrays, the record with its fields, and the files and commands that are read and written.
What is written is kept back until it is asked for from outside, or until the program ends.
-/

namespace Sweep.Awk

open Shell (Starter ShellM)

/-- What a parameter stands for. -/
inductive Slot where
  | value (v : Value)
  | array (n : Nat)
deriving Inhabited

/-- A file or a command that is read. -/
structure Source where
  name : Octets
  isCommand : Bool
  rest : Octets
  /-- The status that the command has ended with. -/
  status : Nat := 0

/-- A file or a command that is written. -/
structure Sink where
  name : Octets
  kind : OutputKind
  /-- What is kept back, the last text first. -/
  pending : List Octets := []

/-- What is read record by record. -/
inductive MainInput where
  /-- Arguments have to be looked at, from a position on. -/
  | pending (position : Nat) (hasRead : Bool)
  | reading (rest : Octets) (position : Nat)
  | done
deriving DecidableEq

structure State where
  program : Program
  globals : Table Value := ∅
  arrays : Array Dictionary := #[]
  arrayNames : List (String × Nat) := []
  /-- The parameters of the function that is carried out. -/
  frame : List (String × Slot) := []
  record : Value := .unset
  fields : Array Value := #[]
  /-- Whether the record has to be made up of the fields. -/
  isStale : Bool := false
  input : MainInput := .pending 1 false
  sources : List Source := []
  sinks : List Sink := []
  /-- What is kept back of the output, the last text first. -/
  pending : List Octets := []
  /-- Which of the rules for ranges are within one. -/
  inRange : List Nat := []
  exitStatus : Nat := 0
  /-- The state of the random numbers, and what they began with. -/
  random : Nat := 0
  seed : Value := .number 0.0
  /-- How many calls are open. -/
  calls : Nat := 0

/-- Why what follows is passed over. -/
inductive Leave where
  | next
  | nextFile
  | exit
  | leave
  | continue
  | return (v : Value)
  /-- The program has failed, and its message has been written. -/
  | failed
deriving Inhabited

abbrev RunM := ExceptT Leave (StateT State ShellM)

def shell {α : Type} (body : ShellM α) : RunM α := fun s => do
  let a ← body
  return (.ok a, s)

/-! ## Variables -/

/-- The variables that a program begins with. -/
def firstVariables : Table Value :=
  Table.ofList [("FS", .text [' ']), ("OFS", .text [' ']), ("ORS", .text ['\n']),
    ("RS", .text ['\n']), ("SUBSEP", .text ['\x1c']), ("CONVFMT", .text "%.6g".toList),
    ("OFMT", .text "%.6g".toList),
    ("NR", .number 0.0), ("FNR", .number 0.0), ("RSTART", .number 0.0), ("RLENGTH", .number (-1.0))]

def State.global (s : State) (name : String) : Value := (s.globals.get? name).getD .unset

def State.format (s : State) : Octets := (s.global "CONVFMT").toOctets "%.6g".toList

def textOf (v : Value) : RunM Octets := do
  match v with
  | .text o | .numeral o _ => return o
  | .unset => return []
  | v => return v.toOctets (← get).format

def globalText (name : String) : RunM Octets := do textOf ((← get).global name)

def setGlobal (name : String) (v : Value) : RunM Unit := modify fun s =>
  { s with globals := s.globals.insert name v }

def arrayOf (name : String) : RunM Nat := do
  let s ← get
  match s.frame.find? fun f => f.1 == name with
  | some (_, .array n) => return n
  | _ =>
    match s.arrayNames.find? fun a => a.1 == name with
    | some (_, n) => return n
    | none =>
      let n := s.arrays.size
      set { s with arrays := s.arrays.push {}, arrayNames := (name, n) :: s.arrayNames }
      return n

def dictionary (n : Nat) : RunM Dictionary := do return (← get).arrays.getD n {}

def setDictionary (n : Nat) (d : Dictionary) : RunM Unit := modify fun s =>
  { s with arrays := s.arrays.setIfInBounds n d }

/-! ## Messages -/

/-- The name of the program, which begins its messages. -/
structure Setting where
  name : String
  start : Starter

/-- Writes what is kept back of the output. -/
def flush : RunM Unit := do
  let s ← get
  set { s with pending := [] }
  let text := (s.pending.reverse).flatMap id
  if !text.isEmpty then shell (Shell.print text)

def failWith {α : Type} (x : Setting) (message : Octets) : RunM α := do
  shell (Shell.tell (Octets.ofString (x.name ++ ": ") ++ message ++ ['\n']))
  modify fun s => { s with exitStatus := 2 }
  throw .failed

/-- Fails with a message about what has gone wrong while the program runs. -/
def failRunning {α : Type} (x : Setting) (message : Octets) : RunM α := do
  let file ← globalText "FILENAME"
  let fnr ← globalText "FNR"
  let nr ← globalText "NR"
  failWith x ("run time error: ".toList ++ message ++
    Octets.told "\n\tFILENAME=\"" file "\" FNR=" ++ fnr ++ " NR=".toList ++ nr)

/-! ## Fields -/

/-- A way of cutting texts. -/
inductive Cutter where
  /-- At blanks, those at the ends aside. -/
  | blanks
  | bytes
  | one (c : Char)
  | regex (r : Regex)

/-- The regular expression of a text that a program computes. -/
def dynamicRegex (x : Setting) (o : Octets) : RunM Regex := do
  match Parse.regexOf o with
  | .ok r => return r
  | .error reason =>
    failRunning x (Octets.ofString s!"regular expression compile failed ({reason})\n" ++ o)

/-- How a text says that other texts are cut. -/
def cutterOf (x : Setting) (o : Octets) : RunM Cutter := do
  match o with
  | [' '] => return .blanks
  | [] => return .bytes
  | [c] => return .one c
  | o => return .regex (← dynamicRegex x o)

/-- The pieces of a text between the matches of an expression, with a bound on their number. -/
def piecesBetween (r : Regex) : Nat → Octets → List Octets
  | 0, o => [o]
  | fuel + 1, o =>
    -- A match of nothing does not cut.
    match r.search {} r.refersBack (fun p q => q.left < p.left) [] o with
    | some found => found.before :: piecesBetween r fuel found.after
    | none => [o]

/-- The words between blanks. -/
def words : Nat → Octets → List Octets
  | 0, _ => []
  | fuel + 1, o =>
    let o := o.dropWhile Octets.isSpace
    let word := o.takeWhile fun c => !Octets.isSpace c
    if word.isEmpty then [] else word :: words fuel (o.drop word.length)

def Cutter.cut (c : Cutter) (o : Octets) : List Octets :=
  match c with
  | .blanks => words (o.length + 1) o
  | .bytes => o.map fun b => [b]
  | .one b => if o.isEmpty then [] else Octets.splitAtEach b o
  | .regex r => if o.isEmpty then [] else piecesBetween r (o.length + 1) o

def setRecord (x : Setting) (v : Value) : RunM Unit := do
  let text ← textOf v
  let cutter ← cutterOf x (← globalText "FS")
  let fields := ((cutter.cut text).map Value.ofInput).toArray
  modify fun s => { s with record := v, fields, isStale := false }

/-- The record, which is made up of the fields if they have changed. -/
def currentRecord : RunM Value := do
  let s ← get
  if s.isStale then
    let separator ← globalText "OFS"
    let texts ← s.fields.toList.mapM textOf
    let record := Value.text (separator.intercalate texts)
    modify fun s => { s with record, isStale := false }
    return record
  else return s.record

/-- The most fields that there can be. -/
def maxField : Nat := 100000

/-- Changes the number of the fields. -/
def setFieldCount (n : Nat) : RunM Unit := modify fun s =>
  let fields := (s.fields.toList.take n ++ List.replicate (n - s.fields.size) (.text [])).toArray
  { s with fields, isStale := true }

def fieldPosition (x : Setting) (v : Value) : RunM Nat := do
  let n := clampedInt v.toFloat
  if n < 0 then failRunning x (Octets.ofString s!"negative field index ${toString n}")
  if (maxField : Int) < n then
    failRunning x (Octets.ofString s!"maximum number of fields ({toString maxField}) exceeded")
  return n.toNat

def fieldValue (x : Setting) (v : Value) : RunM Value := do
  match ← fieldPosition x v with
  | 0 => currentRecord
  | n + 1 => return (← get).fields.getD n (.text [])

def setField (x : Setting) (position v : Value) : RunM Unit := do
  match ← fieldPosition x position with
  | 0 => setRecord x v
  | n + 1 =>
    if (← get).fields.size ≤ n then setFieldCount (n + 1)
    modify fun s => { s with fields := s.fields.setIfInBounds n v, isStale := true }

/-! ## Variables by their names -/

def variableValue (name : String) : RunM Value := do
  let s ← get
  match s.frame.find? fun f => f.1 == name with
  | some (_, .value v) => return v
  | some (_, .array _) => return .unset
  | none => if name == "NF" then return .ofNat s.fields.size else return s.global name

def setVariable (x : Setting) (name : String) (v : Value) : RunM Unit := do
  let s ← get
  if s.frame.any fun f => f.1 == name then
    let put (f : String × Slot) : String × Slot := if f.1 == name then (name, .value v) else f
    set { s with frame := s.frame.map put }
  else if name == "NF" then
    let n ← fieldPosition x v
    setFieldCount n
  else setGlobal name v

/-! ## Records -/

/-- The first record of a text and what follows it, by what separates records; nothing if there are
no more. -/
def nextRecord? (x : Setting) (text : Octets) : RunM (Option (Octets × Octets)) := do
  if text.isEmpty then return none
  match ← globalText "RS" with
  | [] =>
    let text := text.dropWhile (· == '\n')
    if text.isEmpty then return none
    let rec go (found : Octets) : Octets → Octets × Octets
      | [] => (found.reverse, [])
      | '\n' :: '\n' :: rest => (found.reverse, rest.dropWhile (· == '\n'))
      | ['\n'] => (found.reverse, [])
      | c :: rest => go (c :: found) rest
    return some (go [] text)
  | [c] =>
    let record := text.takeWhile (· != c)
    return some (record, text.drop (record.length + 1))
  | o =>
    let r ← dynamicRegex x o
    match r.search {} r.refersBack (fun p q => q.left < p.left) [] text with
    | some found => return some (found.before, found.after)
    | none => return some (text, [])

def readFile (path : Octets) : RunM (Except FileFault Octets) := do
  if path == ['-'] || path == "/dev/stdin".toList then
    let text? ← shell (Shell.performTool "" Tool.readInput)
    return .ok (text?.getD [])
  else if path == "/dev/null".toList then return .ok []
  else return ((← shell get).files.readBytes (Octets.toText path)).map Octets.ofBytes

/-- Whether an argument is an assignment, and which one. -/
def assignment? (o : Octets) : Option (String × Octets) :=
  let name := o.takeWhile isNameChar
  match o.drop name.length with
  | '=' :: value => if name.head?.any fun c => c.isAlpha || c == '_' then
      some (String.ofList name, unescaped value) else none
  | _ => none

/-- Opens what is read next by the arguments from a position on, with a bound on their number. -/
def openInput (x : Setting) : Nat → Nat → Bool → RunM Unit
  | 0, _, _ => modify fun s => { s with input := .done }
  | fuel + 1, position, hasRead => do
    let count := clampedInt ((← get).global "ARGC").toFloat
    if count ≤ position && hasRead then
      modify fun s => { s with input := .done }
      return
    if count ≤ position then
      let text := (← readFile ['-']).toOption.getD []
      setGlobal "FILENAME" (.text ['-'])
      modify fun s => { s with input := .reading text count.toNat }
      return
    let n ← arrayOf "ARGV"
    match (← dictionary n).get? (.number position) with
    | none => openInput x fuel (position + 1) hasRead
    | some v =>
      let argument ← textOf v
      match argument, assignment? argument with
      | [], _ => openInput x fuel (position + 1) hasRead
      | _, some (name, value) =>
        setVariable x name (.ofInput value)
        openInput x fuel (position + 1) hasRead
      | path, none =>
        match ← readFile path with
        | .error fault =>
          if fault = .isDirectory then failWith x (Octets.ofString s!"read error ({fault.phrase})")
          failWith x (Octets.told "cannot open \"" path s!"\" ({fault.phrase})")
        | .ok text =>
          setGlobal "FILENAME" (.text path)
          setGlobal "FNR" (.number 0.0)
          modify fun s => { s with input := .reading text (position + 1) }

/-- The next of the records that the rules work on. The bound is on the number of files. -/
def mainRecord? (x : Setting) : Nat → RunM (Option Octets)
  | 0 => return none
  | fuel + 1 => do
    match (← get).input with
    | .done => return none
    | .pending position hasRead =>
      openInput x 100000 position hasRead
      mainRecord? x fuel
    | .reading rest position =>
      match ← nextRecord? x rest with
      | some (record, rest) =>
        modify fun s => { s with input := .reading rest position }
        return some record
      | none =>
        modify fun s => { s with input := .pending position true }
        mainRecord? x fuel

/-- Counts a record. -/
def countRecord (names : List String) : RunM Unit := do
  for name in names do
    setGlobal name (.number (((← get).global name).toFloat + 1.0))

/-! ## Commands -/

/-- Carries out a command with an input, if one is given; its status. -/
def runCommand (x : Setting) (command : Octets) (input : Option Octets) : ShellM Nat := do
  let before := (← get).status
  Shell.isolated do
    match input with
    | some text => Shell.connectTo 0 (.supplied text)
    | none => pure ()
    let _ ← x.start "/bin/sh" ["-c".toList, command]
  let status := (← get).status
  Shell.setStatus before
  return status

/-- Writes what is kept back for a file. -/
def flushSink (k : Sink) : RunM Unit := do
  let text := k.pending.reverse.flatMap id
  match k.kind with
  | .command => return
  | _ =>
    if text.isEmpty then return
    shell do
      let s ← get
      match s.files.appendBytes (Octets.toText k.name) (Octets.toBytes text) with
      | .ok files => set { s with files }
      | .error _ => return

/-- Ends what is written: a file gets what was kept back, and a command is carried out with it. -/
def closeSink (x : Setting) (k : Sink) : RunM Nat := do
  match k.kind with
  | .command => shell (runCommand x k.name (some (k.pending.reverse.flatMap id)))
  | _ =>
    flushSink k
    return 0

/-- Writes everything that is kept back for files and for the output. -/
def flushAll : RunM Unit := do
  flush
  let sinks := (← get).sinks
  for k in sinks do flushSink k
  modify fun s => { s with sinks := sinks.map fun k =>
    match k.kind with
    | .command => k
    | _ => { k with pending := [] } }

/-- Ends all that is written. -/
def closeAll (x : Setting) : RunM Unit := do
  let sinks := (← get).sinks
  modify fun s => { s with sinks := [] }
  for k in sinks do
    let _ ← closeSink x k
  flush

/-- Keeps text back for a file or a command. The file is opened when it is written first. -/
def writeOut (x : Setting) (text : Octets) (output : Option (OutputKind × Octets)) : RunM Unit := do
  match output with
  | none => modify fun s => { s with pending := text :: s.pending }
  | some (kind, name) =>
    if kind != .command && (name == "/dev/stdout".toList || name == ['-']) then
      modify fun s => { s with pending := text :: s.pending }
    else if kind != .command && name == "/dev/stderr".toList then shell (Shell.tell text)
    else
      let s ← get
      if !s.sinks.any fun k => k.name == name then
        match kind with
        | .command => flush
        | kind =>
          if name != "/dev/null".toList then
            let path := Octets.toText name
            let t ← shell get
            let opened := match kind with
              | .appended => t.files.appendBytes path ByteArray.empty
              | _ => t.files.writeBytes path ByteArray.empty
            match opened with
            | .ok files => shell (set { t with files })
            | .error fault =>
              failWith x (Octets.told "cannot open \"" name s!"\" for output ({fault.phrase})")
        modify fun s => { s with sinks := { name, kind } :: s.sinks }
      modify fun s => { s with sinks := s.sinks.map fun k =>
        if k.name == name then { k with pending := text :: k.pending } else k }

def sourceOf (x : Setting) (isCommand : Bool) (name : Octets) : RunM (Option Source) := do
  match (← get).sources.find? fun k => k.name == name && k.isCommand == isCommand with
  | some k => return some k
  | none =>
    let opened : Option Source ← if isCommand then do
        flushAll
        let before := (← shell get).status
        let text ← shell (Shell.captured do
          let status ← runCommand x name none
          Shell.setStatus status)
        let status := (← shell get).status
        shell (Shell.setStatus before)
        pure (some { name, isCommand, rest := text, status })
      else
        match ← readFile name with
        | .ok text => pure (some { name, isCommand, rest := text })
        | .error _ => pure none
    match opened with
    | some k =>
      modify fun s => { s with sources := k :: s.sources }
      return some k
    | none => return none

/-- Closes what has a name: its status, or nothing if there is none. -/
def closeName (x : Setting) (name : Octets) : RunM (Option Nat) := do
  let s ← get
  let sinks := s.sinks.filter fun k => k.name == name
  let sources := s.sources.filter fun k => k.name == name
  set { s with
    sinks := s.sinks.filter fun k => k.name != name
    sources := s.sources.filter fun k => k.name != name }
  let mut result : Option Nat := none
  for k in sinks do
    if k.kind = .command then flush
    result := some (← closeSink x k)
  for k in sources do
    result := some k.status
  return result

end Sweep.Awk

/-! ## Formats and replacements

Texts that are made by a format, and texts in which matches are replaced.
-/

namespace Sweep.Awk

/-! ### Formats -/

/-- A directive behind its percent sign: its flags, width, precision and letter, which is missing at
the end of a format. -/
structure Directive where
  flags : List Char
  width : Tool.DirectiveNumber
  precision : Tool.DirectiveNumber
  conversion : Option Char

/-- The directive at the start of a text, and what follows it. -/
def Directive.read (s : Octets) : Directive × Octets :=
  let flags := s.takeWhile fun c => "-+ #0".toList.contains c
  let (width, s) := Tool.directiveNumber (s.drop flags.length)
  let (precision, s) : Tool.DirectiveNumber × Octets :=
    match s with
    | '.' :: rest =>
      let (n, rest) := Tool.directiveNumber rest
      (if n = .none then .given 0 else n, rest)
    | _ => (.none, s)
  match s.dropWhile fun c => "hlqLjtz".toList.contains c with
  | [] => (⟨flags, width, precision, none⟩, [])
  | c :: rest => (⟨flags, width, precision, some c⟩, rest)

/-- What a format is used for. -/
structure Formatting where
  setting : Setting
  /-- The function that is called, for messages. -/
  name : String
  format : Octets
  /-- What is done with the text so far when the format fails. -/
  giveUp : Octets → RunM Unit

namespace Formatting

/-- Fails behind some text. -/
def fail {α : Type} (f : Formatting) (done : Octets) (message : String) : RunM α := do
  f.giveUp done
  failRunning f.setting (Octets.ofString message ++ Octets.told s!"{f.name}(\"" f.format "\")")

/-- The next value. -/
def take (f : Formatting) (done : Octets) (values : List Value) : RunM (Value × List Value) := do
  match values with
  | v :: values => return (v, values)
  | [] => f.fail done "not enough arguments passed to "

def number (f : Formatting) (done : Octets) (n : Tool.DirectiveNumber) (values : List Value) :
    RunM (Option Int × List Value) := do
  match n with
  | .none => return (none, values)
  | .given n => return (some (n : Int), values)
  | .fromArgument =>
    let (v, values) ← f.take done values
    return (some (clampedInt v.toFloat), values)

/-- The text of a format from a place on behind what is done, with a bound on its parts. The second
number counts the directives. -/
def text (f : Formatting) : Nat → Nat → Octets → List Value → Octets → RunM Octets
  | 0, _, done, _, _ => return done
  | fuel + 1, count, done, values, s => do
    let before := s.takeWhile (· != '%')
    let done := done ++ before
    match s.drop before.length with
    | [] => return done
    | _ :: '%' :: rest => f.text fuel count (done ++ ['%']) values rest
    | _ :: rest =>
      let (d, rest) := Directive.read rest
      let (width, values) ← f.number done d.width values
      let (precision, values) ← f.number done d.precision values
      let (v, values) ← f.take done values
      let width := width.getD 0
      let filled : Tool.Directive :=
        { flags := if width < 0 then '-' :: d.flags else d.flags
          width := width.natAbs
          precision := precision.bind fun n => if n < 0 then none else some n.toNat
          conversion := d.conversion.getD 's' }
      let improper : RunM Octets :=
        f.fail done s!"improper conversion(number {toString (count + 1)}) in "
      let next (o : Octets) : RunM Octets := f.text fuel (count + 1) (done ++ o) values rest
      match d.conversion with
      | none => improper
      | some c =>
        if "diouxX".toList.contains c then next (Tool.formatInt filled (clampedInt v.toFloat))
        else if "eEfFgG".toList.contains c then
          next (Tool.formatNumber filled (Number.BinaryValue.ofFloat v.toFloat))
        else if c == 's' then next (Tool.formatText filled (← textOf v))
        else if c == 'c' then
          let byte : Char := match v with
            | .number y | .numeral _ y => Char.ofNat (clampedInt y % 256).toNat
            | .unset => '\x00'
            | .text o => o.headD '\x00'
          next (Tool.pad filled false [] [byte])
        else improper

end Formatting

def format (f : Formatting) (values : List Value) : RunM Octets :=
  f.text (f.format.length + 1) 0 [] values f.format

/-! ### Replacements -/

/-- A text that takes the place of a match: an ampersand stands for what was matched, unless a
backslash stands before it. -/
def replacement (matched : Octets) : Octets → Octets
  | [] => []
  | '\\' :: '&' :: rest => '&' :: replacement matched rest
  | '\\' :: '\\' :: '&' :: rest => '\\' :: matched ++ replacement matched rest
  | '&' :: rest => matched ++ replacement matched rest
  | c :: rest => c :: replacement matched rest

/-- A text with its first match replaced, or none. -/
def replaceFirst (r : Regex) (new text : Octets) : Option Octets :=
  (r.find? {} text).map fun found => found.before ++ replacement found.matched new ++ found.after

/-- A text with every match replaced, and their number. What stands before is given from its end;
the flag says whether a match ends there. The first number bounds the matches. -/
def replaceAll (r : Regex) (new : Octets) : Nat → Bool → Octets → Octets → Octets × Nat
  | 0, _, _, rest => (rest, 0)
  | fuel + 1, isBehindMatch, before, rest =>
    match r.findAfter? {} before rest with
    | none => (rest, 0)
    | some found =>
      let skipped := found.before.drop before.length
      if found.matched.isEmpty && skipped.isEmpty && isBehindMatch then
        match rest with
        | [] => ([], 0)
        | c :: rest =>
          let (o, n) := replaceAll r new fuel false (c :: before) rest
          (c :: o, n)
      else
        let text := skipped ++ replacement found.matched new
        if found.matched.isEmpty then
          match found.after with
          | [] => (text, 1)
          | c :: after =>
            let (o, n) := replaceAll r new fuel false (c :: found.before.reverse) after
            (text ++ c :: o, n + 1)
        else
          let passed := found.matched.reverse ++ found.before.reverse
          let (o, n) := replaceAll r new fuel true passed found.after
          (text ++ o, n + 1)

end Sweep.Awk
