import Sweep.Shell.Awk.Machine

/-!
# Carrying record programs out

Expressions give values, statements change the state, and the rules are used on one record after
the other. What carries out the parts of an expression or a statement is given to the functions that
need it, down to a depth.
-/

namespace Sweep.Awk

open Shell (Launcher ShellM)

/-- What carries out expressions and statements. -/
structure Runner where
  setting : Setting
  value : Expression → RunM Value
  perform : Statement → RunM Unit

/-! ## Places -/

def keyOf (k : Runner) (subscripts : List Expression) : RunM Key := do
  match subscripts with
  | [e] =>
    match ← k.value e with
    | .number x =>
      match wholeOf? x with
      | some n =>
        if n.natAbs < 1 <<< 31 then return .number n else return .text (← textOf (.number x))
      | none => return .text (← textOf (.number x))
    | v => return .text (← textOf v)
  | es =>
    let texts ← es.mapM fun e => do textOf (← k.value e)
    return .text ((← globalText "SUBSEP").intercalate texts)

inductive Place where
  | variable_ (name : String)
  | field (position : Value)
  | element (array : Nat) (key : Key)

def placeOf? (k : Runner) (e : Expression) : RunM (Option Place) := do
  match e with
  | .variable_ name => return some (.variable_ name)
  | .field position => return some (.field (← k.value position))
  | .element array subscripts =>
    let key ← keyOf k subscripts
    return some (.element (← arrayOf array) key)
  | _ => return none

/-- The value at a place. An element comes into being when it is looked at. -/
def Place.get (x : Setting) : Place → RunM Value
  | .variable_ name => variableValue name
  | .field position => fieldValue x position
  | .element array key => do
    let d ← dictionary array
    match d.get? key with
    | some v =>
      setDictionary array (d.touch key)
      return v
    | none =>
      setDictionary array (d.insert key .unset)
      return .unset

def Place.set (x : Setting) (p : Place) (v : Value) : RunM Unit := do
  match p with
  | .variable_ name => setVariable x name v
  | .field position => setField x position v
  | .element array key => setDictionary array ((← dictionary array).insert key v)

/-! ## Operations -/

def Operation.apply (operation : Operation) (x y : Float) : Float :=
  match operation with
  | .add => x + y
  | .subtract => x - y
  | .multiply => x * y
  | .divide => x / y
  | .remainder => Awk.remainder x y
  | .power => Float.pow x y

def Comparison.holds (c : Comparison) (o : Ordering) : Bool :=
  match c with
  | .equal => o == .eq
  | .notEqual => o != .eq
  | .less => o == .lt
  | .lessOrEqual => o != .gt
  | .greater => o == .gt
  | .greaterOrEqual => o != .lt

/-- The regular expression that an expression stands for. -/
def patternOf (k : Runner) (e : Expression) : RunM Regex := do
  match e with
  | .matchesRecord _ r => return r
  | e => dynamicRegex k.setting (← textOf (← k.value e))

/-! ## Functions -/

/-- Reads a record from where an expression says. The result is one, or zero at the end, or minus
one. -/
def readRecord (k : Runner) (source : RecordSource) (name place : Option Expression) :
    RunM Value := do
  let x := k.setting
  let target ← match place with
    | some e => placeOf? k e
    | none => pure none
  let store (record : Octets) : RunM Unit := do
    match target with
    | some p => p.set x (.ofInput record)
    | none => setRecord x (.ofInput record)
  match source with
  | .main =>
    match ← mainRecord? x 100000 with
    | some record =>
      countRecord ["NR", "FNR"]
      store record
      return .number 1.0
    | none => return .number 0.0
  | source =>
    let name ← match name with
      | some e => do textOf (← k.value e)
      | none => pure []
    match ← sourceOf x (source = .command) name with
    | none => return .number (-1.0)
    | some s =>
      match ← nextRecord? x s.rest with
      | none => return .number 0.0
      | some (record, rest) =>
        modify fun t => { t with sources := t.sources.map fun o =>
          if o.name == s.name && o.isCommand == s.isCommand then { o with rest } else o }
        store record
        return .number 1.0

/-- The part of a text from a position on, with a length if one is given. -/
def partOf (o : Octets) (start : Float) (length : Option Float) : Octets :=
  let first := clampedInt start
  let skipped := max (first - 1) 0
  match length with
  | none => o.drop skipped.toNat
  | some n =>
    let last := first + clampedInt n - 1
    (o.take last.toNat).drop skipped.toNat

/-- Where a text begins in another one, counted from one. -/
def indexOf (target : Octets) : Nat → Octets → Nat
  | i, [] => if target.isEmpty then i else 0
  | i, c :: rest => if target.isPrefixOf (c :: rest) then i else indexOf target (i + 1) rest

/-- Replaces matches at a place. -/
def substitute (k : Runner) (isGlobal : Bool) (pattern new : Expression) (target : Expression) :
    RunM Value := do
  let r ← patternOf k pattern
  let new ← textOf (← k.value new)
  let place ← placeOf? k target
  let text ← textOf (← match place with
    | some p => p.get k.setting
    | none => k.value target)
  let (result, count) : Octets × Nat :=
    if isGlobal then replaceAll r new (2 * text.length + 2) false [] text
    else match replaceFirst r new text with
      | some result => (result, 1)
      | none => (text, 0)
  if 0 < count then
    match place with
    | some p => p.set k.setting (.text result)
    | none => pure ()
  return .ofNat count

def nextRandom (n : Nat) : Nat := (n * 6364136223846793005 + 1442695040888963407) % (1 <<< 64)

/-- Calls a function that every program has. -/
def callBuiltin (k : Runner) (name : String) (arguments : List Expression) : RunM Value := do
  let x := k.setting
  let text (e : Expression) : RunM Octets := do textOf (← k.value e)
  let number (e : Expression) : RunM Float := do return (← k.value e).toFloat
  match name, arguments with
  | "length", [] => return .ofNat (← textOf (← currentRecord)).length
  | "length", [.variable_ array] =>
    let s ← get
    let isArray := match s.frame.find? fun f => f.1 == array with
      | some (_, .array _) => true
      | some _ => false
      | none => s.arrayNames.any fun a => a.1 == array
    if isArray then return .ofNat (← dictionary (← arrayOf array)).size
    else return .ofNat (← text (.variable_ array)).length
  | "length", [e] => return .ofNat (← text e).length
  | "index", [a, b] =>
    let o ← text a
    let target ← text b
    return .ofNat (indexOf target 1 o)
  | "substr", [a, b] =>
    let o ← text a
    return .text (partOf o (← number b) none)
  | "substr", [a, b, c] =>
    let o ← text a
    let start ← number b
    return .text (partOf o start (some (← number c)))
  | "sprintf", f :: rest =>
    let o ← text f
    let values ← rest.mapM k.value
    return .text (← format ⟨x, "sprintf", o, fun _ => pure ()⟩ values)
  | "sin", [a] => return .number (Float.sin (← number a))
  | "cos", [a] => return .number (Float.cos (← number a))
  | "atan2", [a, b] =>
    let y ← number a
    return .number (Float.atan2 y (← number b))
  | "exp", [a] => return .number (Float.exp (← number a))
  | "log", [a] => return .number (Float.log (← number a))
  | "sqrt", [a] => return .number (Float.sqrt (← number a))
  | "int", [a] => return .number (truncated (← number a))
  | "rand", [] =>
    modify fun s => { s with random := nextRandom s.random }
    return .number (Float.ofNat ((← get).random / (1 <<< 11)) / Float.ofNat (1 <<< 53))
  | "srand", arguments =>
    let seed ← match arguments with
      | e :: _ => k.value e
      | [] => pure (.number 0.0)
    let before := (← get).seed
    let random := (clampedInt seed.toFloat % ((1 <<< 64 : Nat) : Int)).toNat
    modify fun s => { s with seed, random }
    return before
  | "toupper", [a] => return .text ((← text a).map Char.toUpper)
  | "tolower", [a] => return .text ((← text a).map Char.toLower)
  | "close", [a] =>
    match ← closeName x (← text a) with
    | some status => return .ofNat status
    | none => return .number (-1.0)
  | "fflush", _ =>
    flushAll
    return .number 0.0
  | "system", [a] =>
    let command ← text a
    flushAll
    return .ofNat (← shell (runCommand x command none))
  | "match", [a, b] =>
    let o ← text a
    let r ← patternOf k b
    let (start, length) : Nat × Int := match r.find? {} o with
      | some found => (found.before.length + 1, found.matched.length)
      | none => (0, -1)
    setVariable x "RSTART" (.ofNat start)
    setVariable x "RLENGTH" (.ofInt length)
    return .ofNat start
  | "split", a :: .variable_ array :: rest =>
    let o ← text a
    let cutter ← match rest with
      | .matchesRecord _ r :: _ => pure (Cutter.regex r)
      | e :: _ => do cutterOf x (← text e)
      | [] => do cutterOf x (← globalText "FS")
    let pieces := (cutter.cut o).map Value.ofInput
    setDictionary (← arrayOf array) (.ofList pieces)
    return .ofNat pieces.length
  | "sub", pattern :: new :: rest =>
    substitute k false pattern new (rest.headD (.field (.number 0.0)))
  | "gsub", pattern :: new :: rest =>
    substitute k true pattern new (rest.headD (.field (.number 0.0)))
  | _, _ => return .unset

/-- The most calls that may be open. -/
def maxCalls : Nat := 5000

def callFunction (k : Runner) (name : String) (arguments : List Expression) : RunM Value := do
  match (← get).program.function? name with
  | none => return .unset
  | some f =>
    let rec bind : List String → List Expression → RunM (List (String × Slot))
      | [], _ => return []
      | p :: parameters, arguments => do
        let isArray := f.arrays.contains p
        let slot : Slot ← match isArray, arguments with
          | true, .variable_ array :: _ => do pure (Slot.array (← arrayOf array))
          | true, _ => do
            let n := (← get).arrays.size
            modify fun s => { s with arrays := s.arrays.push {} }
            pure (Slot.array n)
          | false, e :: _ => do pure (Slot.value (← k.value e))
          | false, [] => pure (Slot.value .unset)
        return (p, slot) :: (← bind parameters (arguments.drop 1))
    let frame ← bind f.parameters arguments
    let before := (← get).frame
    let calls := (← get).calls
    if maxCalls < calls then
      failRunning k.setting "function call nesting too deep for evaluation stack".toList
    modify fun s => { s with frame, calls := calls + 1 }
    let restore : RunM Unit := modify fun s => { s with frame := before, calls }
    let result : Value ← (do
      try
        k.perform f.body
        return Value.unset
      catch
        | .return v => return v
        | other => do
          restore
          throw other : RunM Value)
    restore
    return result

/-! ## Expressions -/

def evaluate (k : Runner) (e : Expression) : RunM Value := do
  let x := k.setting
  match e with
  | .number y => return .number y
  | .text o => return .text o
  | .matchesRecord _ r => return .ofBool (r.isMatch {} (← textOf (← currentRecord)))
  | .variable_ name => variableValue name
  | .field position => fieldValue x (← k.value position)
  | .element _ _ =>
    match ← placeOf? k e with
    | some p => p.get x
    | none => return .unset
  | .group [e] => k.value e
  | .group es =>
    let texts ← es.mapM fun e => do textOf (← k.value e)
    return .text ((← globalText "SUBSEP").intercalate texts)
  | .assign target operation value =>
    match ← placeOf? k target with
    | none => return .unset
    | some p =>
      let v ← k.value value
      let v ← match operation with
        | none => pure v
        | some operation => do
          let before ← p.get x
          pure (Value.number (operation.apply before.toFloat v.toFloat))
      p.set x v
      return v
  | .step target amount isAfter =>
    match ← placeOf? k target with
    | none => return .unset
    | some p =>
      let before := (← p.get x).toFloat
      p.set x (.number (before + amount))
      return .number (if isAfter then before else before + amount)
  | .condition test yes no => if (← k.value test).isTrue then k.value yes else k.value no
  | .either a b =>
    if (← k.value a).isTrue then return .number 1.0 else return .ofBool (← k.value b).isTrue
  | .both a b =>
    if (← k.value a).isTrue then return .ofBool (← k.value b).isTrue else return .number 0.0
  | .isElement subscripts array =>
    let key ← match subscripts with
      | [.group es] => keyOf k es
      | es => keyOf k es
    let n ← arrayOf array
    let d ← dictionary n
    if (d.get? key).isSome then
      setDictionary n (d.touch key)
      return .number 1.0
    else return .number 0.0
  | .isMatch text pattern isNegated =>
    let o ← textOf (← k.value text)
    let r ← patternOf k pattern
    return .ofBool (r.isMatch {} o != isNegated)
  | .compare c a b =>
    let v ← k.value a
    let w ← k.value b
    return .ofBool (c.holds (v.compare (← get).format w))
  | .join a b =>
    let o ← textOf (← k.value a)
    return .text (o ++ (← textOf (← k.value b)))
  | .operate operation a b =>
    let v ← k.value a
    let w ← k.value b
    return .number (operation.apply v.toFloat w.toFloat)
  | .not e => return .ofBool !(← k.value e).isTrue
  | .negative e => return .number (-(← k.value e).toFloat)
  | .positive e => return .number (← k.value e).toFloat
  | .builtin name arguments => callBuiltin k name arguments
  | .call name arguments => callFunction k name arguments
  | .read source name place => readRecord k source name place

/-! ## Statements -/

/-- Prints values, numbers by the format for output. -/
def printText (values : List Value) : RunM Octets := do
  let form ← globalText "OFMT"
  let values ← match values with
    | [] => do pure [← currentRecord]
    | values => pure values
  let texts := values.map fun v => v.toOctets form
  return (← globalText "OFS").intercalate texts ++ (← globalText "ORS")

/-- Carries out a round of a loop; false if the loop is left. -/
def inLoop (body : RunM Unit) : RunM Bool := do
  try
    body
    return true
  catch
    | .leave => return false
    | .continue => return true
    | other => throw other

/-- The most rounds of a loop, and the most records. -/
def maxRounds : Nat := 10000000

/-- Repeats a body and a step while a test holds, with a bound on the rounds. -/
def repeatWhile (test : RunM Bool) (body step : RunM Unit) : Nat → RunM Unit
  | 0 => throw .exit
  | fuel + 1 => do
    if ← test then
      if ← inLoop body then
        step
        repeatWhile test body step fuel

def repeatEach (body : RunM Unit) (store : Octets → RunM Unit) : List Octets → RunM Unit
  | [] => return
  | key :: rest => do
    store key
    if ← inLoop body then repeatEach body store rest

/-- Carries out a statement. -/
def execute (k : Runner) (s : Statement) : RunM Unit := do
  let x := k.setting
  let isTrue (e : Expression) : RunM Bool := do return (← k.value e).isTrue
  match s with
  | .nothing => return
  | .block body =>
    for s in body do k.perform s
  | .expression e =>
    let _ ← k.value e
  | .print isFormatted arguments output =>
    let values ← arguments.mapM k.value
    let output ← match output with
      | some (kind, e) => do pure (some (kind, ← textOf (← k.value e)))
      | none => pure none
    match isFormatted, values with
    | true, f :: rest =>
      let write (o : Octets) : RunM Unit := writeOut x o output
      write (← format ⟨x, "printf", ← textOf f, write⟩ rest)
    | _, values => writeOut x (← printText values) output
  | .branch test yes no => if ← isTrue test then k.perform yes else k.perform no
  | .loop test body => repeatWhile (isTrue test) (k.perform body) (pure ()) maxRounds
  | .loopAfter body test =>
    if ← inLoop (k.perform body) then
      repeatWhile (isTrue test) (k.perform body) (pure ()) maxRounds
  | .counted start test step body =>
    k.perform start
    let goesOn : RunM Bool := match test with
      | some e => isTrue e
      | none => pure true
    repeatWhile goesOn (k.perform body) (k.perform step) maxRounds
  | .each name array body =>
    let n ← arrayOf array
    let d := (← dictionary n).withTexts
    setDictionary n d
    repeatEach (k.perform body) (fun key => setVariable x name (.text key)) d.keys
  | .delete array subscripts =>
    let n ← arrayOf array
    match subscripts with
    | none => setDictionary n {}
    | some es =>
      let key ← keyOf k es
      setDictionary n ((← dictionary n).erase key)
  | .next => throw .next
  | .nextFile => throw .nextFile
  | .exit status =>
    match status with
    | some e =>
      let n := clampedInt (← k.value e).toFloat
      modify fun s => { s with exitStatus := (n % 256).toNat }
    | none => pure ()
    throw .exit
  | .return value =>
    match value with
    | some e => throw (.return (← k.value e))
    | none => throw (.return .unset)
  | .leave => throw .leave
  | .continue => throw .continue

/-- What carries out expressions and statements, down to a depth. -/
def runner (setting : Setting) : Nat → Runner
  | 0 => { setting, value := fun _ => throw .failed, perform := fun _ => throw .failed }
  | depth + 1 =>
    { setting
      value := fun e => evaluate (runner setting depth) e
      perform := fun s => execute (runner setting depth) s }

/-! ## Rules -/

def useRule (k : Runner) (i : Nat) (r : Rule) : RunM Unit := do
  let isTrue (e : Expression) : RunM Bool := do return (← k.value e).isTrue
  match r.selector with
  | .start | .finish => return
  | .every => k.perform r.body
  | .where_ test => if ← isTrue test then k.perform r.body
  | .range first last =>
    let isInside ← if (← get).inRange.contains i then pure true else isTrue first
    if isInside then
      if ← isTrue last then modify fun s => { s with inRange := s.inRange.filter (· != i) }
      else
        let put (entered : List Nat) := if entered.contains i then entered else i :: entered
        modify fun s => { s with inRange := put s.inRange }
      k.perform r.body

/-- Uses the rules on the records, with a bound on their number. -/
def useRecords (k : Runner) (rules : List (Rule × Nat)) : Nat → RunM Unit
  | 0 => return
  | fuel + 1 => do
    match ← mainRecord? k.setting 100000 with
    | none => return
    | some record =>
      countRecord ["NR", "FNR"]
      setRecord k.setting (.ofInput record)
      try
        for (r, i) in rules do useRule k i r
      catch
        | .next => pure ()
        | .nextFile => modify fun s =>
          match s.input with
          | .reading _ position => { s with input := .pending position true }
          | _ => s
        | other => throw other
      useRecords k rules fuel

/-- Carries out a program, and what it does at the end also if it leaves early. -/
def runProgram (k : Runner) (p : Program) : RunM Unit := do
  let bodies (isWanted : Selector → Bool) : List Statement :=
    (p.rules.filter fun r => isWanted r.selector).map (·.body)
  let starts := bodies fun s => match s with
    | .start => true
    | _ => false
  let ends := bodies fun s => match s with
    | .finish => true
    | _ => false
  try
    for s in starts do k.perform s
    if p.readsRecords then useRecords k p.rules.zipIdx maxRounds
  catch
    | .failed => throw .failed
    | _ => pure ()
  for s in ends do k.perform s

/-! ## The command -/

/-- What the command is asked for. -/
structure Request where
  assignments : List Octets := []
  separator : Option Octets := none
  files : List Octets := []
  rest : List Octets := []

/-- Reads the options, with a bound on their number, or tells why they are not understood. -/
def Request.read : Nat → Request → List Octets → Except Octets Request
  | 0, r, rest => .ok { r with rest }
  | _ + 1, r, [] => .ok r
  | fuel + 1, r, argument :: rest =>
    let valued (value : Octets) (f : Octets → Request) : Except Octets Request :=
      match value, rest with
      | [], value :: rest => Request.read fuel (f value) rest
      | [], [] => .error (Octets.told "option " argument " lacks argument")
      | value, rest => Request.read fuel (f value) rest
    match argument with
    | ['-', '-'] => .ok { r with rest }
    | '-' :: 'F' :: value => valued value fun o => { r with separator := some o }
    | '-' :: 'v' :: value => valued value fun o => { r with assignments := r.assignments ++ [o] }
    | '-' :: 'f' :: value => valued value fun o => { r with files := r.files ++ [o] }
    | '-' :: 'W' :: value => valued value fun _ => r
    | '-' :: _ :: _ => .error ("not an option: ".toList ++ argument)
    | argument => .ok { r with rest := argument :: rest }

/-- How deep expressions and statements may be within one another. -/
def maxDepth : Nat := 100000

def helpText : Octets := Octets.unlines (List.map Octets.ofString [
  "Usage: mawk [Options] [Program] [file ...]", "", "Program:",
  "    The -f option value is the name of a file containing program text.",
  "    If no -f option is given, a \"--\" ends option processing; the following",
  "    parameters are the program text.", "", "Options:",
  "    -f program-file  Program  text is read from file instead of from the",
  "                     command-line.  Multiple -f options are accepted.",
  "    -F value         sets the field separator, FS, to value.",
  "    -v var=value     assigns value to program variable var.",
  "    --               unambiguous end of options.", "",
  "    Implementation-specific options are prefixed with \"-W\".  They can be",
  "    abbreviated:", "",
  "    -W version       show version information and exit.",
  "    -W compat        pre-POSIX 2001.",
  "    -W dump          show assembler-like listing of program and exit.",
  "    -W help          show this message and exit.",
  "    -W interactive   set unbuffered output, line-buffered input.",
  "    -W exec file     use file as program as well as last option.",
  "    -W posix         stricter POSIX checking.",
  "    -W random=number set initial random seed.",
  "    -W sprintf=number adjust size of sprintf buffer.",
  "    -W usage         show this message and exit."])

/-- Gives the variables their first values: what is known from outside, and what was asked for. -/
def prepare (x : Setting) (r : Request) (operands : List Octets) : RunM Unit := do
  let environment := (← shell get).environment
  let n ← arrayOf "ENVIRON"
  setDictionary n (environment.foldl (fun d (key, value) =>
    d.insert (.text (Octets.ofString key)) (.ofInput value)) {})
  let n ← arrayOf "ARGV"
  let all := Octets.ofString x.name :: operands
  setDictionary n (all.zipIdx.foldl (fun d (o, i) => d.insert (.number i) (.ofInput o)) {})
  setGlobal "ARGC" (.ofNat all.length)
  match r.separator with
  | some o => setGlobal "FS" (.text (unescaped o))
  | none => pure ()
  for o in r.assignments do
    match assignment? o with
    | some (name, value) => setVariable x name (.ofInput value)
    | none => failWith x ("improper assignment: -v ".toList ++ o)

/-- Reads the program that is asked for, which may be an argument, and carries it out. -/
def runRequest (x : Setting) (r : Request) : RunM Unit := do
  let (texts, operands) : List Octets × List Octets :=
    match r.files, r.rest with
    | [], program :: operands => ([program], operands)
    | _, operands => ([], operands)
  prepare x r operands
  if r.files.isEmpty && texts.isEmpty then
    shell (Shell.tell helpText)
    return
  let read ← r.files.mapM fun path => do
    match ← readFile path with
    | .ok text => return text
    | .error fault => failWith x (Octets.told "cannot open \"" path s!"\" ({fault.phrase})")
  match Program.read ((texts ++ read).flatMap fun o => o ++ ['\n']).dropLast with
  | .error faults =>
    for fault in faults do shell (Shell.tell (Octets.ofString (x.name ++ ": ") ++ fault ++ ['\n']))
    modify fun s => { s with exitStatus := 2 }
  | .ok program =>
    modify fun s => { s with program }
    runProgram (runner x maxDepth) program

/-- Works on the records of files, or of the input, as a program says. -/
def awk : Launcher := fun start path arguments => do
  let name := String.ofList (Tool.lastComponent path.toList)
  match Request.read (arguments.length + 1) {} arguments with
  | .error message =>
    Shell.tell (Octets.told s!"{name}: " message "\n")
    Shell.setStatus 2
  | .ok r =>
    let whole : RunM Unit := do
      let x : Setting := { name, start }
      try runRequest x r
      catch _ => pure ()
      closeAll x
    let (_, s) ← whole.run { program := {}, globals := firstVariables }
    Shell.setStatus s.exitStatus

end Sweep.Awk
