import Sweep.Shell.Actor

/-!
# Programs that start programs

Some programs only prepare what another program is started with: its environment, its arguments or
its directory. They are given what starts a program.
-/

namespace Sweep.Shell

/-- Starts a program by its name or path. -/
abbrev Starter := String → List Octets → ShellM (Except FileFault Unit)

/-- A program that starts others, by what starts them, its own name and its arguments. -/
abbrev Launcher := Starter → String → List Octets → ShellM Unit

namespace Launcher

def complain (name : String) (status : Nat) (message : Octets) : ShellM Unit := do
  tell (Octets.ofString (name ++ ": ") ++ message ++ ['\n'])
  setStatus status

def startOr (start : Starter) (shown : String) (name : String) (program : Octets)
    (arguments : List Octets) : ShellM Unit := do
  setStatus 0
  match ← start (Octets.toText program) arguments with
  | .ok () => return
  | .error fault =>
    complain name (if fault = .notFound then 127 else 126)
      (Octets.ofString shown ++ Octets.quoted program ++ Octets.ofString s!": {fault.phrase}")

/-! ## Environments -/

/-- The text of an environment that is cut into arguments: the text read so far of an argument,
if one has begun, and the arguments before it. -/
structure SplitText where
  current : Option Octets := none
  finished : List Octets := []

namespace SplitText

def add (t : SplitText) (o : Octets) : SplitText :=
  { t with current := some (t.current.getD [] ++ o) }

def finish (t : SplitText) : SplitText :=
  match t.current with
  | some argument => { current := none, finished := t.finished ++ [argument] }
  | none => t

def arguments (t : SplitText) : List Octets := t.finish.finished

end SplitText

/-- Cuts a text into arguments, with quotes, escapes and variables. The quote that is open is given,
and a bound on the steps. -/
def splitText (value : String → Octets) :
    Nat → Option Char → SplitText → Octets → Except String (List Octets)
  | 0, _, t, _ => .ok t.arguments
  | _ + 1, some _, _, [] => .error "no terminating quote in -S string"
  | _ + 1, none, t, [] => .ok t.arguments
  | fuel + 1, quote, t, c :: rest =>
    if quote = none && Octets.isSpace c then splitText value fuel none t.finish rest
    else if quote = none && c == '#' && t.current.isNone then .ok t.arguments
    else if c == '\'' && quote != some '"' || c == '"' && quote != some '\'' then
      splitText value fuel (if quote.isSome then none else some c) (t.add []) rest
    else if c == '\\' then
      match rest with
      | [] => .error "invalid backslash at end of string in -S"
      | d :: rest =>
        let go (o : Octets) : Except String (List Octets) :=
          splitText value fuel quote (t.add o) rest
        if quote = some '\'' then
          if d == '\\' || d == '\'' then go [d] else go [c, d]
        else
          match d with
          | '_' => if quote = none then splitText value fuel quote t.finish rest else go [' ']
          | 'c' =>
            if quote = none then .ok t.arguments
            else .error "'\\c' must not appear in double-quoted -S string"
          | 'f' => go ['\x0c']
          | 'n' => go ['\n']
          | 'r' => go ['\r']
          | 't' => go ['\t']
          | 'v' => go ['\x0b']
          | d =>
            if "\"#$\\'".toList.contains d then go [d]
            else .error s!"invalid sequence '\\{d.toString}' in -S"
    else if c == '$' && quote != some '\'' then
      match rest with
      | '\x7b' :: more =>
        let name := more.takeWhile (· != '\x7d')
        splitText value fuel quote (t.add (value (String.ofList name)))
          (more.drop (name.length + 1))
      | _ => .error "only $\x7bVARNAME\x7d expansion is supported, error at: $"
    else splitText value fuel quote (t.add [c]) rest

/-- What a program is to be started with. -/
structure EnvironmentRequest where
  isEmpty : Bool := false
  removed : List Octets := []
  directory : Option Octets := none
  separator : Char := '\n'
  rest : List Octets := []

/-- Reads the options of `env`, with a bound on their number. -/
def environmentRequest (c : ToolCall) :
    Nat → EnvironmentRequest → List Octets → ToolM EnvironmentRequest
  | 0, r, rest => return { r with rest }
  | _ + 1, r, [] => return r
  | fuel + 1, r, argument :: rest => do
    let next := environmentRequest c fuel
    let split (r : EnvironmentRequest) (text : Octets) (rest : List Octets) :
        ToolM EnvironmentRequest := do
      let value (name : String) : Octets :=
        ((c.environment.find? fun v => v.1 == name).map (·.2)).getD []
      match splitText value (text.length + 1) none {} text with
      | .ok words => next r (words ++ rest)
      | .error message => c.fail 125 (Octets.ofString message)
    match argument with
    | ['-'] | ['-', 'i'] => next { r with isEmpty := true } rest
    | ['-', '-'] => return { r with rest }
    | '-' :: '-' :: long =>
      let name := long.takeWhile (· != '=')
      let value := long.drop (name.length + 1)
      let isGiven := name.length < long.length
      let valued (f : Octets → List Octets → ToolM EnvironmentRequest) : ToolM EnvironmentRequest :=
        if isGiven then f value rest
        else match rest with
        | value :: rest => f value rest
        | [] => c.misuse 125 (Octets.told "option '--" name "' requires an argument")
      match String.ofList name with
      | "ignore-environment" => next { r with isEmpty := true } rest
      | "null" => next { r with separator := '\x00' } rest
      | "unset" => valued fun value rest => next { r with removed := r.removed ++ [value] } rest
      | "chdir" => valued fun value rest => next { r with directory := some value } rest
      | "split-string" => valued fun value rest => split r value rest
      | "debug" => next r rest
      | _ => c.misuse 125 (Octets.told "unrecognized option '" argument "'")
    | '-' :: letter :: more =>
      let go (r : EnvironmentRequest) : ToolM EnvironmentRequest :=
        next r (if more.isEmpty then rest else ('-' :: more) :: rest)
      let valued (f : Octets → List Octets → ToolM EnvironmentRequest) : ToolM EnvironmentRequest :=
        match more, rest with
        | [], value :: rest => f value rest
        | [], [] => c.misuse 125 (Octets.told "option requires an argument -- '" [letter] "'")
        | value, rest => f value rest
      match letter with
      | 'i' => go { r with isEmpty := true }
      | '0' => go { r with separator := '\x00' }
      | 'v' => go r
      | 'u' => valued fun value rest => next { r with removed := r.removed ++ [value] } rest
      | 'C' => valued fun value rest => next { r with directory := some value } rest
      | 'S' => valued fun value rest => split r value rest
      | _ =>
        if Octets.isSpace letter then
          c.complain 125 (Octets.told "invalid option -- '" [letter] "'")
          c.misuse 125 (Octets.ofString "use -[v]S to pass options in shebang lines")
        else c.misuse 125 (Octets.told "invalid option -- '" [letter] "'")
    | _ => return { r with rest := argument :: rest }

def env : Launcher := fun start name arguments => do
  let call : ToolCall := { name, arguments, environment := (← get).environment }
  let bound := (arguments.map fun a => 2 * a.length + 2).foldl (· + ·) 2
  match ← performTool name (environmentRequest call bound {} arguments) with
  | none => return
  | some r =>
    let values := r.rest.takeWhile fun a => a.contains '='
    let command := r.rest.drop values.length
    isolated do
      if r.isEmpty then modify fun s => { s with bindings := ∅ }
      for removed in r.removed do
        modify fun s => { s with bindings := s.bindings.erase (Octets.toText removed) }
      for v in values do
        let key := v.takeWhile (· != '=')
        let new : Variable := { value := some (v.drop (key.length + 1)), isExported := true }
        modify fun s => { s with bindings := s.bindings.insert (Octets.toText key) new }
      match command with
      | [] =>
        for (key, value) in (← get).environment do
          print (Octets.ofString key ++ '=' :: value ++ [r.separator])
        setStatus 0
      | program :: rest =>
        let entered := match r.directory with
          | some directory =>
            match (Octets.toText directory) with
            | text => fun (t : FileTree) => (t.enter text).mapError fun f => (directory, f)
          | none => .ok
        match entered (← get).files with
        | .error (directory, fault) =>
          complain name 125 (Octets.told "cannot change directory to " (Octets.quoted directory)
            s!": {fault.phrase}")
        | .ok files =>
          modify fun s => { s with files }
          match ← start (Octets.toText program) rest with
          | .ok () => pure ()
          | .error fault =>
            let status := if fault = .notFound then 127 else 126
            complain name status (Octets.quoted program ++ Octets.ofString s!": {fault.phrase}")
            if status = 127 && program.any Octets.isSpace then
              complain name status (Octets.ofString "use -[v]S to pass options in shebang lines")

/-! ## Arguments from the input -/

/-- How arguments are taken from a text. -/
structure ItemRules where
  separator : Option Char := none
  /-- Whether an item is a whole line. -/
  byLine : Bool := false

/-- An item that is being read. -/
structure ItemScan where
  current : Option Octets := none
  /-- The items of the lines before, and of this one. -/
  lines : List (List Octets) := []
  line : List Octets := []

namespace ItemScan

def add (s : ItemScan) (o : Octets) : ItemScan :=
  { s with current := some (s.current.getD [] ++ o) }

def finishItem (s : ItemScan) : ItemScan :=
  match s.current with
  | some item => { s with current := none, line := s.line ++ [item] }
  | none => s

def finishLine (s : ItemScan) : ItemScan :=
  let s := s.finishItem
  if s.line.isEmpty then s else { s with lines := s.lines ++ [s.line], line := [] }

end ItemScan

/-- The items of a text between blanks, with quotes, by lines. -/
def quotedItems (byLine : Bool) : Option Char → ItemScan → Octets → Except Char (List (List Octets))
  | some q, _, [] => .error q
  | none, s, [] => .ok s.finishLine.lines
  | some q, s, c :: rest =>
    if c == q then quotedItems byLine none (s.add []) rest
    else if c == '\n' then .error q
    else quotedItems byLine (some q) (s.add [c]) rest
  | none, s, '\\' :: c :: rest => quotedItems byLine none (s.add [c]) rest
  | none, s, c :: rest =>
    if c == '\n' then quotedItems byLine none s.finishLine rest
    else if c == '\'' || c == '"' then quotedItems byLine (some c) (s.add []) rest
    else if Octets.isSpace c then
      if byLine && s.current.isSome then quotedItems byLine none (s.add [c]) rest
      else quotedItems byLine none (if byLine then s else s.finishItem) rest
    else quotedItems byLine none (s.add [c]) rest

/-- Cuts a list into pieces of a size. -/
def chunks {α : Type} (size : Nat) : Nat → List α → List (List α)
  | 0, _ | _, [] => []
  | fuel + 1, xs => xs.take (max size 1) :: chunks size fuel (xs.drop (max size 1))

/-- An argument with every occurrence of a text replaced. -/
def replaced (target value : Octets) : Nat → Octets → Octets
  | 0, o => o
  | _, [] => []
  | fuel + 1, c :: rest =>
    if !target.isEmpty && target.isPrefixOf (c :: rest) then
      value ++ replaced target value fuel ((c :: rest).drop target.length)
    else c :: replaced target value fuel rest

def argumentOptions : OptionForms :=
  { plain := "0rtpox", valued := "nILPadsE", optional := "ile"
    long := [("null", '0'), ("no-run-if-empty", 'r'), ("verbose", 't'), ("max-args", 'n'),
      ("replace", 'I'), ("max-lines", 'L'), ("max-procs", 'P'), ("arg-file", 'a'),
      ("delimiter", 'd'), ("max-chars", 's'), ("exit", 'x')]
    isOrdered := true }

def xargs : Launcher := fun start name arguments => do
  let call : ToolCall := { name, arguments }
  let prepared ← performTool name do
    let (found, operands) ← argumentOptions.read call
    let text ← match found.value? 'a' with
      | some path =>
        match ← Tool.readPath path with
        | .ok text => pure text
        | .error fault =>
          call.fail 1
            (Octets.told "Cannot open input file " (Octets.quoted path) s!": {fault.phrase}")
      | none => Tool.readInput
    for (letter, value) in found do
      if "nLP".toList.contains letter then
        match Octets.toInt? value with
        | some n =>
          if n < 1 && letter != 'P' then
            call.misuse 1
              (Octets.told "value " value s!" for -{letter.toString} option should be >= 1")
        | none =>
          call.misuse 1 (Octets.told "invalid number \"" value s!"\" for -{letter.toString} option")
    return (found, operands, text)
  match prepared with
  | none => return
  | some (found, operands, text) =>
    let count (letter : Char) : Option Nat := (found.value? letter).map Octets.digitsValue
    let place := (found.value? 'I').or
      ((found.value? 'i').map fun o => if o.isEmpty then ['\x7b', '\x7d'] else o)
    let separator : Option Char :=
      if found.has '0' then some '\x00'
      else (found.value? 'd').map fun o =>
        match o with
        | ['\\', 'n'] => '\n'
        | ['\\', 't'] => '\t'
        | ['\\', '0'] => '\x00'
        | o => o.headD '\n'
    let items : Except Char (List (List Octets)) :=
      match separator with
      | some c =>
        let parts := Octets.splitAtEach c text
        .ok ((if parts.getLast? == some [] then parts.dropLast else parts).map fun item => [item])
      | none => quotedItems place.isSome none {} text
    match items with
    | .error q =>
      let kind := if q == '\'' then "single" else "double"
      complain name 1 (Octets.ofString (s!"unmatched {kind} quote; by default quotes are " ++
        "special to xargs unless you use the -0 option"))
    | .ok lines =>
      let all := lines.flatMap id
      let command := if operands.isEmpty then [Octets.ofString "echo"] else operands
      let batches : List (List Octets) :=
        match place with
        | some target =>
          all.map fun item => command.map fun a => replaced target item (a.length + 1) a
        | none =>
          let groups : List (List Octets) :=
            match count 'n', count 'L' with
            | some n, _ => chunks n (all.length + 1) all
            | none, some n => (chunks n (lines.length + 1) lines).map fun g => g.flatMap id
            | none, none => if all.isEmpty then [] else [all]
          let groups := if groups.isEmpty && !found.has 'r' then [[]] else groups
          groups.map fun g => command ++ g
      let rec go (status : Nat) : List (List Octets) → ShellM Unit
        | [] => setStatus status
        | batch :: rest => do
          if found.has 't' then
            tell ([' '].intercalate (batch.map Octets.quotedIfNeeded) ++ ['\n'])
          setStatus 0
          let program := batch.headD []
          let before := (← get).descriptors
          connectTo 0 .null
          let result ← start (Octets.toText program) (batch.drop 1)
          modify fun s => { s with descriptors := before }
          match result with
          | .error fault =>
            complain name (if fault = .notFound then 127 else 126)
              (program ++ Octets.ofString s!": {fault.phrase}")
          | .ok () =>
            let ended := (← get).status
            if ended = 255 then
              complain name 124 (program ++ Octets.ofString ": exited with status 255; aborting")
            else go (if ended = 0 then status else 123) rest
      go 0 batches

/-! ## Limits -/

/-- Whether a text is a length of time. -/
def isDuration (o : Octets) : Bool :=
  let digits := o.takeWhile fun c => c.isDigit || c == '.'
  !digits.isEmpty && (digits.filter (· == '.')).length ≤ 1 && digits.any Char.isDigit &&
    ["", "s", "m", "h", "d"].contains (String.ofList (o.drop digits.length))

/-- Starts a program that has to end within a time, which the programs here always do. -/
def timeout : Launcher := fun start name arguments => do
  let call : ToolCall := { name, arguments }
  let options : OptionForms := {
    plain := "fpv", valued := "ks", isOrdered := true, misuseStatus := 125
    long := [("kill-after", 'k'), ("signal", 's'), ("foreground", 'f'), ("preserve-status", 'p'),
      ("verbose", 'v')] }
  let prepared ← performTool name do
    let (_, operands) ← options.read call
    match operands with
    | duration :: program :: rest =>
      if !isDuration duration then
        call.misuse 125 (Octets.ofString "invalid time interval " ++ Octets.quoted duration)
      return (program, rest)
    | _ => call.misuse 125 (Octets.ofString "missing operand")
  match prepared with
  | some (program, rest) => startOr start "failed to run command " name program rest
  | none => return

/-- Starts a program after options that make no difference here. -/
def plainly (options : OptionForms) : Launcher := fun start name arguments => do
  let call : ToolCall := { name, arguments }
  match ← performTool name (options.read call) with
  | some (_, program :: rest) => startOr start "" name program rest
  | some (_, []) =>
    if name == "nice" then print ['0', '\n']
    else
      let _ ← performTool name
        (call.misuse (α := Unit) options.misuseStatus (Octets.ofString "missing operand"))
  | none => return

end Launcher

end Sweep.Shell
