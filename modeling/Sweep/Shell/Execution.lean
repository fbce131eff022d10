import Sweep.Shell.Actor
import Sweep.Shell.Awk.Running
import Sweep.Shell.Finding
import Sweep.Shell.Regex
import Sweep.Shell.Source.Command

/-!
# Carrying scripts out

A script is carried out command by command, with a bound on the depth of the steps so that it comes
to an end in any case. A name is that of a function, of a part of the shell, of a tool, or of a
file that can be executed.

Scripts are what tasks start outside the program. Nothing that is stated of runs depends on them: a
run takes whatever starts its programs as given.
-/

namespace Sweep.Shell

/-! ## Launchers -/

/-- The programs that start programs. -/
def launchers : List (String × Launcher) :=
  [("env", Launcher.env), ("xargs", Launcher.xargs), ("timeout", Launcher.timeout),
   ("find", find), ("awk", Awk.awk), ("mawk", Awk.awk),
   ("nice", Launcher.plainly
     { plain := "", valued := "n", isOrdered := true, misuseStatus := 125 }),
   ("nohup", Launcher.plainly { isOrdered := true, misuseStatus := 125 }),
   ("setsid", Launcher.plainly { plain := "cfw", isOrdered := true }),
   ("stdbuf", Launcher.plainly { valued := "ioe", isOrdered := true, misuseStatus := 125 })]

/-- The program of a name that starts programs. -/
def launcher? (name : String) : Option Launcher := (launchers.find? fun l => l.1 == name).map (·.2)

/-! ## Ends -/

/-- Ends the script after a failure that nothing has looked at, if it is to end then. -/
def checkFailure (k : Actor) (isTested : Bool) : ShellM Unit := do
  let s ← get
  if s.status != 0 && !isTested then
    if s.dialect = .bash then
      match s.traps.find? fun t => t.1 == "ERR" with
      | some (_, action) =>
        k.text false action
        setStatus s.status
      | none => pure ()
    if s.options.exitOnFailure then throw .exit

/-- Carries out what is to be done when the script ends. An ending of its own replaces the
status. -/
def runExitTrap (k : Actor) : ShellM Unit := do
  let s ← get
  match s.traps.find? fun t => t.1 == "EXIT" with
  | some (_, action) =>
    set { s with traps := s.traps.filter fun t => t.1 != "EXIT", calls := 0, loops := 0 }
    try
      k.text false action
      setStatus s.status
    catch
      | .exit => pure ()
      | .killed process signal => throw (.killed process signal)
      | _ => setStatus s.status
  | none => pure ()

/-- Carries a body out to the end of a shell, with what is to be done then. -/
def toEnd (k : Actor) (body : ShellM Unit) : ShellM Unit := do
  try body
  catch
    | .killed process signal => throw (.killed process signal)
    | _ => pure ()
  runExitTrap k

/-- Performs something in a shell of its own that knows the same. -/
def inSubshell (k : Actor) (body : ShellM Unit) : ShellM Unit :=
  isolated do
    modify fun s => { s with traps := s.traps.filter fun t => t.2.isEmpty, loops := s.loops }
    toEnd k body

/-! ## Texts -/

/-- The complaint about a text that is no script. -/
def SyntaxFault.complaint (f : SyntaxFault) (text : Octets) : ShellM Unit := do
  modify fun s => { s with line := f.line }
  match (← get).dialect with
  | .sh => complain (Octets.ofString ("Syntax error: " ++ f.cause.message))
  | .bash =>
    let line := (Octets.lines text)[f.line - 1]?.getD []
    match f.cause with
    | .unexpected .finish _ => complain (Octets.ofString "syntax error: unexpected end of file")
    | .unexpected found _ =>
      let shown := found.shown.toList.filter (· != '"')
      complain (Octets.told "syntax error near unexpected token \x60" shown "'")
      complain (Octets.told "\x60" line "'")
    | .unterminatedQuote =>
      let quote := if text.contains '"' then ['"'] else ['\'']
      complain (Octets.told "unexpected EOF while looking for matching \x60" quote "'")
    | .missingBrace =>
      complain (Octets.ofString "unexpected EOF while looking for matching \x60\x7d'")
    | _ => complain (Octets.ofString "unexpected EOF while looking for matching \x60)'")

/-- Carries out the commands of a text, one line after the other, with a bound on the lines. The
flag says whether there has been a command. A command that fails in the richer dialect ends only
its line if the text is a whole script. -/
def runLines (k : Actor) (isTested isWhole : Bool) (text : Octets) :
    Nat → Bool → Source → ShellM Unit
  | 0, _, _ => return
  | fuel + 1, hasRun, source => do
    match Source.commandLine.run source with
    | .error fault =>
      fault.complaint text
      setStatus 2
      throw .failed
    | .ok (none, _) => if !hasRun then setStatus 0
    | .ok (some script, after) =>
      if (← get).options.showsInput then
        tell (source.rest.take (source.rest.length - after.rest.length))
      let source := after
      modify fun s => { s with texts := source.texts ++ s.texts, nextText := source.nextText }
      let source := { source with texts := [] }
      match script with
      | .empty => runLines k isTested isWhole text fuel hasRun source
      | script =>
        if !(← get).options.onlyReads then
          try k.run isTested script
          catch
            | .failed =>
              if isWhole && (← get).dialect = .bash then
                modify fun s => { s with atWork := none, frames := [], loops := 0, calls := 0 }
              else throw .failed
            | leave => throw leave
        let source := { source with nextText := (← get).nextText }
        runLines k isTested isWhole text fuel true source

/-- Carries out a text. -/
def runText (k : Actor) (isTested isWhole : Bool) (text : Octets) : ShellM Unit := do
  let s ← get
  let source : Source := { dialect := s.dialect, rest := text, nextText := s.nextText }
  runLines k isTested isWhole text (text.length + 2) false source

/-! ## Shells -/

/-- Where programs are looked up if the environment does not say it. -/
def defaultPath : String := "/usr/local/sbin:/usr/local/bin:/usr/sbin:/usr/bin:/sbin:/bin"

/-- Carries out a text in a new shell, which gets to know the environment only. -/
def runScript (k : Actor) (dialect : Dialect) (options : Options) (name : Octets)
    (arguments : List Octets) (text : Octets) : ShellM Unit := do
  let s ← get
  let process := s.lastProcess + 1
  let known := s.bindings.entries.filterMap fun (name, v) =>
    if v.isExported then
      v.value.map fun value => (name, { value := some value, isExported := true })
    else none
  let bindings : Table Variable := (.ofList known : Table Variable).insert "PPID"
    { value := some (Octets.ofNat s.process) }
  let bindings := (bindings.insert "OPTIND" { value := some ['1'] }).insert "IFS"
    { value := some " \t\n".toList }
  let bindings := bindings.insert "PWD"
    { value := some (Octets.ofString (FileTree.absolute s.files.current)), isExported := true }
  let bindings := if bindings.contains "PATH" then bindings
    else bindings.insert "PATH" { value := some (Octets.ofString defaultPath) }
  let new : State := {
    files := s.files, dialect, name, arguments, bindings, options, streams := s.streams
    descriptors := s.descriptors, texts := s.texts, nextText := s.nextText, process
    ancestors := s.process :: s.ancestors, lastProcess := process }
  isolated do
    set new
    toEnd k (runText k false true text)

/-- The options of a shell that is started, what a text is asked for by, and what follows. -/
structure ShellRequest where
  options : Options := {}
  isText : Bool := false
  rest : List Octets := []

/-- Reads the options of a shell that is started, with a bound on their number. -/
def shellRequest (dialect : Dialect) (name : String) :
    Nat → ShellRequest → ShellM (Option ShellRequest)
  | 0, r => return some r
  | fuel + 1, r => do
    let refuse (shown : Octets) : ShellM (Option ShellRequest) := do
      match dialect with
      | .sh => tell (Octets.ofString s!"{name}: 0: Illegal option " ++ shown ++ ['\n'])
      | .bash =>
        tell (Octets.ofString s!"{name}: " ++ shown ++ Octets.ofString ": invalid option\n")
      setStatus 2
      return none
    let rec letters (isSet : Bool) : Octets → ShellRequest → Except Octets (ShellRequest × Bool)
      | [], r => .ok (r, false)
      | c :: more, r =>
        if c == 'c' then letters isSet more { r with isText := true }
        else if c == 'o' then (letters isSet more r).map fun (r, _) => (r, true)
        else if dialect = .bash && "lrDBHP".toList.contains c then letters isSet more r
        else
          match Part.withOption isSet c r.options with
          | some options => letters isSet more { r with options }
          | none => .error [c]
    match r.rest with
    | ['-', '-'] :: rest | ['-'] :: rest => return some { r with rest }
    | (sign :: c :: more) :: rest =>
      if sign != '-' && sign != '+' then return some r
      let isSet := sign == '-'
      if dialect = .bash && c == '-' then shellRequest dialect name fuel { r with rest }
      else
        match letters isSet (c :: more) { r with rest } with
        | .error shown => refuse (sign :: shown)
        | .ok (r, false) => shellRequest dialect name fuel r
        | .ok (r, true) =>
          match r.rest with
          | option :: rest =>
            let options :=
              if dialect = .bash && option == "pipefail".toList then
                some { r.options with pipesFail := isSet }
              else (Part.optionNames.find? fun o => o.1.toList == option).bind fun o =>
                Part.withOption isSet o.2 r.options
            match options with
            | some options => shellRequest dialect name fuel { r with options, rest }
            | none => refuse (Octets.ofString "-o " ++ option)
          | [] => return some r
    | _ => return some r

def runShell (k : Actor) (dialect : Dialect) (name : String) (arguments : List Octets) :
    ShellM Unit := do
  match ← shellRequest dialect name (arguments.length + 1) { rest := arguments } with
  | none => return
  | some r =>
    if r.isText then
      match r.rest with
      | [] =>
        match dialect with
        | .sh => tell (Octets.ofString s!"{name}: 0: -c requires an argument\n")
        | .bash => tell (Octets.ofString s!"{name}: -c: option requires an argument\n")
        setStatus 2
      | text :: rest =>
        runScript k dialect r.options (rest.headD (Octets.ofString name)) (rest.drop 1) text
    else
      match r.rest with
      | path :: rest =>
        match (← get).files.readBytes (Octets.toText path) with
        | .ok bytes => runScript k dialect r.options path rest (Octets.ofBytes bytes)
        | .error fault =>
          match dialect with
          | .sh =>
            let reason := if fault = .notFound || fault = .notDirectory then "No such file"
              else fault.phrase
            tell (Octets.ofString s!"{name}: 0: cannot open " ++ path ++
              Octets.ofString s!": {reason}\n")
            setStatus 2
          | .bash =>
            tell (Octets.ofString s!"{name}: " ++ path ++ Octets.ofString s!": {fault.phrase}\n")
            setStatus (if fault = .notFound then 127 else 126)
      | [] =>
        let text := ((← get).readable? 0).getD []
        modify fun s => s.skipInput 0 text.length
        runScript k dialect r.options (Octets.ofString name) [] text

/-! ## Programs -/

/-- The directories that hold the programs of the system. -/
def systemDirectories : List String :=
  ["/bin", "/usr/bin", "/sbin", "/usr/sbin", "/usr/local/bin", "/usr/local/sbin"]

/-- The dialect of a shell that can be started by a name. -/
def shellDialect? : String → Option Dialect
  | "sh" | "dash" => some .sh
  | "bash" | "rbash" => some .bash
  | _ => none

/-- Whether a program comes with the system. -/
def isSystemProgram (name : String) : Bool :=
  (shellDialect? name).isSome || (launcher? name).isSome || (Tool.program? name).isSome

def systemName? (path : String) : Option String :=
  ["/bin/", "/usr/bin/"].findSome? fun directory =>
    let name := String.ofList (path.toList.drop directory.length)
    if directory.toList.isPrefixOf path.toList && isSystemProgram name then some name else none

/-- The words of the first line of an executable file that names its interpreter. -/
def interpreter? (content : Octets) : Option (List Octets) :=
  let isBlank (c : Char) : Bool := c == ' ' || c == '\t'
  match content with
  | '#' :: '!' :: rest =>
    let line := (rest.takeWhile (· != '\n')).dropWhile isBlank
    let program := line.takeWhile fun c => !isBlank c
    let argument := (line.drop program.length).dropWhile isBlank
    let argument := (argument.reverse.dropWhile isBlank).reverse
    if program.isEmpty then none
    else some (if argument.isEmpty then [program] else [program, argument])
  | _ => none

/-- Where a name leads. -/
inductive Program where
  | system (name : String)
  | file (path : String)
deriving DecidableEq

/-- Looks a name up in the directories for programs. -/
def locateProgram (s : State) (name : String) : Except FileFault (Program × String) :=
  if name.toList.contains '/' then
    match systemName? name with
    | some system => .ok (.system system, name)
    | none => .ok (.file name, name)
  else
    let path := (s.value? "PATH").getD "/usr/bin".toList
    let directories := (Octets.splitAtEach ':' path).map Octets.toText
    let found := directories.filterMap fun directory =>
      if systemDirectories.contains directory then
        if isSystemProgram name && directory.toList != "/usr/local/bin".toList &&
            directory.toList != "/usr/local/sbin".toList &&
            directory.toList != "/usr/sbin".toList && directory.toList != "/sbin".toList then
          some (Except.ok (Program.system name, directory ++ "/" ++ name))
        else none
      else
        let place := if directory.isEmpty then name else Path.join directory name
        match s.files.find place with
        | .ok (.file _ true) => some (.ok (.file place, place))
        | .ok (.file _ false) => some (.error FileFault.notPermitted)
        | _ => none
    match found.find? fun r => r.toOption.isSome with
    | some r => r
    | none => found.headD (.error (if name.isEmpty then .notPermitted else .notFound))

def runSystem (k : Actor) (system name : String) (arguments : List Octets) : ShellM Unit := do
  match shellDialect? system with
  | some dialect => runShell k dialect name arguments
  | none =>
    match launcher? system with
    | some launcher => launcher k.start name arguments
    | none =>
      match Tool.program? system with
      | some tool => useTool tool name arguments
      | none => setStatus 127

/-- Starts a file that can be executed. -/
def runFile (k : Actor) (path : String) (arguments : List Octets) :
    ShellM (Except FileFault Unit) := do
  match (← get).files.find path with
  | .error fault => return .error fault
  | .ok .directory | .ok (.file _ false) => return .error .notPermitted
  | .ok (.file content true) =>
    let text := Octets.ofBytes content
    match interpreter? text with
    | none | some [] =>
      runScript k .sh {} (Octets.ofString path) arguments text
      return Except.ok ()
    | some (program :: extra) =>
      k.start (Octets.toText program) (extra ++ Octets.ofString path :: arguments)

def startProgram (k : Actor) (name : String) (arguments : List Octets) :
    ShellM (Except FileFault Unit) := do
  match locateProgram (← get) name with
  | .error fault => return .error fault
  | .ok (.system system, _) =>
    runSystem k system name arguments
    return .ok ()
  | .ok (.file path, _) => runFile k path arguments

/-- What a signal that ends a program is called. -/
def signalText : Nat → String
  | 1 => "Hangup"
  | 3 => "Quit"
  | 6 => "Aborted"
  | 9 => "Killed"
  | 10 => "User defined signal 1"
  | 11 => "Segmentation fault"
  | 12 => "User defined signal 2"
  | 14 => "Alarm clock"
  | 15 => "Terminated"
  | n => s!"Signal {toString n}"

/-- Starts a program, and says so if a signal ends it. -/
def startWatched (k : Actor) (name : String) (arguments : List Octets) :
    ShellM (Except FileFault Unit) := do
  try k.start name arguments
  catch
    | .killed target signal =>
      let s ← get
      if target = s.process || s.ancestors.contains target then throw (.killed target signal)
      setStatus (128 + signal)
      if signal != 2 && signal != 13 then tell (Octets.ofString (signalText signal ++ "\n"))
      return .ok ()
    | leave => throw leave

/-- Starts a program for a script, which complains if there is none. -/
def runProgram (k : Actor) (name : Octets) (arguments : List Octets) : ShellM Unit := do
  let before ← get
  match ← startWatched k (Octets.toText name) arguments with
  | .ok () => return
  | .error fault =>
    let isMissing := fault = FileFault.notFound || fault = FileFault.notDirectory
    set { before with status := if isMissing || name.isEmpty then 127 else 126 }
    let isPath := name.contains '/'
    match before.dialect with
    | .sh =>
      let reason := if isMissing then "not found" else fault.phrase
      complain (name ++ Octets.ofString s!": {reason}")
    | .bash =>
      let isDirectory := before.files.isDirectory (Octets.toText name)
      let reason :=
        if !isPath then (if fault = .notPermitted then fault.phrase else "command not found")
        else if isDirectory then "Is a directory"
        else fault.phrase
      complain (name ++ Octets.ofString s!": {reason}")

/-! ## Parts that carry something out -/

/-- The names of the parts of the shell that are no tools. -/
def partNames (dialect : Dialect) : List String :=
  specialParts ++ ["cd", "pwd", "read", "umask", "true", "false", "wait", "kill", "type", "command",
    "getopts", "hash", "alias", "unalias", "jobs", "ulimit", "bg", "fg", "chdir"] ++
  (if dialect = .bash then ["declare", "typeset", "source", "let", "shopt", "mapfile", "readarray",
    "builtin", "enable", "pushd", "popd", "dirs", "help", "disown", "logout"] else [])

def isPart (dialect : Dialect) (name : String) : Bool :=
  (partNames dialect).contains name || (Tool.part? (dialect = .bash) name).isSome

def sendSignal (k : Actor) (signal : Nat) (target : Octets) : ShellM Unit := do
  let s ← get
  let isNumber := !target.isEmpty && target.all Char.isDigit
  let process := Octets.digitsValue target
  if !isNumber then
    match s.dialect with
    | .sh => fail (Octets.ofString "Illegal number: " ++ target)
    | .bash =>
      complain (target ++ Octets.ofString ": arguments must be process or job IDs")
      setStatus 1
  else if process = s.process then
    let name := ((Part.signals.find? fun entry => entry.2 == signal).map (·.1)).getD ""
    match s.traps.find? fun t => t.1 == name with
    | some (_, action) =>
      if signal = 9 || signal = 19 then throw (.killed process signal)
      else
        setStatus 0
        k.text false action
        setStatus 0
    | none => if signal != 0 && signal != 17 && signal != 18 then throw (.killed process signal)
  else if s.ancestors.contains process then
    if signal != 0 then throw (.killed process signal)
  else
    match s.dialect with
    | .sh => tell (s.place ++ Octets.ofString "No such process\n\n")
    | .bash => complain (Octets.told "(" target ") - No such process")
    setStatus 1

def kill (k : Actor) (arguments : List Octets) : ShellM Unit := do
  setStatus 0
  let usage : ShellM Unit := do
    match (← get).dialect with
    | .sh =>
      fail (Octets.ofString ("Usage: kill [-s sigspec | -signum | -sigspec] [pid | job]... or\n" ++
        "kill -l [exitstatus]"))
    | .bash =>
      tell (Octets.ofString ("kill: usage: kill [-s sigspec | -n signum | -sigspec] " ++
        "pid | jobspec ... or kill -l [sigspec]\n"))
      setStatus 2
  let number (o : Octets) : ShellM Nat := do
    if !o.isEmpty && o.all Char.isDigit then return Octets.digitsValue o
    else
      let known (name : String) := Part.signals.find? fun entry => entry.1 == name
      match (Part.signalName? o).bind known with
      | some (_, n) => return n
      | none =>
        match (← get).dialect with
        | .sh => fail (Octets.ofString "invalid signal number or name: " ++ o)
        | .bash => fail (o ++ Octets.ofString ": invalid signal specification")
  match arguments with
  | [] => usage
  | ['-', 'l'] :: rest =>
    match rest with
    | n :: _ =>
      if !n.all Char.isDigit then fail (Octets.ofString "Illegal number: " ++ n)
      let code := Octets.digitsValue n
      let code := if 128 < code then code - 128 else code
      match Part.signals.find? fun entry => entry.2 == code with
      | some (name, _) => print (Octets.ofString (name ++ "\n"))
      | none => fail (Octets.ofString "invalid signal number or exit status: " ++ n)
    | [] =>
      for (name, _) in Part.signals do print (Octets.ofString (name ++ "\n"))
  | ['-', 's'] :: name :: targets | ['-', 'n'] :: name :: targets =>
    let signal ← number name
    for target in targets do sendSignal k signal target
  | ['-', '-'] :: targets =>
    for target in targets do sendSignal k 15 target
  | ('-' :: name) :: targets =>
    let signal ← number name
    if targets.isEmpty then usage
    for target in targets do sendSignal k signal target
  | targets =>
    for target in targets do sendSignal k 15 target

/-- Says what names stand for. -/
def describe (isBrief : Bool) (name : Octets) : ShellM Unit := do
  let s ← get
  let text := Octets.toText name
  let say (brief verbose : Octets) : ShellM Unit := do
    print ((if isBrief then brief else verbose) ++ ['\n'])
    setStatus 0
  let isReserved := reservedWords.contains text ||
    (s.dialect = .bash && ["[[", "]]", "function", "time", "select"].contains text)
  if isReserved then say name (name ++ Octets.ofString " is a shell keyword")
  else if s.functions.any fun f => f.1 == name then
    let kind := if s.dialect = .sh then " is a shell function" else " is a function"
    say name (name ++ Octets.ofString kind)
  else if isPart s.dialect text then
    let isSpecial := s.dialect = .sh && specialParts.contains text
    say name (name ++ Octets.ofString
      (if isSpecial then " is a special shell builtin" else " is a shell builtin"))
  else
    let found : Option String :=
      match locateProgram s text with
      | .ok (.system _, path) => some path
      | .ok (.file path, shown) =>
        match s.files.find path with
        | .ok (.file _ true) => some shown
        | _ => none
      | .error _ => none
    match found with
    | some path => say (Octets.ofString path) (name ++ Octets.ofString s!" is {path}")
    | none =>
      if !isBrief then
        match s.dialect with
        | .sh => print (name ++ Octets.ofString ": not found\n")
        | .bash => complain (name ++ Octets.ofString ": not found")
      setStatus (if s.dialect = .sh then 127 else 1)

/-- Carries out another file as if it stood here. -/
def source (k : Actor) (arguments : List Octets) : ShellM Unit := do
  match arguments with
  | [] =>
    match (← get).dialect with
    | .sh => setStatus 0
    | .bash => fail (Octets.ofString "filename argument required")
  | path :: rest =>
    let s ← get
    let text := Octets.toText path
    let place ← if path.contains '/' then pure text
      else
        let directories := (Octets.splitAtEach ':' (s.value "PATH")).map Octets.toText
        let places := directories.map fun d => if d.isEmpty then text else Path.join d text
        match places.find? s.files.isFile with
        | some place => pure place
        | none =>
          if s.dialect = .bash && s.files.isFile text then pure text
          else if s.dialect = .bash then
            fail (path ++ Octets.ofString ": No such file or directory")
          else fail (path ++ Octets.ofString ": not found")
    match s.files.readBytes place with
    | .error fault =>
      match s.dialect with
      | .sh =>
        let reason :=
          if fault = .notFound || fault = .notDirectory then "No such file" else fault.phrase
        fail (Octets.told "cannot open " path s!": {reason}")
      | .bash => fail (path ++ Octets.ofString s!": {fault.phrase}")
    | .ok bytes =>
      let arguments := s.arguments
      let before := s.atWork
      modify fun s => { s with
        atWork := if s.dialect = .sh then some (Octets.ofString place) else none
        calls := s.calls + 1
        arguments := if rest.isEmpty || s.dialect = .sh then s.arguments else rest }
      let restore : ShellM Unit := modify fun s => { s with
        atWork := before, calls := s.calls - 1
        arguments := if rest.isEmpty || s.dialect = .sh then s.arguments else arguments }
      try runText k false false (Octets.ofBytes bytes)
      catch
        | .returned => pure ()
        | leave =>
          restore
          throw leave
      restore

/-- Waits for commands that have been sent to the background, which have come to their ends. -/
def wait (arguments : List Octets) : ShellM Unit := do
  let s ← get
  match arguments with
  | [] => setStatus 0
  | a :: _ =>
    let isLast := a == Octets.ofNat (s.process + 100 + s.jobCount) && s.jobCount != 0
    setStatus (if isLast then s.job.getD 0 else 127)

def replaceShell (k : Actor) (arguments : List Octets) : ShellM Unit := do
  setStatus 0
  let arguments := match arguments with
    | ['-', '-'] :: rest => rest
    | arguments => arguments
  match arguments with
  | [] => pure ()
  | program :: rest =>
    modify fun s => { s with traps := [] }
    runProgram k program rest
    throw .exit

/-- Prints by a format into a variable, or as usual. -/
def printFormatted (name : String) (tool : Tool) (arguments : List Octets) : ShellM Unit := do
  match arguments with
  | ['-', 'v'] :: target :: rest =>
    let text ← captured (usePart tool name rest)
    assign (Octets.toText target) text
  | arguments => usePart tool name arguments

/-- Sets or shows an option of the richer dialect, none of which matters here. -/
def toggle : ShellM Unit := setStatus 0

def part? (k : Actor) (isTested : Bool) (dialect : Dialect) (name : String)
    (arguments : List Octets) : Option (ShellM Unit) :=
  let common : Option (ShellM Unit) :=
    match name with
    | ":" | "true" | "hash" | "alias" | "unalias" | "jobs" | "bg" | "fg" => some (setStatus 0)
    | "false" => some (setStatus 1)
    | "times" => some do
      print (Octets.ofString "0m0.00s 0m0.00s\n0m0.00s 0m0.00s\n")
      setStatus 0
    | "umask" => some do
      if arguments.isEmpty then print (Octets.ofString "0022\n")
      setStatus 0
    | "ulimit" => some do
      print (Octets.ofString "unlimited\n")
      setStatus 0
    | "exit" => some do
      setStatus (← Part.statusArgument arguments)
      throw .exit
    | "return" => some do
      let s ← get
      if s.dialect = .bash && s.calls = 0 then
        complain (Octets.ofString "can only \x60return' from a function or sourced script")
        setStatus 1
      else
        setStatus (← Part.statusArgument arguments)
        throw .returned
    | "trap" => some (Part.trap arguments)
    | "break" => some (Part.leaveLoops .broken arguments)
    | "continue" => some (Part.leaveLoops .continued arguments)
    | "shift" => some (Part.shift arguments)
    | "set" => some (Part.set arguments)
    | "export" => some (Part.mark "export" (fun v => { v with isExported := true })
        (fun v => v.isExported) arguments)
    | "readonly" => some (Part.mark "readonly" (fun v => { v with isReadonly := true })
        (fun v => v.isReadonly) arguments)
    | "local" => some (Part.localize arguments)
    | "unset" => some (Part.unset arguments)
    | "read" => some (Part.read arguments)
    | "kill" => some (kill k arguments)
    | "cd" | "chdir" => some (Part.changeDirectory arguments)
    | "pwd" => some Part.whereabouts
    | "getopts" => some (Part.nextOption arguments)
    | "wait" => some (wait arguments)
    | "type" => some do
      setStatus 0
      let mut status := 0
      for a in arguments do
        describe false a
        if (← get).status != 0 then status := (← get).status
      setStatus status
    | "eval" => some do
      let text := [' '].intercalate arguments
      let line := (← get).line
      runText k isTested false text
      modify fun s => { s with line }
    | "." => some (source k arguments)
    | "exec" => some (replaceShell k arguments)
    | "printf" =>
      (Tool.part? (dialect = .bash) name).map fun tool =>
        if dialect = .bash then printFormatted name tool arguments
        else usePart tool name arguments
    | _ => (Tool.part? (dialect = .bash) name).map fun tool => usePart tool name arguments
  let rich : Option (ShellM Unit) :=
    match name with
    | "declare" | "typeset" => some (Part.declare arguments)
    | "source" => some (source k arguments)
    | "let" => some (Part.evaluateAll arguments)
    | "shopt" | "enable" | "disown" => some toggle
    | "mapfile" | "readarray" => some (Part.readLines arguments)
    | _ => none
  if dialect = .bash then rich <|> common else common

/-- Carries out a part of the shell. A failure of a special one ends the script. -/
def runPart (name : String) (isStrict : Bool) (body : ShellM Unit) : ShellM Unit := do
  let before := (← get).atWork
  let restore : ShellM Unit := modify fun s => { s with atWork := before }
  modify fun s =>
    let isSilent := s.dialect = .bash && (name == "eval" || name == "." || name == "source")
    { s with atWork := if isSilent then before else some (Octets.ofString name) }
  try body
  catch
    | .failed =>
      restore
      if isStrict then throw .failed
    | leave =>
      restore
      throw leave
  restore

/-! ## Commands -/

/-- The most functions of the standard dialect that may be open. -/
def maxCalls : Nat := 1000

def callFunction (k : Actor) (isTested : Bool) (body : Script) (arguments : List Octets) :
    ShellM Unit := do
  let before ← get
  if before.dialect = .sh && maxCalls ≤ before.frames.length then
    fail (Octets.ofString s!"Maximum function recursion depth ({toString maxCalls}) reached")
  let restore : ShellM Unit := modify fun s =>
    let bindings := (s.frames.headD []).foldl (fun bindings (name, v) =>
      match v with
      | some v => bindings.insert name v
      | none => bindings.erase name) s.bindings
    { s with
      bindings, frames := s.frames.drop 1, arguments := before.arguments
      loops := before.loops, calls := before.calls }
  set { before with
    arguments, loops := 0, calls := before.calls + 1, frames := [] :: before.frames,
    status := before.status }
  try k.run isTested body
  catch
    | .returned => pure ()
    | leave =>
      restore
      throw leave
  restore

/-- Carries out a command with its fields. -/
def runFields (k : Actor) (isTested canBeFunction isStrict : Bool) (name : Octets)
    (arguments : List Octets) : ShellM Unit := do
  let s ← get
  let text := Octets.toText name
  match if canBeFunction then s.functions.find? fun f => f.1 == name else none with
  | some (_, body) => callFunction k isTested body arguments
  | none =>
    match part? k isTested s.dialect text arguments with
    | some body =>
      let isSpecial := s.dialect = .sh && specialParts.contains text
      runPart text (isStrict && isSpecial) body
    | none => runProgram k name arguments

/-- Carries out a command whose name stands behind `command`. -/
def runCommandPart (k : Actor) (isTested : Bool) (arguments : List Octets) : ShellM Unit := do
  setStatus 0
  match arguments with
  | ['-', 'v'] :: name :: _ => describe true name
  | ['-', 'V'] :: name :: _ => describe false name
  | ['-', 'p'] :: name :: rest | ['-', '-'] :: name :: rest =>
    runFields k isTested false false name rest
  | name :: rest => runFields k isTested false false name rest
  | [] => pure ()

def tracedField (dialect : Dialect) (o : Octets) : Octets :=
  match dialect with
  | .sh => o
  | .bash =>
    let isPlain (c : Char) : Bool := c.isAlphanum || "_-./:=@%+,".toList.contains c
    if !o.isEmpty && o.all isPlain then o else Part.requoted o

/-- Writes a command before it is carried out, if that is asked for. -/
def trace (assigned : List (String × Octets)) (fields : List Octets)
    (descriptors : List (Nat × Nat)) : ShellM Unit := do
  let s ← get
  if s.options.tracesCommands then
    let sign := (s.value? "PS4").getD "+ ".toList
    let values := assigned.map fun (name, value) =>
      Octets.ofString name ++ '=' :: tracedField s.dialect value
    let shown := fields.map (tracedField s.dialect)
    let lines := match s.dialect with
      | .sh => [values ++ shown]
      | .bash => values.map (fun v => [v]) ++ (if shown.isEmpty then [] else [shown])
    set { s with descriptors }
    for line in lines do tell (sign ++ [' '].intercalate line ++ ['\n'])
    modify fun t => { t with descriptors := s.descriptors }

/-- The fields of a command. The arguments of some parts of the shell are assignments, whose values
are not cut. -/
def commandFields (run : Runner) (words : List Word) : ShellM (List Octets) := do
  let dialect := (← get).dialect
  let rec go : List Word → List Octets → ShellM (List Octets)
    | [], fields => return fields
    | w :: rest, fields => do
      let isDeclaring := fields.head?.any fun name => declaringParts.contains (Octets.toText name)
      match if isDeclaring then Source.assignment? dialect w else none with
      | some (.single name .none _ value) =>
        let text ← expandWhole run value
        go rest (fields ++ [Octets.ofString name ++ '=' :: text])
      | _ => go rest (fields ++ (← expandFields run w))
  go words []

def assignmentValue (run : Runner) : Assignment → ShellM (Option (String × Octets))
  | .single name .none isAdded value => do
    let text ← expandWhole run value
    let s ← get
    let before := if isAdded then s.value name else []
    return some (name, before ++ text)
  | _ => return none

def performAssignment (run : Runner) (a : Assignment) : ShellM Unit := do
  let key (name : String) (w : Word) : ShellM Octets := do
    let s ← get
    if ((s.bindings.get? name).any fun v => v.isKeyed) then expandWhole run w
    else
      let n ← numberOf (← expandWhole run w)
      let last := ((s.elements name).getLast?.map fun x => Octets.digitsValue x.1 + 1).getD 0
      return Octets.ofInt (if n < 0 then n + last else n)
  match a with
  | .single name .none _ _ =>
    match ← assignmentValue run a with
    | some (_, text) => assign name text
    | none => pure ()
  | .single name (.position w) isAdded value =>
    let place ← key name w
    let text ← expandWhole run value
    let s ← get
    let before := (s.elements name).find? fun x => x.1 == place
    assignElement name place ((if isAdded then (before.map (·.2)).getD [] else []) ++ text)
  | .single _ _ _ _ => pure ()
  | .list name isAdded values =>
    let s ← get
    let isKeyed := (s.bindings.get? name).any fun v => v.isKeyed
    let start := if isAdded then
        ((s.elements name).getLast?.map fun x => Octets.digitsValue x.1 + 1).getD 0 else 0
    changeVariable name fun v => { v with
      value := none, elements := some (if isAdded then s.elements name else []) }
    let mut next := start
    for w in values do
      let keyed : Option (Word × Word) :=
        match w with
        | .plain ('[' :: o) :: rest =>
          (Source.subscript? [] (.plain o :: rest)).map fun (position, _, value) =>
            (position, value)
        | _ => none
      match keyed with
      | some (position, value) =>
        let place ← if isKeyed then expandWhole run position else key name position
        assignElement name place (← expandWhole run value)
        next := Octets.digitsValue place + 1
      | none =>
        for field in ← expandFields run w do
          assignElement name (Octets.ofNat next) field
          next := next + 1

/-- Performs something while variables have other values, which programs get to know. -/
def withVariables (values : List (String × Octets)) (body : ShellM Unit) : ShellM Unit := do
  if values.isEmpty then body
  else
    let before := (← get).bindings
    for (name, value) in values do
      assign name value
      modify fun s =>
        let v := (s.bindings.get? name).getD {}
        { s with bindings := s.bindings.insert name { v with isExported := true } }
    let restore : ShellM Unit := modify fun s =>
      { s with bindings := values.foldl (fun bindings (name, _) =>
          match before.get? name with
          | some v => bindings.insert name v
          | none => bindings.erase name) s.bindings }
    try body
    catch leave =>
      restore
      throw leave
    restore

/-- Carries out a command that consists of words. -/
def runSimple (k : Actor) (isTested : Bool) (line : Nat) (assignments : List Assignment)
    (words : List Word) (redirections : List Redirection) : ShellM Unit := do
  let run := k.run false
  modify fun s => { s with line, substituted := 0 }
  let fields ← commandFields run words
  modify fun s => { s with line }
  let s ← get
  let descriptors := s.descriptors
  match fields with
  | [] =>
    redirecting run redirections false
      (do
        let mut values : List (String × Octets) := []
        for a in assignments do
          match ← assignmentValue run a with
          | some (name, value) =>
            assign name value
            values := values ++ [(name, value)]
          | none => performAssignment run a
        trace values [] descriptors
        setStatus (← get).substituted)
      (pure ())
  | name :: arguments =>
    let text := Octets.toText name
    let isFunction := s.functions.any fun f => f.1 == name
    let isSpecial := s.dialect = .sh && !isFunction && specialParts.contains text
    let isLasting := text == "exec" && !isFunction && arguments.isEmpty
    redirecting run redirections isLasting
      (do
        let mut values : List (String × Octets) := []
        if !isDeclaringCommand text then
          for a in assignments do
            match ← assignmentValue run a with
            | some value => values := values ++ [value]
            | none => performAssignment run a
        trace values fields descriptors
        let body : ShellM Unit :=
          if text == "command" && !isFunction then
            runPart text false (runCommandPart k isTested arguments)
          else if text == "builtin" && !isFunction && s.dialect = .bash then
            runFields k isTested false false (arguments.headD []) (arguments.drop 1)
          else runFields k isTested true true name arguments
        if isSpecial then
          for (variable_, value) in values do assign variable_ value
          body
        else withVariables values body
        if isDeclaringCommand text then
          let status := (← get).status
          for a in assignments do performAssignment run a
          setStatus status)
      (if isSpecial then throw .failed else pure ())
where
  /-- Whether lists behind the words are values of the variables that the words declare. -/
  isDeclaringCommand (name : String) : Bool := declaringParts.contains name

/-! ## Loops and choices -/

/-- How a round of a loop ends: by itself with a result, by going on with the next round, or by
leaving the loop. -/
inductive Round where
  | ended (result : Bool)
  | next
  | left
deriving DecidableEq

/-- Carries out a round of a loop. -/
def inLoop (body : ShellM Bool) : ShellM Round := do
  try return .ended (← body)
  catch
    | .broken n => if n ≤ 1 then return .left else throw (.broken (n - 1))
    | .continued n => if n ≤ 1 then return .next else throw (.continued (n - 1))
    | leave => throw leave

/-- Performs something with one more loop open. -/
def withLoop (body : ShellM Unit) : ShellM Unit := do
  let loops := (← get).loops
  modify fun s => { s with loops := loops + 1 }
  try body
  catch leave =>
    modify fun s => { s with loops }
    throw leave
  modify fun s => { s with loops }

/-- The most rounds of a loop. -/
def maxRounds : Nat := 10000000

/-- Repeats a body and a step after it while a condition holds. The status is that of the last
round. The numbers are a bound on the rounds and the status so far. -/
def repeatWhile (condition : ShellM Bool) (body step : ShellM Unit) : Nat → Nat → ShellM Unit
  | 0, _ => throw .exit
  | fuel + 1, result => do
    match ← inLoop condition with
    | .next => repeatWhile condition body step fuel result
    | .left | .ended false => setStatus result
    | .ended true =>
      let round ← inLoop do
        body
        return true
      if round = .left then return
      let result := (← get).status
      step
      repeatWhile condition body step fuel result

/-- Repeats a body for each of some values. -/
def repeatFor (name : String) (body : ShellM Unit) : List Octets → ShellM Unit
  | [] => return
  | value :: rest => do
    assign name value
    let round ← inLoop do
      body
      return true
    if round = .left then return else repeatFor name body rest

/-- Carries out the first choice that fits a text. -/
def runCases (k : Actor) (isTested : Bool) (text : Octets) :
    List (List (List Piece) × Script) → ShellM Unit
  | [] => setStatus 0
  | (patterns, body) :: rest => do
    let rec fits : List (List Piece) → ShellM Bool
      | [] => return false
      | pattern :: others => do
        let marks ← expandPattern (k.run false) pattern
        if Glob.fitsMarks marks text then return true else fits others
    if ← fits patterns then
      match body with
      | .empty => setStatus 0
      | body => k.run isTested body
    else runCases k isTested text rest

/-! ## Pipes -/

/-- Carries out the commands of a pipe, each with the output of the one before it as its input.
The result lists their statuses. -/
def runStages (k : Actor) : Option Octets → List Script → ShellM (List Nat)
  | _, [] => return []
  | input, stage :: rest => do
    let before := (← get).status
    let body : ShellM Unit := isolated do
      match input with
      | some text => connectTo 0 (.supplied text)
      | none => pure ()
      inSubshell k (k.run false stage)
    match rest with
    | [] =>
      body
      return [(← get).status]
    | rest =>
      let text ← captured body
      let status := (← get).status
      setStatus before
      return status :: (← runStages k (some text) rest)

/-- Carries out a pipe. Its status is that of its last command, or of the last one that fails. -/
def runPipe (k : Actor) (stages : List Script) : ShellM Unit := do
  let statuses ← runStages k none stages
  let s ← get
  let last := statuses.getLast?.getD 0
  let failed := (statuses.reverse.find? (· != 0)).getD 0
  set { s with pipeStatuses := statuses, status := if s.options.pipesFail then failed else last }

/-! ## Conditions -/

/-- Whether a variable is set. -/
def isSet (s : State) (name : Octets) : Bool :=
  let text := Octets.toText name
  (s.parameter? text).isSome || !(s.elements text).isEmpty

/-- Decides a condition between double brackets. -/
def holds (run : Runner) : Condition → ShellM Bool
  | .word w => do return !(← expandWhole run w).isEmpty
  | .unary operator w => do
    let text ← expandWhole run w
    let s ← get
    match operator with
    | "-v" => return isSet s text
    | "-o" => return false
    | "-t" => return false
    | operator => return Tool.unaryTest { files := s.files, isRich := true } operator text
  | .negation c => return !(← holds run c)
  | .both a b => do if ← holds run a then holds run b else return false
  | .either a b => do if ← holds run a then return true else holds run b
  | .binary operator a b => do
    let left ← expandWhole run a
    let pattern (w : Word) : ShellM Bool := do
      return Glob.fitsMarks (← expandPattern run w) left
    let numbers (p : Int → Int → Bool) : ShellM Bool := do
      let m ← numberOf left
      let n ← numberOf (← expandWhole run b)
      return p m n
    match operator with
    | "=" | "==" => pattern b
    | "!=" => return !(← pattern b)
    | "-eq" => numbers fun m n => m == n
    | "-ne" => numbers fun m n => m != n
    | "-lt" => numbers fun m n => decide (m < n)
    | "-le" => numbers fun m n => decide (m ≤ n)
    | "-gt" => numbers fun m n => decide (m > n)
    | "-ge" => numbers fun m n => decide (m ≥ n)
    | "=~" =>
      let marks ← expandPattern run b
      let text := marks.flatMap fun (c, isQuoted) =>
        if isQuoted && !c.isAlphanum && ".[]()*+?^$|\\\x7b\x7d".toList.contains c then ['\\', c]
        else [c]
      match Regex.read { isExtended := true, isLenient := true } text with
      | .error _ =>
        setStatus 2
        return false
      | .ok (regex, count) =>
        match regex.find? {} left with
        | some found =>
          let groups := (List.range (count + 1)).map fun n =>
            (Octets.ofNat n, (found.group? n).getD [])
          changeVariable "BASH_REMATCH" fun v => { v with value := none, elements := some groups }
          return true
        | none => return false
    | operator =>
      let right ← expandWhole run b
      match Tool.binaryTest { files := (← get).files, isRich := true } operator left right with
      | .ok answer => return answer
      | .error _ => return false

/-! ## All scripts -/

/-- Carries out a script, with what carries out those inside it. -/
def runStep (k : Actor) (isTested : Bool) : Script → ShellM Unit
  | .empty => return
  | .command line assignments words redirections => do
    try runSimple k isTested line assignments words redirections
    catch leave =>
      modify fun s => { s with pipeStatuses := [s.status] }
      throw leave
    modify fun s => { s with pipeStatuses := [s.status] }
    checkFailure k isTested
  | .sequence a b => do
    k.run isTested a
    k.run isTested b
  | .background line a => do
    modify fun s => { s with line }
    isolated do
      connectTo 0 .null
      inSubshell k (k.run false a)
    modify fun s => { s with job := some s.status, jobCount := s.jobCount + 1, status := 0 }
    checkFailure k isTested
  | .both a b => do
    k.run true a
    if (← get).status = 0 then k.run isTested b
  | .either a b => do
    k.run true a
    if (← get).status != 0 then k.run isTested b
  | .negation a => do
    k.run true a
    modify fun s => { s with status := if s.status = 0 then 1 else 0 }
  | .pipe stages => do
    runPipe k stages
    checkFailure k isTested
  | .conditional condition yes no => do
    k.run true condition
    if (← get).status = 0 then k.run isTested yes
    else
      setStatus 0
      k.run isTested no
  | .loop isUntil condition body => withLoop do
    let goesOn : ShellM Bool := do
      k.run true condition
      return ((← get).status == 0) != isUntil
    repeatWhile goesOn (k.run isTested body) (pure ()) maxRounds 0
  | .each line name words body => do
    modify fun s => { s with line }
    let values ← match words with
      | some words => words.flatMapM (expandFields (k.run false))
      | none => do pure (← get).arguments
    setStatus 0
    withLoop (repeatFor name (k.run isTested body) values)
  | .cases line word arms => do
    modify fun s => { s with line }
    runCases k isTested (← expandWhole (k.run false) word) arms
  | .subshell line a redirections => do
    modify fun s => { s with line }
    redirecting (k.run false) redirections false (inSubshell k (k.run isTested a)) (pure ())
    checkFailure k isTested
  | .define name body => do
    modify fun s => { s with
      functions := (name, body) :: s.functions.filter fun f => f.1 != name, status := 0 }
  | .redirected line a redirections => do
    modify fun s => { s with line }
    redirecting (k.run false) redirections false (k.run isTested a) (pure ())
  | .number line expression => do
    modify fun s => { s with line }
    let n ← numberOf (← expandWhole (k.run false) expression)
    setStatus (if n != 0 then 0 else 1)
    checkFailure k isTested
  | .counted line start condition step body => do
    modify fun s => { s with line }
    let run := k.run false
    let number (w : Word) : ShellM Int := do
      let text ← expandWhole run w
      -- No expression at all stands for a number that is not zero.
      if text.all Octets.isSpace then return 1 else numberOf text
    let advance : ShellM Unit := do
      let _ ← number step
    let goesOn : ShellM Bool := do
      return (← number condition) != 0
    let _ ← number start
    withLoop (repeatWhile goesOn (k.run isTested body) advance maxRounds 0)
  | .condition line c => do
    modify fun s => { s with line }
    setStatus 0
    let answer ← holds (k.run false) c
    if (← get).status != 2 then setStatus (if answer then 0 else 1)
    checkFailure k isTested

/-- What carries scripts out and starts programs, down to a depth. A script that goes deeper is
ended as by a fault of the memory. -/
def actor : Nat → Actor
  | 0 =>
    let giveUp {α : Type} : ShellM α := do throw (.killed (← get).process 11)
    { run := fun _ _ => giveUp, text := fun _ _ => giveUp, start := fun _ _ => giveUp }
  | depth + 1 => {
      run := fun isTested script => runStep (actor depth) isTested script
      text := fun isTested text => runText (actor depth) isTested false text
      start := fun name arguments => startProgram (actor depth) name arguments }

end Sweep.Shell
