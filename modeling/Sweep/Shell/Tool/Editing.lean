import Sweep.Shell.Tool.Editing.Script
import Sweep.Shell.Tool.Lines

/-!
# Editing lines

`sed` reads the lines of its sources one after the other into a space, carries the commands of a
script out on it, and prints it. A second space keeps text from one line to the next.
-/

namespace Sweep.Tool.Editing

/-- Whether a command is within its range of lines. -/
inductive RangeState where
  | outside
  /-- Inside, up to a line if it is known. -/
  | inside (last : Option Nat)
deriving Inhabited

/-- What is printed after a line. -/
inductive Queued where
  | text (o : Octets)
  | file (path : Octets)

/-- A text that is written, and whether its last line still needs an end. -/
structure Sink where
  written : List Octets := []
  lacksEnd : Bool := false

def Sink.add (s : Sink) (o : Octets) (hasEnd : Bool) (finish : Char) : Sink :=
  let before := if s.lacksEnd then [[finish]] else []
  { written := (if hasEnd then o ++ [finish] else o) :: before ++ s.written, lacksEnd := !hasEnd }

def Sink.text (s : Sink) : Octets := s.written.reverse.flatten

structure EditState where
  space : Octets := []
  /-- Whether the line in the space ended with a line feed. -/
  hasEnd : Bool := true
  hold : Octets := []
  number : Nat := 0
  isReplaced : Bool := false
  queue : List Queued := []
  ranges : Array RangeState
  /-- The lines that have not been read, with the names of their sources. -/
  input : List (Octets × Octets)
  source : Octets := ['-']
  output : Sink := {}
  files : List (Octets × Sink) := []
  /-- What is left of the files that are read line by line. -/
  readers : List (Octets × List Octets) := []
  lastRegex : Option Pattern := none
  status : Nat := 0

/-- How the script is carried out. -/
structure EditRules where
  isSilent : Bool := false
  finish : Char := '\n'
  width : Nat := 70

inductive CycleEnd where
  /-- The space is printed, unless that is forbidden. -/
  | normal
  | deleted
  /-- The script starts again without another line. -/
  | again
  | quit (isSilent : Bool)
deriving DecidableEq

abbrev RunM := StateT EditState ToolM

def emit (r : EditRules) (o : Octets) (hasEnd : Bool) : RunM Unit :=
  modify fun s => { s with output := s.output.add o hasEnd r.finish }

/-- Writes a text to a file of the script. -/
def emitTo (r : EditRules) (path : Octets) (o : Octets) (hasEnd : Bool) : RunM Unit := do
  match Octets.toText path with
  | "/dev/stdout" => emit r o hasEnd
  | "/dev/stderr" => liftM (m := ToolM) (Tool.tell (o ++ ['\n']))
  | _ => modify fun s => { s with files := s.files.map fun (name, sink) =>
      if name == path then (name, sink.add o hasEnd r.finish) else (name, sink) }

/-- The next line of the input becomes the space, or is added to it; false if there is none. -/
def readLine (r : EditRules) (isAdded : Bool) : RunM Bool := do
  let s ← get
  match s.input with
  | [] => return false
  | (source, line) :: rest =>
    let hasEnd := line.getLast? == some r.finish
    let text := if hasEnd then line.dropLast else line
    set { s with
      input := rest, source, hasEnd, number := s.number + 1
      space := if isAdded then s.space ++ r.finish :: text else text }
    return true

/-- Prints what has been queued. -/
def flushQueue (r : EditRules) : RunM Unit := do
  let s ← get
  set { s with queue := [] }
  for q in s.queue do
    let text ← match q with
      | .text o => pure o
      | .file path =>
        let found ← liftM (m := ToolM) (Tool.readPath path)
        pure (match found with
          | .ok text => text
          | .error _ => [])
    if !text.isEmpty then
      modify fun s =>
        let before := if s.output.lacksEnd then [[r.finish]] else []
        { s with output := { written := text :: before ++ s.output.written, lacksEnd := false } }

/-- The pattern that is meant: the given one, or the last one that was used. -/
def regexOf (c : ToolCall) (p : Pattern) : RunM (Regex × Regex.Matching) := do
  match p.regex with
  | some regex =>
    modify fun s => { s with lastRegex := some p }
    return (regex, p.matching)
  | none =>
    match (← get).lastRegex with
    | some { regex := some regex, matching, .. } => return (regex, matching)
    | _ =>
      let fault := Octets.ofString "-e expression #1, char 0: no previous regular expression"
      liftM (m := ToolM) (c.fail 1 fault)

/-- Whether an address means the line in the space. -/
def fits (c : ToolCall) (a : Address) : RunM Bool := do
  let s ← get
  match a with
  | .line n => return s.number = n
  | .last => return s.input.isEmpty
  | .steps first step =>
    return if step = 0 then s.number = first else first ≤ s.number && (s.number - first) % step = 0
  | .matching p =>
    let (regex, m) ← regexOf c p
    return regex.isMatch m (← get).space
  | .further _ | .multiple _ => return false

/-- The line at which a range ends, if that is known when it begins. -/
def rangeEnd (number : Nat) : Address → Option Nat
  | .line n => some n
  | .further n => some (number + n)
  | .multiple n => some (if n = 0 then number else (number / n + 1) * n)
  | _ => none

/-- Whether a command is meant for the line in the space. -/
def selects (c : ToolCall) (i : Nat) (command : EditCommand) : RunM Bool := do
  match command.first, command.second with
  | none, _ => return true
  | some a, none => fits c a
  | some a, some b =>
    let s ← get
    let setRange (x : RangeState) : RunM Unit :=
      modify fun s => { s with ranges := s.ranges.setIfInBounds i x }
    let atEnd (last : Option Nat) : RunM Bool := do
      match last with
      | some n =>
        if n ≤ s.number then setRange .outside
        return s.number ≤ n
      | none =>
        if ← fits c b then setRange .outside
        return true
    match (s.ranges[i]?).getD .outside with
    | .inside last =>
      if ← atEnd last then return true
      -- A range that ended before this line may begin again with it.
      match a with
      | .line _ => return false
      | _ =>
        if ← fits c a then
          begin s.number b setRange
          return true
        else return false
    | .outside =>
      if ← fits c a then
        begin s.number b setRange
        return true
      else return false
where
  begin (number : Nat) (b : Address) (setRange : RangeState → RunM Unit) : RunM Unit := do
    match rangeEnd number b with
    | some n => if number < n then setRange (.inside (some n))
    | none =>
      match b with
      | .last => if !(← get).input.isEmpty then setRange (.inside none)
      | _ => setRange (.inside none)

/-! ## Substitution -/

/-- A text in the cases that are asked for: for one letter, and for all that follow. -/
structure CaseState where
  one : Option Char := none
  all : Option Char := none

def CaseState.apply (s : CaseState) (o : Octets) : Octets × CaseState :=
  let change (letter : Option Char) (c : Char) : Char :=
    match letter with
    | some 'U' | some 'u' => c.toUpper
    | some 'L' | some 'l' => c.toLower
    | _ => c
  let body := o.map (change s.all)
  match s.one, body with
  | some letter, c :: rest => (change (some letter) c :: rest, { s with one := none })
  | _, body => (body, s)

def replacementOf (parts : List ReplacementPart) (found : Regex.Match) : Octets :=
  (parts.foldl (fun (text, (s : CaseState)) part =>
    match part with
    | .recase 'E' => (text, { s with all := none })
    | .recase letter =>
      if letter == 'u' || letter == 'l' then (text, { s with one := some letter })
      else (text, { s with all := some letter })
    | .text o =>
      let (shown, s) := s.apply o
      (text ++ shown, s)
    | .group n =>
      let (shown, s) := s.apply ((found.group? n).getD [])
      (text ++ shown, s)) (([] : Octets), ({} : CaseState))).1

/-- Replaces matches in a line, from the given one on, one or all of them; and whether there was
any. An empty match does not count where a match has just ended. -/
def substituted (m : Regex.Matching) (r : Regex) (s : Substitution) :
    Nat → Bool → Nat → Octets → Octets → List Octets × Bool
  | 0, _, _, _, rest => ([rest], false)
  | fuel + 1, afterMatch, nth, before, rest =>
    match r.findAfter? m before rest with
    | none => ([rest], false)
    | some found =>
      if afterMatch && found.matched.isEmpty && found.before.length == before.length then
        match rest with
        | [] => ([], false)
        | c :: after =>
          let (others, changed) := substituted m r s fuel false nth (c :: before) after
          ([c] :: others, changed)
      else
        let skipped := found.before.drop before.length
        let isChosen := nth ≤ 1
        let text := if isChosen then replacementOf s.replacement found else found.matched
        if isChosen && !s.isGlobal then ([skipped, text, found.after], true)
        else
          let passed := found.matched.reverse ++ found.before.reverse
          match found.matched, found.after with
          | [], [] => ([skipped, text], isChosen)
          | [], c :: after =>
            let (others, changed) := substituted m r s fuel false (nth - 1) (c :: passed) after
            (skipped :: text :: [c] :: others, isChosen || changed)
          | _, after =>
            let (others, changed) := substituted m r s fuel true (nth - 1) passed after
            (skipped :: text :: others, isChosen || changed)

/-! ## Commands -/

/-- A text in a form in which every byte can be seen, cut into lines of a width. -/
def visibleLines (width : Nat) (o : Octets) : Octets :=
  let piece (c : Char) : Octets :=
    if c == '\\' then ['\\', '\\']
    else if Octets.isPrintable c then [c] else Octets.byteEscape c
  let limit := width - 1
  (o.foldl (fun (text, column) c =>
    let p := piece c
    if 0 < limit && limit < column + p.length then (p.reverse ++ '\n' :: '\\' :: text, p.length)
    else (p.reverse ++ text, column + p.length)) (([] : Octets), (0 : Nat))).1.reverse ++ ['$']

/-- The first line of a text, and what follows it. -/
def splitFirst (finish : Char) (o : Octets) : Octets × Option Octets :=
  let first := o.takeWhile (· != finish)
  (first, if first.length < o.length then some (o.drop (first.length + 1)) else none)

/-- Carries the commands out from one on, with a bound on the steps. -/
def runFrom (c : ToolCall) (r : EditRules) (commands : Array EditCommand) :
    Nat → Nat → RunM CycleEnd
  | 0, _ => return .quit true
  | fuel + 1, i => do
    match commands[i]? with
    | none => return .normal
    | some command =>
      let go (next : Nat) : RunM CycleEnd := runFrom c r commands fuel next
      let isChosen := (← selects c i command) != command.isNegated
      if !isChosen then
        match command.action with
        | .skipUnless finish => go (finish + 1)
        | _ => go (i + 1)
      else
        let s ← get
        match command.action with
        | .skipUnless _ => go (i + 1)
        | .substitute sub =>
          let (regex, m) ← regexOf c sub.pattern
          let m := if sub.pattern.regex.isSome then m
            else { m with ignoreCase := m.ignoreCase || sub.pattern.matching.ignoreCase }
          let (pieces, changed) :=
            substituted m regex sub (s.space.length + 2) false sub.nth [] s.space
          if changed then
            modify fun s => { s with space := pieces.flatten, isReplaced := true }
            let s ← get
            if sub.isPrinted then emit r s.space s.hasEnd
            match sub.file with
            | some path => emitTo r path s.space s.hasEnd
            | none => pure ()
          go (i + 1)
        | .transliterate pairs =>
          let changed (b : Char) : Char := ((pairs.find? fun p => p.1 == b).map Prod.snd).getD b
          set { s with space := s.space.map changed }
          go (i + 1)
        | .jump letter target =>
          match letter with
          | 'b' => go target
          | 't' =>
            set { s with isReplaced := false }
            if s.isReplaced then go target else go (i + 1)
          | _ =>
            set { s with isReplaced := false }
            if s.isReplaced then go (i + 1) else go target
        | .text letter o =>
          match letter with
          | 'a' =>
            set { s with queue := s.queue ++ [Queued.text o] }
            go (i + 1)
          | 'i' =>
            if !o.isEmpty then emit r o.dropLast true
            go (i + 1)
          | _ =>
            let isInside := match command.second, (s.ranges[i]?).getD .outside with
              | some _, .inside _ => !command.isNegated
              | _, _ => false
            if !isInside && !o.isEmpty then emit r o.dropLast true
            return .deleted
        | .file letter path =>
          match letter with
          | 'r' => set { s with queue := s.queue ++ [Queued.file path] }
          | 'R' =>
            let lines ← match s.readers.find? fun x => x.1 == path with
              | some (_, lines) => pure lines
              | none => do
                match ← liftM (m := ToolM) (Tool.readPath path) with
                | .ok text => pure (Tool.fullLines text)
                | .error _ => pure []
            let others := s.readers.filter fun x => x.1 != path
            let queued := match lines with
              | [] => []
              | line :: _ => [Queued.text line]
            let readers := (path, lines.drop 1) :: others
            modify fun s => { s with readers, queue := s.queue ++ queued }
          | 'w' => emitTo r path s.space s.hasEnd
          | _ => emitTo r path (splitFirst r.finish s.space).1 true
          go (i + 1)
        | .quit isSilent status =>
          set { s with status }
          return .quit isSilent
        | .listing width =>
          emit r (visibleLines (width.getD r.width) s.space) true
          go (i + 1)
        | .plain letter =>
          match letter with
          | '=' =>
            emit { r with finish := '\n' } (Octets.ofNat s.number) true
            go (i + 1)
          | 'd' => return .deleted
          | 'D' =>
            match splitFirst r.finish s.space with
            | (_, none) => return .deleted
            | (_, some rest) =>
              set { s with space := rest }
              return .again
          | 'g' =>
            set { s with space := s.hold }
            go (i + 1)
          | 'G' =>
            set { s with space := s.space ++ r.finish :: s.hold }
            go (i + 1)
          | 'h' =>
            set { s with hold := s.space }
            go (i + 1)
          | 'H' =>
            set { s with hold := s.hold ++ r.finish :: s.space }
            go (i + 1)
          | 'x' =>
            set { s with space := s.hold, hold := s.space }
            go (i + 1)
          | 'z' =>
            set { s with space := [] }
            go (i + 1)
          | 'p' =>
            emit r s.space s.hasEnd
            go (i + 1)
          | 'P' =>
            emit r (splitFirst r.finish s.space).1 true
            go (i + 1)
          | 'F' =>
            emit { r with finish := '\n' } s.source true
            go (i + 1)
          | 'n' =>
            if s.input.isEmpty then return .normal
            if !r.isSilent then emit r s.space s.hasEnd
            flushQueue r
            let _ ← readLine r false
            go (i + 1)
          | 'N' =>
            if s.input.isEmpty then return .normal
            flushQueue r
            let _ ← readLine r true
            go (i + 1)
          | _ => go (i + 1)

/-- Carries a script out for all lines, with a bound on their number. The flag says whether a line
is in the space already. -/
def runCycles (c : ToolCall) (r : EditRules) (commands : Array EditCommand) : Nat → Bool → RunM Unit
  | 0, _ => return
  | fuel + 1, isAgain => do
    let hasLine ← if isAgain then pure true else readLine r false
    if hasLine then
      if !isAgain then modify fun s => { s with isReplaced := false }
      let finish ← runFrom c r commands 1000000 0
      let s ← get
      let printed := match finish with
        | .normal | .quit false => !r.isSilent
        | _ => false
      if printed then emit r s.space s.hasEnd
      if finish != .quit true then flushQueue r
      match finish with
      | .quit _ => modify fun s => { s with input := [] }
      | .again => runCycles c r commands fuel true
      | _ => runCycles c r commands fuel false

/-! ## Scripts and sources -/

/-- The expression of a script in which a place lies, and the place in it. -/
def placeIn (expressions : List Octets) (position : Nat) : Nat × Nat :=
  let rec go : Nat → Nat → List Octets → Nat × Nat
    | n, p, [] => (n, p)
    | n, p, [_] => (n, p)
    | n, p, e :: rest => if p ≤ e.length then (n, p) else go (n + 1) (p - e.length - 1) rest
  go 1 position expressions

/-- The files that a script writes to. -/
def writtenFiles (commands : List EditCommand) : List Octets :=
  (commands.filterMap fun command =>
    match command.action with
    | .substitute s => s.file
    | .file letter path => if letter == 'w' || letter == 'W' then some path else none
    | _ => none).eraseDups

def startState (commands : List EditCommand) (input : List (Octets × Octets)) : EditState :=
  let ranges := commands.map fun command =>
    match command.first, command.second with
    | some (.line 0), some _ => RangeState.inside none
    | _, _ => .outside
  { ranges := ranges.toArray, input
    files := (writtenFiles commands).map fun path => (path, {}) }

end Editing

open Editing

/-- The help that is shown after a misuse. -/
def editingHelp : List String := [
  "Usage: sed [OPTION]... \x7bscript-only-if-no-other-script\x7d [input-file]...",
  "",
  "  -n, --quiet, --silent",
  "                 suppress automatic printing of pattern space",
  "      --debug",
  "                 annotate program execution",
  "  -e script, --expression=script",
  "                 add the script to the commands to be executed",
  "  -f script-file, --file=script-file",
  "                 add the contents of script-file to the commands to be executed",
  "  --follow-symlinks",
  "                 follow symlinks when processing in place",
  "  -i[SUFFIX], --in-place[=SUFFIX]",
  "                 edit files in place (makes backup if SUFFIX supplied)",
  "  -l N, --line-length=N",
  "                 specify the desired line-wrap length for the \x60l' command",
  "  --posix",
  "                 disable all GNU extensions.",
  "  -E, -r, --regexp-extended",
  "                 use extended regular expressions in the script",
  "                 (for portability use POSIX -E).",
  "  -s, --separate",
  "                 consider files as separate rather than as a single,",
  "                 continuous long stream.",
  "      --sandbox",
  "                 operate in sandbox mode (disable e/r/w commands).",
  "  -u, --unbuffered",
  "                 load minimal amounts of data from the input files and flush",
  "                 the output buffers more often",
  "  -z, --null-data",
  "                 separate lines by NUL characters",
  "      --help     display this help and exit",
  "      --version  output version information and exit",
  "",
  "If no -e, --expression, -f, or --file option is given, then the first",
  "non-option argument is taken as the sed script to interpret.  All",
  "remaining arguments are names of input files; if no input files are",
  "specified, then the standard input is read.",
  "",
  "GNU sed home page: <https://www.gnu.org/software/sed/>.",
  "General help using GNU software: <https://www.gnu.org/gethelp/>."]

def sed (c : ToolCall) : ToolM Unit := do
  let forms : OptionForms := {
    help := editingHelp
    plain := "nErsuzi", valued := "efl", optional := "i"
    long := [("quiet", 'n'), ("silent", 'n'), ("expression", 'e'), ("file", 'f'),
      ("regexp-extended", 'E'), ("in-place", 'i'), ("line-length", 'l'), ("separate", 's'),
      ("unbuffered", 'u'), ("null-data", 'z'), ("posix", 'α'), ("debug", 'α'),
      ("follow-symlinks", 'α'), ("sandbox", 'α')] }
  let (found, operands) ← forms.read c
  let scripts ← found.filterMapM fun (letter, value) => do
    if letter == 'e' then return some value
    else if letter == 'f' then
      if value == ['-'] then return some (← readInput)
      match ← readPath value with
      | .ok text => return some (if text.getLast? == some '\n' then text.dropLast else text)
      | .error fault =>
        c.fail 4 (Octets.told "couldn't open file " value s!": {fault.phrase}")
    else return none
  let (scripts, operands) ← match scripts, operands with
    | [], script :: rest => pure ([script], rest)
    | [], [] => do
      tell (Octets.unlines (editingHelp.map Octets.ofString))
      stop 1
    | scripts, operands => pure (scripts, operands)
  let script := ['\n'].intercalate scripts
  let isExtended := found.has 'E' || found.has 'r'
  match Editing.commands isExtended script with
  | .error fault =>
    match fault.position with
    | none => c.fail 4 (Octets.ofString fault.message)
    | some p =>
      let (n, place) := if p = 0 then (1, 0) else placeIn scripts p
      c.fail 1 (Octets.ofString
        s!"-e expression #{toString n}, char {toString place}: {fault.message}")
  | .ok commands =>
    let rules : EditRules := {
      isSilent := found.has 'n' || "#n\n".toList.isPrefixOf script || script == "#n".toList
      finish := if found.has 'z' then '\x00' else '\n'
      width := ((found.value? 'l').map Octets.digitsValue).getD 70 }
    let program := commands.toArray
    for path in writtenFiles commands do
      if !"/dev/std".toList.isPrefixOf path then
        match ← writePath path [] false with
        | .ok () => pure ()
        | .error fault =>
          c.fail 4 (Octets.told "couldn't open file " path s!": {fault.phrase}")
    let saveFiles (s : EditState) : ToolM Unit := do
      for (path, sink) in s.files do
        if !"/dev/std".toList.isPrefixOf path then
          let _ ← writePath path sink.text false
    let linesOf (path text : Octets) : List (Octets × Octets) :=
      (separatedLines rules.finish text).map fun line => (path, line)
    let read (path : Octets) : ToolM (Option Octets) := do
      match ← readPath path with
      | .ok text => return some text
      | .error .isDirectory =>
        if found.has 'i' then
          c.complain 4 (Octets.told "couldn't edit " path ": not a regular file")
          return none
        else c.fail 4 (Octets.told "read error on " path ": Is a directory")
      | .error fault =>
        c.complain 2 (Octets.told "can't read " path s!": {fault.phrase}")
        return none
    let bound (lines : List (Octets × Octets)) : Nat :=
      lines.length + 2 + (lines.map fun l => l.2.length).foldl (· + ·) 0
    if found.has 'i' then
      if operands.isEmpty then c.fail 4 (Octets.ofString "no input files")
      let mut state : EditState := startState commands []
      for path in operands do
        match ← read path with
        | none => pure ()
        | some text =>
          let lines := linesOf path text
          let ((), s) ← (runCycles c rules program (bound lines) false).run
            { state with input := lines, number := 0, output := {} }
          match found.value? 'i' with
          | some [] | none => pure ()
          | some ending => do
            let kept := if ending.contains '*' then
                ending.flatMap fun b => if b == '*' then path else [b]
              else path ++ ending
            let _ ← writePath kept text false
          let _ ← writePath path s.output.text false
          state := s
      saveFiles state
      if state.status != 0 then setStatus state.status
    else
      let named := if operands.isEmpty then [['-']] else operands
      let texts ← named.filterMapM fun path => do
        if path == ['-'] then return some (linesOf path (← readInput))
        return (← read path).map (linesOf path)
      let groups := if found.has 's' then texts else [texts.flatten]
      let mut state : EditState := startState commands []
      for lines in groups do
        let ((), s) ← (runCycles c rules program (bound lines) false).run
          { state with input := lines, number := 0 }
        state := s
      print state.output.text
      saveFiles state
      if state.status != 0 then setStatus state.status

end Sweep.Tool
