import Sweep.Shell.Expansion

/-!
# Parts of the shell

Commands that change the state of the shell itself: its variables, options, arguments, its
directory, and the order in which commands are carried out.
-/

namespace Sweep.Shell.Part

/-- Fails with one of two messages, by the dialect. -/
def failAs {α : Type} (sh bash : Octets) : ShellM α := do
  match (← get).dialect with
  | .sh => fail sh
  | .bash => fail bash

/-- A number among the arguments, with blanks and a plus sign allowed before it. -/
def numberArgument (a : Octets) : ShellM Nat := do
  match Octets.toInt? a with
  | some (.ofNat n) => return n
  | _ =>
    failAs (Octets.ofString "Illegal number: " ++ a)
      (a ++ Octets.ofString ": numeric argument required")

/-- The status that is given to end with, or that of the last command. -/
def statusArgument (arguments : List Octets) : ShellM Nat := do
  match arguments with
  | [] => return (← get).status
  | a :: _ =>
    match (← get).dialect, Octets.toInt? a with
    | .bash, some n => return (n % 256).toNat
    | .bash, none =>
      complain (a ++ Octets.ofString ": numeric argument required")
      return 2
    | .sh, _ => numberArgument a

/-- The number of loops to leave. -/
def levelsArgument (arguments : List Octets) : ShellM Nat := do
  match arguments with
  | [] => return 1
  | a :: _ =>
    match Octets.toInt? a with
    | some n =>
      if 0 < n then return n.toNat
      else
        failAs (Octets.ofString "Illegal number: " ++ a)
          (a ++ Octets.ofString ": loop count out of range")
    | none =>
      failAs (Octets.ofString "Illegal number: " ++ a)
        (a ++ Octets.ofString ": numeric argument required")

/-- Leaves loops, or goes on with their next round. -/
def leaveLoops (leave : Nat → Leave) (arguments : List Octets) : ShellM Unit := do
  let levels ← levelsArgument arguments
  setStatus 0
  let loops := (← get).loops
  if 0 < loops then throw (leave (min levels loops))

/-- Drops arguments of the script. -/
def shift (arguments : List Octets) : ShellM Unit := do
  let n ← match arguments with
    | [] => pure 1
    | a :: _ => numberArgument a
  let s ← get
  if s.arguments.length < n then
    match s.dialect with
    | .sh => fail (Octets.ofString "can't shift that many")
    | .bash => setStatus 1
  else set { s with arguments := s.arguments.drop n, status := 0 }

/-! ## Options -/

/-- An option with a letter, and how it is set. -/
def withOption (isSet : Bool) (c : Char) (o : Options) : Option Options :=
  match c with
  | 'e' => some { o with exitOnFailure := isSet }
  | 'u' => some { o with failOnUnset := isSet }
  | 'x' => some { o with tracesCommands := isSet }
  | 'f' => some { o with withoutPaths := isSet }
  | 'C' => some { o with keepsFiles := isSet }
  | 'a' => some { o with exportsAll := isSet }
  | 'v' => some { o with showsInput := isSet }
  | 'n' => some { o with onlyReads := isSet }
  | 'b' | 'm' | 'h' | 'I' | 'i' | 's' | 'E' | 'V' => some o
  | _ => none

/-- The letters of options with long names. -/
def optionNames : List (String × Char) :=
  [("errexit", 'e'), ("nounset", 'u'), ("xtrace", 'x'), ("noglob", 'f'), ("noclobber", 'C'),
   ("allexport", 'a'), ("verbose", 'v'), ("noexec", 'n'), ("notify", 'b'), ("monitor", 'm'),
   ("ignoreeof", 'I'), ("interactive", 'i'), ("stdin", 's'), ("emacs", 'E'), ("vi", 'V'),
   ("nolog", 'b'), ("debug", 'b')]

def setNamed (isSet : Bool) (name : Octets) : ShellM Unit := do
  let s ← get
  if s.dialect = .bash && name == "pipefail".toList then
    set { s with options := { s.options with pipesFail := isSet } }
  else
    match (optionNames.find? fun o => o.1.toList == name).bind fun o =>
      withOption isSet o.2 s.options with
    | some options => set { s with options }
    | none =>
      let known := ["posix", "braceexpand", "histexpand", "hashall", "history", "errtrace",
        "functrace", "physical", "privileged"]
      if s.dialect = .bash && known.any fun k => k.toList == name then pure ()
      else
        let sign := if isSet then "-" else "+"
        failAs (Octets.ofString s!"Illegal option {sign}o " ++ name)
          (name ++ Octets.ofString ": invalid option name")

/-- Sets the options of some letters; the flag says whether a name is asked for. -/
def setLetters (isSet : Bool) : Octets → ShellM Bool
  | [] => return false
  | 'o' :: rest => do
    let _ ← setLetters isSet rest
    return true
  | c :: rest => do
    let s ← get
    match withOption isSet c s.options with
    | some options =>
      set { s with options }
      setLetters isSet rest
    | none =>
      let sign := if isSet then '-' else '+'
      if s.dialect = .bash && "BHPTkptE".toList.contains c then setLetters isSet rest
      else
        failAs (Octets.ofString "Illegal option " ++ [sign, c])
          ([sign, c] ++ Octets.ofString ": invalid option")

/-- Sets options; what follows them. -/
def setOptions : List Octets → ShellM (Option (List Octets))
  | [] => return none
  | ['-', '-'] :: rest => return some rest
  | ['-'] :: rest => do
    modify fun s =>
      { s with options := { s.options with tracesCommands := false, showsInput := false } }
    match ← setOptions rest with
    | some rest => return some rest
    | none => return if rest.isEmpty then none else some rest
  | (sign :: letters) :: rest => do
    if sign != '-' && sign != '+' || letters.isEmpty then return some ((sign :: letters) :: rest)
    if ← setLetters (sign == '-') letters then
      match rest with
      | name :: rest =>
        setNamed (sign == '-') name
        setOptions rest
      | [] => return none
    else setOptions rest
  | rest => return some rest

/-- Changes options and arguments. -/
def set (arguments : List Octets) : ShellM Unit := do
  setStatus 0
  match ← setOptions arguments with
  | some arguments => modify fun s => { s with arguments }
  | none => pure ()

/-! ## Variables -/

/-- Fails if a text is no name. -/
def checkName (name shown : Octets) : ShellM Unit := do
  if !isName name then
    failAs (name ++ Octets.ofString ": bad variable name")
      (Octets.told "\x60" shown "': not a valid identifier")

/-- The letters of options at the front of arguments, and what follows them. -/
def letters : List Octets → Octets × List Octets
  | ['-', '-'] :: rest => ([], rest)
  | ('-' :: c :: more) :: rest =>
    let (found, rest) := letters rest
    (c :: more ++ found, rest)
  | rest => ([], rest)

/-- A text between quotes that a script could read again. -/
def requoted (o : Octets) : Octets :=
  '\'' :: o.flatMap (fun c => if c == '\'' then "'\\''".toList else [c]) ++ ['\'']

def mark (what : String) (change : Variable → Variable) (isShown : Variable → Bool)
    (arguments : List Octets) : ShellM Unit := do
  let (flags, arguments) := letters arguments
  setStatus 0
  if flags.contains 'p' || arguments.isEmpty then
    let s ← get
    for (name, v) in s.bindings.entries do
      if isShown v then
        let shown := match v.value with
          | some value => '=' :: requoted value
          | none => []
        print (Octets.ofString s!"{what} {name}" ++ shown ++ ['\n'])
  else
    for a in arguments do
      let name := a.takeWhile (· != '=')
      checkName name a
      match a.drop name.length with
      | _ :: value => assign (String.ofList name) value
      | [] => pure ()
      modify fun s =>
        let v := (s.bindings.get? (String.ofList name)).getD {}
        let v := if flags.contains 'n' then { v with isExported := false } else change v
        { s with bindings := s.bindings.insert (String.ofList name) v }

/-- Keeps the variable as it is now for the end of the function. -/
def keepVariable (name : String) : ShellM Unit := modify fun s =>
  match s.frames with
  | frame :: others =>
    if frame.any fun entry => entry.1 == name then s
    else { s with frames := ((name, s.bindings.get? name) :: frame) :: others }
  | [] => s

/-- Makes variables a function's own. -/
def localize (arguments : List Octets) : ShellM Unit := do
  let s ← get
  if s.frames.isEmpty then
    failAs (Octets.ofString "not in a function") (Octets.ofString "can only be used in a function")
  setStatus 0
  let (flags, arguments) := if s.dialect = .bash then letters arguments else ([], arguments)
  for a in arguments do
    let name := a.takeWhile (· != '=')
    checkName name a
    let text := String.ofList name
    keepVariable text
    if s.dialect = .bash then
      let elements := if flags.contains 'a' || flags.contains 'A' then some [] else none
      let variable_ : Variable := { elements, isKeyed := flags.contains 'A' }
      modify fun s => { s with bindings := s.bindings.insert text variable_ }
    match a.drop name.length with
    | _ :: value => assign text value
    | [] => pure ()

/-- Declares variables, which are a function's own inside one. -/
def declare (arguments : List Octets) : ShellM Unit := do
  let (flags, names) := letters arguments
  setStatus 0
  let isLocal := !(← get).frames.isEmpty && !flags.contains 'g'
  for a in names do
    let name := a.takeWhile (· != '=')
    checkName name a
    let text := String.ofList name
    if isLocal then keepVariable text
    let isList := flags.contains 'a' || flags.contains 'A'
    let before := ((← get).bindings.get? text).getD {}
    let v : Variable := if isLocal then {} else before
    let v := if isList && v.elements.isNone then
      { v with elements := some [], isKeyed := flags.contains 'A' } else v
    modify fun s => { s with bindings := s.bindings.insert text v }
    match a.drop name.length with
    | _ :: value =>
      let value ←
        if flags.contains 'i' then do pure (Octets.ofInt (← numberOf value)) else pure value
      assign text (if flags.contains 'u' then value.map Char.toUpper
        else if flags.contains 'l' then value.map Char.toLower else value)
    | [] => pure ()
    modify fun s =>
      let v := (s.bindings.get? text).getD {}
      { s with bindings := s.bindings.insert text { v with
          isExported := v.isExported || flags.contains 'x'
          isReadonly := v.isReadonly || flags.contains 'r' } }

/-- Takes variables or functions away. -/
def unset (arguments : List Octets) : ShellM Unit := do
  let (flags, arguments) := letters arguments
  setStatus 0
  for a in arguments do
    let isBash := (← get).dialect = .bash
    if flags.contains 'f' then
      modify fun s => { s with functions := s.functions.filter fun f => f.1 != a }
    else
      let name := a.takeWhile (· != '[')
      checkName name a
      let text := String.ofList name
      match a.drop name.length with
      | _ :: position =>
        let key := position.dropLast
        modify fun s => match s.bindings.get? text with
          | some v => { s with bindings := s.bindings.insert text { v with
              elements := v.elements.map fun found => found.filter fun e => e.1 != key } }
          | none => s
      | [] =>
        if isBash && !((← get).bindings.contains text) then
          modify fun s => { s with functions := s.functions.filter fun f => f.1 != a }
        else unsetVariable text

/-! ## Reading lines -/

/-- A byte of a line, and whether a backslash stood before it. -/
abbrev LineMark := Char × Bool

/-- The first line of a text, what it takes of the text, and whether it has an end. A backslash
takes the meaning of the next byte away, and joins lines. -/
def lineMarks (isRaw : Bool) (delimiter : Char) : Octets → List LineMark × Nat × Bool
  | [] => ([], 0, false)
  | '\\' :: '\n' :: rest =>
    if isRaw then
      if delimiter == '\n' then ([('\\', false)], 2, true)
      else
        let (marks, n, isEnded) := lineMarks isRaw delimiter rest
        (('\\', false) :: ('\n', false) :: marks, n + 2, isEnded)
    else
      let (marks, n, isEnded) := lineMarks isRaw delimiter rest
      (marks, n + 2, isEnded)
  | c :: rest =>
    if c == delimiter then ([], 1, true)
    else if c == '\\' && !isRaw then
      match rest with
      | d :: rest =>
        let (marks, n, isEnded) := lineMarks isRaw delimiter rest
        ((d, true) :: marks, n + 2, isEnded)
      | [] => ([], 1, false)
    else
      let (marks, n, isEnded) := lineMarks isRaw delimiter rest
      ((c, false) :: marks, n + 1, isEnded)

/-- Cuts a line into as many fields as there are names, the last of which gets what is left. -/
def lineFields (separators : Octets) : List String → List LineMark → List (String × Octets)
  | [], _ => []
  | [name], line =>
    let isSpace (m : LineMark) : Bool := !m.2 && separators.contains m.1 && Octets.isSpace m.1
    let isSeparator (m : LineMark) : Bool := !m.2 && separators.contains m.1
    let line := line.dropWhile isSpace
    let trimmed := (line.reverse.dropWhile isSpace).reverse
    -- One separator that only ends the field does not count.
    let first := line.takeWhile fun m => !isSeparator m
    let after := (line.drop first.length).dropWhile isSpace
    let onlyEnds := match after with
      | m :: rest => isSeparator m && (rest.dropWhile isSpace).isEmpty
      | [] => true
    [(name, (if onlyEnds then first else trimmed).map (·.1))]
  | name :: names, line =>
    let isSpace (m : LineMark) : Bool := !m.2 && separators.contains m.1 && Octets.isSpace m.1
    let isSeparator (m : LineMark) : Bool := !m.2 && separators.contains m.1
    let line := line.dropWhile isSpace
    let field := line.takeWhile fun m => !isSeparator m
    let rest := (line.drop field.length).dropWhile isSpace
    let rest := match rest with
      | m :: more => if isSeparator m then more else rest
      | [] => []
    (name, field.map (·.1)) :: lineFields separators names rest

structure ReadRequest where
  isRaw : Bool := false
  delimiter : Char := '\n'
  list : Option String := none
  descriptor : Nat := 0
  count : Option Nat := none
  names : List Octets := []

/-- The options and names of `read`, with a bound on their number. -/
def readRequest (isRich : Bool) : Nat → ReadRequest → List Octets → ShellM ReadRequest
  | 0, r, _ | _, r, [] => return r
  | fuel + 1, r, a :: rest => do
    match a with
    | ['-', '-'] => return { r with names := rest }
    | '-' :: c :: more =>
      let go (r : ReadRequest) : ShellM ReadRequest :=
        if more.isEmpty then readRequest isRich fuel r rest
        else readRequest isRich fuel r (('-' :: more) :: rest)
      let valued (f : Octets → ReadRequest) : ShellM ReadRequest :=
        match more, rest with
        | [], value :: rest => readRequest isRich fuel (f value) rest
        | [], [] => readRequest isRich fuel (f []) []
        | value, rest => readRequest isRich fuel (f value) rest
      match c with
      | 'r' => go { r with isRaw := true }
      | 'p' => valued fun _ => r
      | _ =>
        if isRich then
          match c with
          | 'a' => valued fun value => { r with list := some (Octets.toText value) }
          | 'd' => valued fun value => { r with delimiter := value.headD '\x00' }
          | 'n' | 'N' => valued fun value => { r with count := some (Octets.digitsValue value) }
          | 'u' => valued fun value => { r with descriptor := Octets.digitsValue value }
          | 't' | 'i' => valued fun _ => r
          | 's' | 'e' => go r
          | _ => fail (Octets.told "-" [c] ": invalid option")
        else fail (Octets.told "Illegal option -" [c] "")
    | _ => return { r with names := a :: rest }

def read (arguments : List Octets) : ShellM Unit := do
  let isRich := (← get).dialect = .bash
  let bound := (arguments.map List.length).foldl (· + · + 1) 1
  let r ← readRequest isRich bound {} arguments
  if r.names.isEmpty && !isRich then fail (Octets.ofString "arg count")
  for name in r.names do checkName name name
  let s ← get
  let text := (s.readable? r.descriptor).getD []
  let (marks, taken, isEnded) := match r.count with
    | some n =>
      let (marks, taken, isEnded) := lineMarks true r.delimiter (text.take n)
      (marks, taken, isEnded || n ≤ text.length)
    | none => lineMarks r.isRaw r.delimiter text
  modify fun s => s.skipInput r.descriptor taken
  match r.list with
  | some name =>
    let fields := fieldsOf s.separators [.loose (marks.map (·.1))]
    changeVariable name fun v => { v with
      value := none
      elements := some (fields.zipIdx.map fun (f, i) => (Octets.ofNat i, bytesOf f)) }
  | none =>
    if r.names.isEmpty then assign "REPLY" (marks.map (·.1))
    else
      for (name, value) in lineFields s.separators (r.names.map Octets.toText) marks do
        assign name value
  setStatus (if isEnded then 0 else 1)

def readLines (arguments : List Octets) : ShellM Unit := do
  let (flags, names) := letters arguments
  let s ← get
  let text := (s.readable? 0).getD []
  modify fun s => s.skipInput 0 text.length
  let lines := Octets.lines text
  let lines := if flags.contains 't' then lines else lines.map (· ++ ['\n'])
  changeVariable (Octets.toText (names.headD "MAPFILE".toList)) fun v => { v with
    value := none, elements := some (lines.zipIdx.map fun (l, i) => (Octets.ofNat i, l)) }
  setStatus 0

/-! ## Directories -/

/-- Goes to another directory. -/
def changeDirectory (arguments : List Octets) : ShellM Unit := do
  let (_, arguments) := match arguments with
    | ['-'] :: _ => ([], arguments)
    | _ => letters arguments
  let s ← get
  let before := Octets.ofString (FileTree.absolute s.files.current)
  let (target, isShown) ← match arguments with
    | [] =>
      match s.value? "HOME" with
      | some home => pure (home, false)
      | none =>
        match s.dialect with
        | .sh => pure (before, false)
        | .bash => fail (Octets.ofString "HOME not set")
    | ['-'] :: _ =>
      match s.value? "OLDPWD" with
      | some path => pure (path, true)
      | none =>
        match s.dialect with
        | .sh => pure (before, true)
        | .bash => fail (Octets.ofString "OLDPWD not set")
    | path :: _ => pure (path, false)
  let entered := if target.isEmpty then .ok s.files else s.files.enter (Octets.toText target)
  match entered with
  | .ok files =>
    modify fun s => { s with files, status := 0 }
    let after := Octets.ofString (FileTree.absolute files.current)
    assign "OLDPWD" before
    assign "PWD" after
    if isShown then print (after ++ ['\n'])
  | .error fault =>
    failAs (Octets.ofString "can't cd to " ++ target) (target ++ Octets.ofString ": " ++
      Octets.ofString fault.phrase)

/-- Prints the current directory. -/
def whereabouts : ShellM Unit := do
  print (Octets.ofString (FileTree.absolute (← get).files.current) ++ ['\n'])
  setStatus 0

/-! ## Signals -/

/-- The names of signals and their numbers. -/
def signals : List (String × Nat) :=
  [("HUP", 1), ("INT", 2), ("QUIT", 3), ("ILL", 4), ("TRAP", 5), ("ABRT", 6), ("BUS", 7),
   ("FPE", 8), ("KILL", 9), ("USR1", 10), ("SEGV", 11), ("USR2", 12), ("PIPE", 13), ("ALRM", 14),
   ("TERM", 15), ("STKFLT", 16), ("CHLD", 17), ("CONT", 18), ("STOP", 19), ("TSTP", 20),
   ("TTIN", 21), ("TTOU", 22)]

/-- The name of a signal in the traps; the end of the script counts as one. -/
def signalName? (o : Octets) : Option String :=
  let upper := String.ofList (o.map Char.toUpper)
  let bare := if "SIG".toList.isPrefixOf upper.toList then String.ofList (upper.toList.drop 3)
    else upper
  if bare == "EXIT" then some "EXIT"
  else if !o.isEmpty && o.all Char.isDigit then
    let n := Octets.digitsValue o
    if n = 0 then some "EXIT" else (signals.find? fun s => s.2 == n).map (·.1)
  else if signals.any fun s => s.1 == bare then some bare
  else if bare == "ERR" || bare == "DEBUG" || bare == "RETURN" then some bare
  else none

/-- Sets what is carried out when the script ends or a signal arrives; a dash takes it back. -/
def trap (arguments : List Octets) : ShellM Unit := do
  let (_, arguments) := match arguments with
    | ['-'] :: _ => ([], arguments)
    | ('-' :: 'p' :: _) :: _ | ['-', '-'] :: _ => letters arguments
    | _ => ([], arguments)
  setStatus 0
  let s ← get
  match arguments with
  | [] =>
    for (name, action) in s.traps do
      print (Octets.ofString "trap -- " ++ requoted action ++ Octets.ofString s!" {name}\n")
  | first :: others =>
    let (action, names) : Option Octets × List Octets :=
      if others.isEmpty || (signalName? first).isSome && first.all Char.isDigit then
        (none, arguments)
      else if first == ['-'] then (none, others)
      else (some first, others)
    for o in names do
      match signalName? o with
      | some name =>
        modify fun s =>
          let rest := s.traps.filter fun t => t.1 != name
          { s with traps := match action with
              | some action => rest ++ [(name, action)]
              | none => rest }
      | none =>
        match s.dialect with
        | .sh => tell (Octets.told "trap: " o ": bad trap\n")
        | .bash => complain (o ++ Octets.ofString ": invalid signal specification")
        setStatus 1

/-! ## Other parts -/

def nextOption (arguments : List Octets) : ShellM Unit := do
  let s ← get
  match arguments with
  | forms :: name :: given =>
    let words := if given.isEmpty then s.arguments else given
    let position := Octets.digitsValue ((s.value? "OPTIND").getD ['1'])
    let offset := Octets.digitsValue ((s.value? "OPTOFFSET").getD ['1'])
    let name := Octets.toText name
    let finish (next : Nat) : ShellM Unit := do
      assign "OPTIND" (Octets.ofNat next)
      assign "OPTOFFSET" ['1']
      assign name ['?']
      setStatus 1
    match words[position - 1]? with
    | none => finish position
    | some word =>
      match word with
      | ['-', '-'] => finish (position + 1)
      | '-' :: c :: more =>
        let letters := (c :: more).drop (offset - 1)
        let letter := letters.headD '?'
        let after := letters.drop 1
        let isQuiet := forms.head? == some ':'
        let move : ShellM Unit := do
          if after.isEmpty then
            assign "OPTIND" (Octets.ofNat (position + 1))
            assign "OPTOFFSET" ['1']
          else assign "OPTOFFSET" (Octets.ofNat (offset + 1))
        setStatus 0
        let place := forms.dropWhile (· != letter)
        if letter == ':' || place.isEmpty then
          move
          assign name ['?']
          if isQuiet then assign "OPTARG" [letter]
          else
            tell (Octets.told "Illegal option -" [letter] "\n")
            unsetVariable "OPTARG"
        else if (place.drop 1).head? == some ':' then
          assign "OPTOFFSET" ['1']
          match after, words[position]? with
          | [], some value =>
            assign "OPTIND" (Octets.ofNat (position + 2))
            assign "OPTARG" value
            assign name [letter]
          | [], none =>
            assign "OPTIND" (Octets.ofNat (position + 1))
            if isQuiet then
              assign "OPTARG" [letter]
              assign name [':']
            else
              tell (Octets.told "No arg for -" [letter] " option\n")
              unsetVariable "OPTARG"
              assign name ['?']
          | value, _ =>
            assign "OPTIND" (Octets.ofNat (position + 1))
            assign "OPTARG" value
            assign name [letter]
        else
          move
          unsetVariable "OPTARG"
          assign name [letter]
      | _ => finish position
  | _ => fail (Octets.ofString "Usage: getopts optstring var [arg...]")

/-- Evaluates expressions; the last one decides the status. -/
def evaluateAll (arguments : List Octets) : ShellM Unit := do
  let mut last : Int := 0
  for a in arguments do
    last ← numberOf a
  setStatus (if last != 0 then 0 else 1)

end Sweep.Shell.Part
