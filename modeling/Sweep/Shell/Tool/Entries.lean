import Sweep.Files.Directories
import Sweep.Shell.Tool.Lines

/-!
# Tools for files

Tools that make, move, copy and remove files and directories. `cmp` tells where two files differ
first, and `diff` which lines have to be changed to come from one file to the other.
-/

namespace Sweep.Tool

/-- Changes the files for an operand; a change that fails is told and passed over. Whether it has
been made. -/
def attempt (c : ToolCall) (change : FileTree → Except FileFault FileTree)
    (complaint : FileFault → Octets) : ToolM Bool := do
  let s ← get
  match change s.files with
  | .ok files =>
    set { s with files }
    return true
  | .error fault =>
    c.complain 1 (complaint fault)
    return false

def about (before : String) (name : Octets) (fault : FileFault) : Octets :=
  Octets.ofString before ++ Octets.quoted name ++ Octets.ofString s!": {fault.phrase}"

/-! ## Making -/

/-- Makes files that are not there yet. -/
def touch (c : ToolCall) : ToolM Unit := do
  let forms : OptionForms := {
    plain := "acfhm", valued := "drt"
    long := [("no-create", 'c'), ("date", 'd'), ("reference", 'r')] }
  let (found, operands) ← forms.read c
  if operands.isEmpty then c.misuse 1 (Octets.ofString "missing file operand")
  for o in operands do
    let path := Octets.toText o
    let make (t : FileTree) : Except FileFault FileTree :=
      match t.find path with
      | .ok _ => .ok t
      | .error .notFound => if found.has 'c' then .ok t else t.writeBytes path .empty
      | .error fault => .error fault
    let _ ← attempt c make (about "cannot touch " o)

/-- Makes directories. -/
def makeDirectory (c : ToolCall) : ToolM Unit := do
  let forms : OptionForms := {
    plain := "pv", valued := "m", long := [("parents", 'p'), ("mode", 'm'), ("verbose", 'v')] }
  let (found, operands) ← forms.read c
  if operands.isEmpty then c.misuse 1 (Octets.ofString "missing operand")
  let tellMade (o : Octets) : ToolM Unit := do
    if found.has 'v' then
      printLine (Octets.ofString "mkdir: created directory " ++ Octets.quoted o)
  for o in operands do
    let path := Octets.toText o
    if found.has 'p' then
      let rec go : List String → ToolM Unit
        | [] => return
        | part :: rest => do
          let t := (← get).files
          if t.isDirectory part then go rest
          else if !rest.isEmpty && t.leadsSomewhere part then
            c.complain 1 (about "cannot create directory " (Octets.ofString part) .notDirectory)
          else
            let isMade ← attempt c (fun t => t.makeDirectory part)
              (about "cannot create directory " (Octets.ofString part))
            if isMade then
              tellMade (Octets.ofString part)
              go rest
      go (FileTree.ancestors path)
    else
      let make (t : FileTree) : Except FileFault FileTree := t.makeDirectory path
      if ← attempt c make (about "cannot create directory " o) then tellMade o

/-! ## Removing -/

/-- Removes empty directories. -/
def removeDirectory (c : ToolCall) : ToolM Unit := do
  let forms : OptionForms := {
    plain := "pv", long := [("parents", 'p'), ("verbose", 'v'), ("ignore-fail-on-non-empty", 'α')] }
  let (found, operands) ← forms.read c
  if operands.isEmpty then c.misuse 1 (Octets.ofString "missing operand")
  for o in operands do
    let paths :=
      if found.has 'p' then (FileTree.ancestors (Octets.toText o)).reverse else [Octets.toText o]
    let rec go : List String → ToolM Unit
      | [] => return
      | path :: rest => do
        let shown := Octets.ofString path
        if found.has 'v' then
          printLine (Octets.ofString "rmdir: removing directory, " ++ Octets.quoted shown)
        let s ← get
        match s.files.removeDirectory path with
        | .ok files =>
          set { s with files }
          go rest
        | .error fault =>
          if !(found.has 'α' && fault = .notEmpty) then
            c.complain 1 (about "failed to remove " shown fault)
    go paths

/-- The last component of a path without the slashes behind it. -/
def lastComponent (o : Octets) : Octets :=
  ((o.reverse.dropWhile (· == '/')).takeWhile (· != '/')).reverse

/-- Tells what is removed with a directory, what is below it first. -/
def tellRemoved (t : FileTree) : Nat → Octets → ToolM Unit
  | 0, _ => return
  | fuel + 1, o => do
    match t.list (Octets.toText o) with
    | .ok names =>
      for name in names do tellRemoved t fuel (o ++ '/' :: Octets.ofString name)
      printLine (Octets.ofString "removed directory " ++ Octets.quoted o)
    | .error _ => printLine (Octets.ofString "removed " ++ Octets.quoted o)

/-- Removes files, and directories if that is asked for. -/
def remove (c : ToolCall) : ToolM Unit := do
  let forms : OptionForms := {
    plain := "dfiIrRv"
    long := [("recursive", 'r'), ("force", 'f'), ("dir", 'd'), ("verbose", 'v'),
      ("interactive", 'i'), ("no-preserve-root", 'α'), ("preserve-root", 'α')] }
  let (found, operands) ← forms.read c
  let isDeep := found.has 'r' || found.has 'R'
  let isForced := found.last? "fi" == some 'f'
  if operands.isEmpty && !isForced then c.misuse 1 (Octets.ofString "missing operand")
  for o in operands do
    let path := Octets.toText o
    let last := lastComponent o
    if isDeep && (last == ['.'] || last == ['.', '.']) then
      c.complain 1
        (Octets.ofString "refusing to remove '.' or '..' directory: skipping " ++ Octets.quoted o)
    else
      let before := (← get).files
      let change (t : FileTree) : Except FileFault FileTree := do
        match t.find path with
        | .error fault =>
          if isForced && (fault = .notFound || fault = .notDirectory) then .ok t else .error fault
        | .ok .directory =>
          if isDeep then t.removeAll path
          else if found.has 'd' then t.removeDirectory path
          else .error .isDirectory
        | .ok _ => t.removeFile path
      if ← attempt c change (about "cannot remove " o) then
        if found.has 'v' && before.leadsSomewhere path then tellRemoved before 1000 o

/-! ## Moving and copying -/

/-- The sources and the target of a tool that moves or copies. The flag says that the target is a
directory to put the sources into. -/
def targetOperands (c : ToolCall) (into : Option Octets) (isExact : Bool) (operands : List Octets) :
    ToolM (List Octets × Octets × Bool) := do
  match into, operands with
  | some target, _ :: _ =>
    match (← get).files.find (Octets.toText target) with
    | .ok .directory => return (operands, target, true)
    | .ok _ => c.fail 1 (about "target directory " target .notDirectory)
    | .error fault => c.fail 1 (about "target directory " target fault)
  | _, [] => c.misuse 1 (Octets.ofString "missing file operand")
  | none, [one] =>
    c.misuse 1 (Octets.ofString "missing destination file operand after " ++ Octets.quoted one)
  | none, operands =>
    let target := operands.getLast?.getD []
    let sources := operands.dropLast
    let found := (← get).files.find (Octets.toText target)
    if isExact then
      match sources with
      | [_] => return (sources, target, false)
      | _ =>
        c.misuse 1 (Octets.ofString "extra operand " ++ Octets.quoted ((operands.drop 2).headD []))
    match found with
    | .ok .directory => return (sources, target, true)
    | .ok _ =>
      if 1 < sources.length then c.fail 1 (about "target " target .notDirectory)
      return (sources, target, false)
    | .error fault =>
      if 1 < sources.length then c.fail 1 (about "target " target fault)
      return (sources, target, false)

def pathInto (directory source : Octets) : Octets :=
  let base := if directory.getLast? == some '/' then directory else directory ++ ['/']
  base ++ lastComponent source

/-- Two names in a message. -/
def betweenNames (before : String) (a : Octets) (middle : String) (b : Octets) : Octets :=
  Octets.ofString before ++ Octets.quoted a ++ Octets.ofString middle ++ Octets.quoted b

def isSameWay (t : FileTree) (a b : String) : Bool :=
  match t.locate a, t.locate b with
  | .ok x, .ok y => x.way == y.way
  | _, _ => false

/-- Whether a path leads to a place below another one. -/
def isBelow (t : FileTree) (inner outer : String) : Bool :=
  match t.locate inner, t.locate outer with
  | .ok x, .ok y => y.way.isPrefixOf x.way
  | _, _ => false

/-- Moves one file or directory; whether it has been moved. -/
def moveOne (c : ToolCall) (source target : Octets) : ToolM Bool := do
  let s ← get
  let t := s.files
  let from' := Octets.toText source
  let to' := Octets.toText target
  match t.find from' with
  | .error fault =>
    c.complain 1 (about "cannot stat " source fault)
    return false
  | .ok node =>
    if isSameWay t from' to' then
      if t.isDirectory from' then
        c.complain 1 (betweenNames "cannot move " source " to a subdirectory of itself, "
          (pathInto target source))
      else
        c.complain 1 (betweenNames "" source " and " target ++ Octets.ofString " are the same file")
      return false
    let cannot (fault : FileFault) : ToolM Bool := do
      c.complain 1
        (betweenNames "cannot move " source " to " target ++ Octets.ofString s!": {fault.phrase}")
      return false
    match t.locate from', t.locate to' with
    | .ok start, .ok goal =>
      match node, t.nodeAt? goal.way with
      | .directory, some (.file _ _) =>
        c.complain 1
          (betweenNames "cannot overwrite non-directory " target " with directory " source)
        return false
      | .directory, some .directory =>
        match t.list to' with
        | .ok [] =>
          set { s with files := t.moveBelow start.way goal.way }
          return true
        | _ => cannot .notEmpty
      | .directory, none =>
        if isBelow t to' from' then
          c.complain 1 (betweenNames "cannot move " source " to a subdirectory of itself, " target)
          return false
        else
          set { s with files := t.moveBelow start.way goal.way }
          return true
      | .file _ _, some .directory =>
        c.complain 1 (Octets.ofString "cannot overwrite directory " ++ Octets.quoted target ++
          Octets.ofString " with non-directory")
        return false
      | .file _ _, _ =>
        match t.rename from' to' with
        | .ok files =>
          set { s with files }
          return true
        | .error fault => cannot fault
    | .ok _, .error fault => cannot fault
    | .error fault, _ => cannot fault

/-- Moves files and directories. -/
def move (c : ToolCall) : ToolM Unit := do
  let forms : OptionForms := {
    plain := "bfinTuv", valued := "tS"
    long := [("force", 'f'), ("no-clobber", 'n'), ("interactive", 'i'), ("verbose", 'v'),
      ("target-directory", 't'), ("no-target-directory", 'T'), ("update", 'u')] }
  let (found, operands) ← forms.read c
  let (sources, target, isInto) ← targetOperands c (found.value? 't') (found.has 'T') operands
  for source in sources do
    let goal := if isInto then pathInto target source else target
    let isKept := found.has 'n' && (← get).files.leadsSomewhere (Octets.toText goal)
    if !isKept then
      if ← moveOne c source goal then
        if found.has 'v' then printLine (betweenNames "renamed " source " -> " goal)

/-- Copies one file; whether it has been copied. -/
def copyFile (c : ToolCall) (source target : Octets) : ToolM Bool := do
  let s ← get
  let t := s.files
  let from' := Octets.toText source
  let to' := Octets.toText target
  if isSameWay t from' to' then
    c.complain 1 (betweenNames "" source " and " target ++ Octets.ofString " are the same file")
    return false
  else if t.isDirectory to' then
    c.complain 1 (Octets.ofString "cannot overwrite directory " ++ Octets.quoted target ++
      Octets.ofString " with non-directory")
    return false
  else if from' == "/dev/null" || from' == "/dev/stdin" then
    let text := if from' == "/dev/null" then [] else s.input
    attempt c (fun t => t.writeBytes to' (Octets.toBytes text))
      (about "cannot create regular file " target)
  else
    match t.find from' with
    | .ok (.file content executable) =>
      attempt c (fun t => t.change to' (fun _ => content) executable)
        (about "cannot create regular file " target)
    | .ok .directory => return false
    | .error fault =>
      c.complain 1 (about "cannot stat " source fault)
      return false

/-- Copies a directory with everything below it, with a bound on the depth. -/
def copyTree (c : ToolCall) (isTold : Bool) : Nat → Octets → Octets → ToolM Unit
  | 0, _, _ => return
  | fuel + 1, source, target => do
    let t := (← get).files
    let from' := Octets.toText source
    let to' := Octets.toText target
    match t.find from' with
    | .ok .directory =>
      if !t.isDirectory to' then
        if t.leadsSomewhere to' then
          c.complain 1
            (betweenNames "cannot overwrite non-directory " target " with directory " source)
          return
        if !(← attempt c (fun t => t.makeDirectory to')
            (about "cannot create directory " target)) then return
        if isTold then printLine (betweenNames "" source " -> " target)
      match t.list from' with
      | .ok names =>
        for name in names do
          copyTree c isTold fuel (source ++ '/' :: Octets.ofString name)
            (target ++ '/' :: Octets.ofString name)
      | .error _ => return
    | _ =>
      if ← copyFile c source target then
        if isTold then printLine (betweenNames "" source " -> " target)

/-- Copies files and directories. -/
def copy (c : ToolCall) : ToolM Unit := do
  let forms : OptionForms := {
    plain := "abdfHilLnpPrRsTuvx", valued := "tS"
    long := [("recursive", 'r'), ("archive", 'a'), ("force", 'f'), ("no-clobber", 'n'),
      ("verbose", 'v'), ("target-directory", 't'), ("no-target-directory", 'T'), ("update", 'u'),
      ("preserve", 'p')] }
  let (found, operands) ← forms.read c
  let isDeep := found.has 'r' || found.has 'R' || found.has 'a'
  let (sources, target, isInto) ← targetOperands c (found.value? 't') (found.has 'T') operands
  for source in sources do
    let goal := if isInto then pathInto target source else target
    let t := (← get).files
    let isKept := found.has 'n' && t.isFile (Octets.toText goal)
    if t.isDirectory (Octets.toText source) then
      if !isDeep then
        c.complain 1
          (Octets.ofString "-r not specified; omitting directory " ++ Octets.quoted source)
      else if isBelow t (Octets.toText goal) (Octets.toText source) then
        let _ ← attempt c (fun t => if t.isDirectory (Octets.toText goal) then .ok t
          else t.makeDirectory (Octets.toText goal)) (about "cannot create directory " goal)
        c.complain 1 (betweenNames "cannot copy a directory, " source ", into itself, " goal)
      else copyTree c (found.has 'v') 1000 source goal
    else if !isKept then
      if ← copyFile c source goal then
        if found.has 'v' then printLine (betweenNames "" source " -> " goal)

/-- Gives a file another name as well. The two are kept apart from then on. -/
def link (c : ToolCall) : ToolM Unit := do
  let forms : OptionForms := {
    plain := "bdfFiLnPrsTv", valued := "tS"
    long := [("symbolic", 's'), ("force", 'f'), ("no-dereference", 'n'), ("verbose", 'v'),
      ("target-directory", 't'), ("relative", 'r')] }
  let (found, operands) ← forms.read c
  let (sources, target, isInto) ← match operands with
    | [] => c.misuse 1 (Octets.ofString "missing file operand")
    | [one] =>
      match found.value? 't' with
      | some target => pure ([one], target, true)
      | none => pure ([one], (['.'] : Octets), true)
    | operands => targetOperands c (found.value? 't') (found.has 'T') operands
  let kind := if found.has 's' then "symbolic" else "hard"
  for source in sources do
    let goal := if isInto then pathInto target source else target
    let s ← get
    if s.files.leadsSomewhere (Octets.toText goal) && !found.has 'f' then
      c.complain 1 (about s!"failed to create {kind} link " goal .alreadyExists)
    else
      match s.files.find (Octets.toText source) with
      | .ok (.file content executable) =>
        let _ ← attempt c (fun t => t.change (Octets.toText goal) (fun _ => content) executable)
          (about s!"failed to create {kind} link " goal)
      | .ok .directory =>
        if found.has 's' then
          let _ ← attempt c (fun t => do
            let start ← t.locate (Octets.toText source)
            let goal ← t.locate (Octets.toText goal)
            return t.copyBelow start.way goal.way) (about "failed to create symbolic link " goal)
        else
          c.complain 1
            (Octets.quoted source ++ Octets.ofString ": hard link not allowed for directory")
      | .error fault => c.complain 1 (about "failed to access " source fault)

/-! ## Modes -/

/-- Whether a mode is well-formed. -/
def isMode (mode : Octets) : Bool :=
  let isOctal := !mode.isEmpty && mode.all fun c => '0' ≤ c && c ≤ '7'
  let isClause (o : Octets) : Bool :=
    let rest := o.dropWhile fun c => "ugoa".toList.contains c
    match rest with
    | c :: more => "+-=".toList.contains c && more.all fun d => "rwxXstugo+-=".toList.contains d
    | [] => false
  isOctal && mode.length ≤ 5 || !mode.isEmpty && (Octets.splitAtEach ',' mode).all isClause

/-- Whether a file can be executed after its mode has been changed. -/
def executableAfter (mode : Octets) (before : Bool) : Bool :=
  if mode.all Char.isDigit then mode.any fun c => (c.toNat - '0'.toNat) % 2 == 1
  else
    (Octets.splitAtEach ',' mode).foldl (fun isSet clause =>
      let who := clause.takeWhile fun c => "ugoa".toList.contains c
      let isEveryone := who.isEmpty || who.contains 'a' ||
        "ugo".toList.all fun c => who.contains c
      match clause.drop who.length with
      | '+' :: bits => isSet || bits.contains 'x'
      | '-' :: bits => if bits.contains 'x' && isEveryone then false else isSet
      | '=' :: bits => bits.contains 'x' || (isSet && !isEveryone)
      | _ => isSet) before

/-- Changes the modes of files. -/
def changeMode (c : ToolCall) : ToolM Unit := do
  let forms : OptionForms := {
    plain := "cfRv"
    long := [("recursive", 'R'), ("verbose", 'v'), ("changes", 'c'), ("silent", 'f')] }
  -- A mode may begin with a dash.
  let isOption (o : Octets) : Bool := match o with
    | '-' :: rest => !rest.isEmpty && !rest.all fun c => "rwxXst".toList.contains c
    | _ => false
  let options := c.arguments.filter isOption
  let (found, _) ← forms.read { c with arguments := options.filter fun o => o != ['-', '-'] }
  match c.arguments.filter fun o => !isOption o with
  | [] => c.misuse 1 (Octets.ofString "missing operand")
  | [mode] => c.misuse 1 (Octets.ofString "missing operand after " ++ Octets.quoted mode)
  | mode :: operands =>
    if !isMode mode then c.misuse 1 (Octets.ofString "invalid mode: " ++ Octets.quoted mode)
    for o in operands do
      let change (t : FileTree) : Except FileFault FileTree := do
        let place ← t.locate (Octets.toText o)
        match ← t.find (Octets.toText o) with
        | .directory =>
          if !found.has 'R' then return t
          let root := FileTree.absolute place.way
          return { t with nodes := (t.below place.way).foldl (fun nodes (rest, node) =>
            match node with
            | .file content executable =>
              nodes.insert (root ++ "/" ++ rest) (.file content (executableAfter mode executable))
            | .directory => nodes) t.nodes }
        | .file content executable =>
          return t.put place.way (.file content (executableAfter mode executable))
      let _ ← attempt c change (about "cannot access " o)

/-- Makes a file or directory under a name that is not used yet. -/
def makeTemporary (c : ToolCall) : ToolM Unit := do
  let forms : OptionForms := {
    plain := "dqtu", valued := "p"
    long := [("directory", 'd'), ("quiet", 'q'), ("dry-run", 'u'), ("tmpdir", 'p')] }
  let (found, operands) ← forms.read c
  let isDefault := operands.isEmpty
  let pattern := operands.headD "tmp.XXXXXXXXXX".toList
  let marks := (pattern.reverse.dropWhile (· != 'X')).takeWhile (· == 'X')
  if marks.length < 3 then
    c.fail 1 (Octets.ofString "too few X's in template " ++ Octets.quoted pattern)
  let ending := (pattern.reverse.takeWhile (· != 'X')).reverse
  let start := pattern.take (pattern.length - ending.length - marks.length)
  let directory := ((c.environment.find? fun v => v.1 == "TMPDIR").map (·.2)).getD "/tmp".toList
  let start := match found.value? 'p' with
    | some d => d ++ '/' :: start
    | none => if isDefault || found.has 't' then directory ++ '/' :: start else start
  let s ← get
  let t :=
    if isDefault then (s.files.makeDirectories (Octets.toText directory)).toOption.getD s.files
    else s.files
  let candidate (n : Nat) : Octets :=
    let digits := Octets.ofNat n
    start ++ List.replicate (marks.length - digits.length) 'a' ++ digits ++ ending
  let path := ((List.range 1000).map candidate).find? fun o => !t.leadsSomewhere (Octets.toText o)
  let path := path.getD (candidate 0)
  let made := if found.has 'u' then .ok t
    else if found.has 'd' then t.makeDirectory (Octets.toText path)
    else t.writeBytes (Octets.toText path) .empty
  match made with
  | .ok files =>
    set { s with files }
    printLine path
  | .error fault =>
    let what := if found.has 'd' then "directory" else "file"
    c.fail 1 (Octets.told s!"failed to create {what} via template "
      (Octets.quoted (start ++ marks ++ ending)) s!": {fault.phrase}")

/-! ## Comparing -/

/-! ### Bytes -/

/-- The first place where two texts differ, counted from one, with its line; or where one of them
ends. -/
inductive FirstDifference where
  | none
  | byte (place line : Nat)
  /-- The text that ends first, and where it does. -/
  | ended (isFirst : Bool) (place line : Nat)

def firstDifference : Nat → Nat → Octets → Octets → FirstDifference
  | _, _, [], [] => .none
  | place, line, [], _ => .ended true place line
  | place, line, _, [] => .ended false place line
  | place, line, a :: as, b :: bs =>
    if a == b then firstDifference (place + 1) (if a == '\n' then line + 1 else line) as bs
    else .byte place line

/-- The places where two texts differ, with their bytes. -/
def differences : Nat → Octets → Octets → List (Nat × Nat × Nat)
  | place, a :: as, b :: bs =>
    if a == b then differences (place + 1) as bs
    else (place, a.toNat, b.toNat) :: differences (place + 1) as bs
  | _, _, _ => []

/-- Compares the bytes of two files. -/
def compareFiles : Tool := fun c => do
  let misuse {α : Type} (message : Octets) : ToolM α := do
    c.complain 2 message
    c.fail 2 (Octets.ofString s!"Try '{c.name} --help' for more information.")
  let forms : OptionForms := {
    plain := "bls", valued := "in", misuseStatus := 2
    long := [("silent", 's'), ("quiet", 's'), ("verbose", 'l'), ("print-bytes", 'b')] }
  let (found, operands) ← forms.read c
  match operands with
  | [] => misuse (Octets.ofString s!"missing operand after '{c.name}'")
  | a :: rest =>
    let b := rest.headD ['-']
    let read (path : Octets) : ToolM Octets := do
      if path == ['-'] then readInput
      else match ← readPath path with
      | .ok text => return text
      | .error fault =>
        if !found.has 's' then
          c.complain 2 (path ++ Octets.ofString s!": {fault.phrase}")
        stop 2
    let x ← read a
    let y ← read b
    let endMessage (isFirst : Bool) (place line : Nat) (hasPlace : Bool) : ToolM Unit := do
      let (path, text) := if isFirst then (a, x) else (b, y)
      let behind :=
        if place = 1 then " which is empty"
        else
          let byte := s!" after byte {toString (place - 1)}"
          if hasPlace then byte
          else if text.getLast? == some '\n' then s!"{byte}, line {toString (line - 1)}"
          else s!"{byte}, in line {toString line}"
      c.complain 1 (Octets.told "EOF on " path behind)
    setStatus 0
    match firstDifference 1 1 x y with
    | .none => return
    | found? =>
      setStatus 1
      if found.has 's' then return
      if found.has 'l' then
        for (place, p, q) in differences 1 x y do
          let octal (n : Nat) : Octets :=
            let digits := Nat.toDigits 8 n
            List.replicate (3 - digits.length) ' ' ++ digits
          let width := (toString (max x.length y.length)).length
          let shown := Octets.ofNat place
          let padding := List.replicate (width - shown.length) ' '
          printLine (padding ++ shown ++ ' ' :: octal p ++ ' ' :: octal q)
        if x.length != y.length then
          endMessage (x.length < y.length) (min x.length y.length + 1) 1 true
      else
        match found? with
        | .byte place line =>
          printLine (a ++ ' ' :: b ++
            Octets.ofString s!" differ: char {toString place}, line {toString line}")
        | .ended isFirst place line => endMessage isFirst place line false
        | .none => return

/-! ### Lines -/

/-- A stretch of lines that has to be changed: where it begins in the two files, and its lines. -/
structure Hunk where
  oldStart : Nat
  newStart : Nat
  old : List Octets
  new : List Octets

/-- The lengths of the longest common parts of what follows from every place on; the rows belong to
the lines of the first list. -/
def commonLengths (same : Octets → Octets → Bool) (as bs : List Octets) : Array (Array Nat) :=
  let zero : Array Nat := Array.replicate (bs.length + 1) 0
  (as.foldr (fun a (rows : List (Array Nat)) =>
    let below := rows.headD zero
    let row := (bs.zipIdx.foldr (fun (b, j) (found : List Nat) =>
      let n := if same a b then below.getD (j + 1) 0 + 1
        else max (below.getD j 0) (found.headD 0)
      n :: found) [0]).toArray
    row :: rows) [zero]).toArray

/-- What has to be done with the lines: a line that stays, one that goes, or one that comes. -/
inductive LineEdit where
  | keep (line : Octets)
  | remove (line : Octets)
  | add (line : Octets)

/-- The edits that keep as many lines as possible, with a bound on their number. -/
def lineEdits (same : Octets → Octets → Bool) (lengths : Array (Array Nat)) :
    Nat → Nat → Nat → List Octets → List Octets → List LineEdit
  | 0, _, _, _, _ => []
  | _ + 1, _, _, [], bs => bs.map .add
  | _ + 1, _, _, as, [] => as.map .remove
  | fuel + 1, i, j, a :: as, b :: bs =>
    let at_ (i j : Nat) : Nat := (lengths.getD i #[]).getD j 0
    if same a b then .keep a :: lineEdits same lengths fuel (i + 1) (j + 1) as bs
    else if at_ i (j + 1) ≤ at_ (i + 1) j then
      .remove a :: lineEdits same lengths fuel (i + 1) j as (b :: bs)
    else .add b :: lineEdits same lengths fuel i (j + 1) (a :: as) bs

/-- The stretches of edits that change something. The numbers count the lines that have been
passed. -/
def hunks : Nat → Nat → Option Hunk → List LineEdit → List Hunk
  | _, _, open?, [] => open?.toList
  | i, j, open?, edit :: rest =>
    let h : Hunk := open?.getD ⟨i, j, [], []⟩
    match edit with
    | .keep _ => open?.toList ++ hunks (i + 1) (j + 1) none rest
    | .remove line => hunks (i + 1) j (some { h with old := h.old ++ [line] }) rest
    | .add line => hunks i (j + 1) (some { h with new := h.new ++ [line] }) rest

/-- A line with a sign before it, and a remark if it has no end. -/
def signedLine (sign : String) (line : Octets) : Octets :=
  if line.getLast? == some '\n' then Octets.ofString sign ++ line
  else Octets.ofString sign ++ line ++ "\n\\ No newline at end of file\n".toList

/-- A stretch in the plain form. -/
def Hunk.plain (h : Hunk) : Octets :=
  let span (start count : Nat) : String :=
    if count ≤ 1 then toString (start + count)
    else s!"{toString (start + 1)},{toString (start + count)}"
  let letter := if h.new.isEmpty then "d" else if h.old.isEmpty then "a" else "c"
  Octets.ofString s!"{span h.oldStart h.old.length}{letter}{span h.newStart h.new.length}\n" ++
    h.old.flatMap (signedLine "< ") ++
    (if h.old.isEmpty || h.new.isEmpty then [] else "---\n".toList) ++
    h.new.flatMap (signedLine "> ")

/-- Edits in stretches with some lines around them. -/
structure Window where
  oldStart : Nat
  newStart : Nat
  edits : List LineEdit

/-- Joins the edits that are near to one another, with some lines before and behind. The state holds
the window that is open with the number of kept lines at its end, and the lines before. -/
def windows (around : Nat) :
    Nat → Nat → Option (Window × Nat) → List Octets → List LineEdit → List Window
  | _, _, open?, _, [] => (open?.map fun (w, kept) =>
      { w with edits := w.edits.take (w.edits.length - (kept - around)) }).toList
  | i, j, open?, before, edit :: rest =>
    match edit with
    | .keep line =>
      let before := (line :: before).take around
      match open? with
      | some (w, kept) =>
        if 2 * around ≤ kept then
          let closed := { w with edits := w.edits.take (w.edits.length - (kept - around)) }
          closed :: windows around (i + 1) (j + 1) none before rest
        else
          let wider := { w with edits := w.edits ++ [edit] }
          windows around (i + 1) (j + 1) (some (wider, kept + 1)) before rest
      | none => windows around (i + 1) (j + 1) none before rest
    | edit =>
      let w := match open? with
        | some (w, _) => w
        | none => ⟨i - before.length, j - before.length, before.reverse.map .keep⟩
      let (i, j) : Nat × Nat := match edit with
        | .remove _ => (i + 1, j)
        | _ => (i, j + 1)
      windows around i j (some ({ w with edits := w.edits ++ [edit] }, 0)) [] rest

def Window.joined (w : Window) : Octets :=
  let old := (w.edits.filter fun e => match e with
    | .add _ => false
    | _ => true).length
  let new := (w.edits.filter fun e => match e with
    | .remove _ => false
    | _ => true).length
  let span (start count : Nat) : String :=
    if count = 1 then toString (start + 1)
    else if count = 0 then s!"{toString start},0" else s!"{toString (start + 1)},{toString count}"
  Octets.ofString s!"@@ -{span w.oldStart old} +{span w.newStart new} @@\n" ++
    w.edits.flatMap fun e => match e with
      | .keep line => signedLine " " line
      | .remove line => signedLine "-" line
      | .add line => signedLine "+" line

/-- What two lines have in common under the options. -/
def sameLine (found : FoundOptions) (a b : Octets) : Bool :=
  let normal (o : Octets) : Octets :=
    let o := if found.has 'i' then o.map Char.toLower else o
    if found.has 'w' then o.filter fun c => !Octets.isSpace c
    else if found.has 'b' then
      let squeeze (s : Octets) (c : Char) : Octets :=
        if Octets.isSpace c then (if s.head? == some ' ' then s else ' ' :: s) else c :: s
      ((o.foldl squeeze []).dropWhile (· == ' ')).reverse
    else o
  normal a == normal b

/-- Compares two files line by line. -/
def compareByLine : Tool := fun c => do
  let forms : OptionForms := {
    plain := "abBcdeiNqrstTuwyn", valued := "CFILUWxXS", misuseStatus := 2
    long := [("brief", 'q'), ("report-identical-files", 's'), ("unified", 'u'),
      ("ignore-case", 'i'), ("ignore-all-space", 'w'), ("ignore-space-change", 'b'),
      ("ignore-blank-lines", 'B'),
      ("recursive", 'r'), ("new-file", 'N'), ("text", 'a')] }
  let (found, operands) ← match ← forms.read c with
    | (found, [a, b]) => pure (found, a, b)
    | (_, []) =>
      c.complain 2 (Octets.ofString s!"missing operand after '{c.name}'")
      c.fail 2 (Octets.ofString s!"Try '{c.name} --help' for more information.")
    | (_, [a]) =>
      c.complain 2 (Octets.told "missing operand after '" a "'")
      c.fail 2 (Octets.ofString s!"Try '{c.name} --help' for more information.")
    | (_, _ :: _ :: extra :: _) =>
      c.complain 2 (Octets.told "extra operand '" extra "'")
      c.fail 2 (Octets.ofString s!"Try '{c.name} --help' for more information.")
  let t := (← get).files
  let (a, b) := operands
  let isDirectory (path : Octets) : Bool := t.isDirectory (Octets.toText path)
  let inside (directory path : Octets) : Octets := directory ++ '/' :: lastComponent path
  let (a, b) :=
    if isDirectory a && !isDirectory b then (inside a b, b)
    else if isDirectory b && !isDirectory a then (a, inside b a)
    else (a, b)
  let read (path : Octets) : ToolM (Option Octets) := do
    if path == ['-'] then return some (← readInput)
    match ← readPath path with
    | .ok text => return some text
    | .error fault =>
      c.complain 2 (path ++ Octets.ofString s!": {fault.phrase}")
      return none
  match ← read a, ← read b with
  | some x, some y =>
    let as := fullLines x
    let bs := fullLines y
    let same := sameLine found
    let edits := lineEdits same (commonLengths same as bs) (as.length + bs.length + 1) 0 0 as bs
    let changes := hunks 0 0 none edits
    let changes := if found.has 'B' then
        changes.filter fun h => (h.old ++ h.new).any fun line => line != ['\n']
      else changes
    if changes.isEmpty then
      if found.has 's' then
        printLine (Octets.told "Files " a " and " ++ b ++ " are identical".toList)
      setStatus 0
    else
      setStatus 1
      if found.has 'q' then printLine (Octets.told "Files " a " and " ++ b ++ " differ".toList)
      else if found.has 'u' || found.has 'U' then
        let around := ((found.value? 'U').map Octets.digitsValue).getD 3
        -- When the files were changed last is not known.
        let stamp := "\t1970-01-01 00:00:00.000000000 +0000\n".toList
        print ("--- ".toList ++ a ++ stamp ++ "+++ ".toList ++ b ++ stamp)
        print ((windows around 0 0 none [] edits).flatMap Window.joined)
      else print (changes.flatMap Hunk.plain)
  | _, _ => setStatus 2

end Sweep.Tool
