import Sweep.Files.Tree
import Sweep.Shell.Tool.Entries

/-!
# Tools for names

Tools that list directories, take paths apart, and tell what is known of files and of the system.
-/

namespace Sweep.Tool

/-! ## Directories -/

/-- An entry of a list: its name as it is shown, and what it leads to. -/
structure Entry where
  name : Octets
  node : FileNode

namespace Entry

def size (e : Entry) : Nat :=
  match e.node with
  | .file content _ => content.size
  | .directory => 4096

def isDirectory (e : Entry) : Bool :=
  match e.node with
  | .directory => true
  | .file _ _ => false

def mode (e : Entry) : Octets :=
  match e.node with
  | .directory => "drwxr-xr-x".toList
  | .file _ true => "-rwxr-xr-x".toList
  | .file _ false => "-rw-r--r--".toList

/-- The mark behind a name. -/
def mark (found : FoundOptions) (e : Entry) : Octets :=
  if found.has 'F' || found.has 'p' then
    match e.node with
    | .directory => ['/']
    | .file _ true => if found.has 'F' then ['*'] else []
    | .file _ false => []
  else []

end Entry

def sortEntries (found : FoundOptions) (entries : List Entry) : List Entry :=
  if found.has 'U' || found.has 'f' then entries
  else
    let byName (a b : Entry) : Bool := Octets.le a.name b.name
    let le (a b : Entry) : Bool :=
      if found.last? "StvX" == some 'S' && a.size != b.size then b.size < a.size else byName a b
    let sorted := entries.mergeSort le
    if found.has 'r' then (entries.mergeSort fun a b => le b a) else sorted

def entryLines (found : FoundOptions) (entries : List Entry) : Octets :=
  let shown (e : Entry) : Octets :=
    (if found.has 'Q' then '"' :: e.name ++ ['"'] else e.name) ++ e.mark found
  if (found.last? "l1CxmgnoF").any fun c => "lgno".toList.contains c then
    let width := (entries.map fun e => (Octets.ofNat e.size).length).foldl max 1
    Octets.unlines (entries.map fun e =>
      e.mode ++ Octets.ofString " 1 root root " ++ padLeft width (Octets.ofNat e.size) ++
        Octets.ofString " Jan  1 00:00 " ++ shown e)
  else if found.has 'm' then
    if entries.isEmpty then [] else [',', ' '].intercalate (entries.map shown) ++ ['\n']
  else Octets.unlines (entries.map shown)

def shownEntries (found : FoundOptions) (t : FileTree) (path : String) :
    Except FileFault (List Entry) := do
  let names ← t.list path
  let isAll := found.has 'a' || found.has 'f'
  let names := if isAll || found.has 'A' then names
    else names.filter fun n => n.toList.head? != some '.'
  let names := if isAll then "." :: ".." :: names else names
  return names.filterMap fun name =>
    if name == "." || name == ".." then some ⟨name.toList, .directory⟩
    else
      match t.find (Path.join path name) with
      | .ok node => some ⟨Octets.ofString name, node⟩
      | .error _ => none

/-- Lists a directory, and those below it if that is asked for. The flags say whether its name is
shown and whether it comes first. -/
def listDirectory (found : FoundOptions) (hasTitle : Bool) :
    Nat → Bool → Octets → ToolM Unit
  | 0, _, _ => return
  | fuel + 1, isFirst, path => do
    let t := (← get).files
    match shownEntries found t (Octets.toText path) with
    | .error _ => return
    | .ok entries =>
      let entries := sortEntries found entries
      if hasTitle then print ((if isFirst then [] else ['\n']) ++ path ++ [':', '\n'])
      if (found.last? "l1CxmgnoF").any fun c => "lgno".toList.contains c then
        let blocks := (entries.map fun e => (e.size + 4095) / 4096 * 4).foldl (· + ·) 0
        printLine (Octets.ofString s!"total {toString blocks}")
      print (entryLines found entries)
      if found.has 'R' then
        for e in entries do
          if e.isDirectory && e.name != ['.'] && e.name != ['.', '.'] then
            let base := if path.getLast? == some '/' then path else path ++ ['/']
            listDirectory found hasTitle fuel false (base ++ e.name)

def list (c : ToolCall) : ToolM Unit := do
  let forms : OptionForms := {
    plain := "aAbBcCdfFgGhHiklLmnNopqQrRsStuUvxXZ1", valued := "ITw", misuseStatus := 2
    optional := "α"
    long := [("all", 'a'), ("almost-all", 'A'), ("directory", 'd'), ("reverse", 'r'),
      ("recursive", 'R'), ("classify", 'F'), ("human-readable", 'h'), ("color", 'α'),
      ("size", 's'), ("sort", 'I')] }
  let (found, operands) ← forms.read c
  let isAlone := operands.length ≤ 1
  let operands := if operands.isEmpty then [['.']] else operands
  let mut files : List Entry := []
  let mut directories : List Entry := []
  for o in operands do
    let path := Octets.toText o
    match (← get).files.find path with
    | .ok .directory =>
      if found.has 'd' then files := files ++ [⟨o, .directory⟩]
      else directories := directories ++ [⟨o, .directory⟩]
    | .ok node => files := files ++ [⟨o, node⟩]
    | .error fault =>
      if isDevice path then files := files ++ [⟨o, .file .empty false⟩]
      else
        c.complain 2 (Octets.told "cannot access " (Octets.quoted o) s!": {fault.phrase}")
  let status := (← get).status
  if !files.isEmpty then
    print (entryLines found (sortEntries found files))
    if !directories.isEmpty then print ['\n']
  let hasTitle := !isAlone || found.has 'R'
  let mut isFirst := true
  for d in sortEntries found directories do
    listDirectory found hasTitle 1000 isFirst d.name
    isFirst := false
  setStatus status
where
  isDevice (path : String) : Bool := path == "/dev/null"

/-! ## Paths -/

def withoutEndSlashes (o : Octets) : Octets :=
  let trimmed := (o.reverse.dropWhile (· == '/')).reverse
  if trimmed.isEmpty && !o.isEmpty then ['/'] else trimmed

/-- Prints the last components of paths, without a given ending. -/
def basename (c : ToolCall) : ToolM Unit := do
  let forms : OptionForms := {
    plain := "az", valued := "s", isOrdered := true
    long := [("multiple", 'a'), ("suffix", 's'), ("zero", 'z')] }
  let (found, operands) ← forms.read c
  if operands.isEmpty then c.misuse 1 (Octets.ofString "missing operand")
  let isMany := found.has 'a' || found.has 's'
  let (paths, ending) ← match operands with
    | [path, ending] =>
      if isMany then pure (operands, (found.value? 's').getD []) else pure ([path], ending)
    | operands =>
      match isMany, operands.drop 2 with
      | false, extra :: _ => c.misuse 1 (Octets.ofString "extra operand " ++ Octets.quoted extra)
      | _, _ => pure (operands, (found.value? 's').getD [])
  for path in paths do
    let path := withoutEndSlashes path
    let name := if path == ['/'] then path else lastComponent path
    let name := if !ending.isEmpty && ending.reverse.isPrefixOf name.reverse && ending != name then
        name.take (name.length - ending.length)
      else name
    print (name ++ [if found.has 'z' then '\x00' else '\n'])

/-- Prints paths without their last components. -/
def dirname (c : ToolCall) : ToolM Unit := do
  let forms : OptionForms := { plain := "z", isOrdered := true, long := [("zero", 'z')] }
  let (found, operands) ← forms.read c
  if operands.isEmpty then c.misuse 1 (Octets.ofString "missing operand")
  for path in operands do
    let path := withoutEndSlashes path
    let above := (path.reverse.dropWhile (· != '/')).reverse
    let shown := if above.isEmpty then ['.'] else withoutEndSlashes above
    print (shown ++ [if found.has 'z' then '\x00' else '\n'])

/-- The absolute path that a path leads to, by its text alone as far as it does not exist. -/
def absolutePath (t : FileTree) (needsAll needsParent : Bool) (path : String) :
    Except FileFault String :=
  match t.locate path with
  | .ok place =>
    if needsAll && (t.nodeAt? place.way).isNone then .error .notFound
    else .ok (FileTree.absolute place.way)
  | .error fault =>
    if needsAll || needsParent then .error fault
    else
      let start := if Path.isAbsolute path then [] else t.current
      let way := (Path.pieces path).foldl (fun way piece =>
        if piece == "." then way else if piece == ".." then way.dropLast else way ++ [piece]) start
      .ok (FileTree.absolute way)

def realPath (c : ToolCall) : ToolM Unit := do
  let forms : OptionForms := {
    plain := "eLmPqsz"
    long := [("canonicalize-existing", 'e'), ("canonicalize-missing", 'm'), ("quiet", 'q'),
      ("no-symlinks", 's'), ("zero", 'z')] }
  let (found, operands) ← forms.read c
  if operands.isEmpty then c.misuse 1 (Octets.ofString "missing operand")
  for o in operands do
    match absolutePath (← get).files (found.has 'e') (!found.has 'm') (Octets.toText o) with
    | .ok path => printLine (Octets.ofString path)
    | .error fault =>
      if !found.has 'q' then
        c.complain 1 (Octets.quotedIfNeeded o ++ Octets.ofString s!": {fault.phrase}")
      setStatus 1

/-- Prints what links lead to; there are none, so paths are made absolute at most. -/
def readLink (c : ToolCall) : ToolM Unit := do
  let forms : OptionForms := {
    plain := "efmnqsvz", long := [("canonicalize", 'f'), ("canonicalize-existing", 'e'),
      ("canonicalize-missing", 'm'), ("no-newline", 'n')] }
  let (found, operands) ← forms.read c
  if operands.isEmpty then c.misuse 1 (Octets.ofString "missing operand")
  for o in operands do
    if found.has 'f' || found.has 'e' || found.has 'm' then
      match absolutePath (← get).files (found.has 'e') (!found.has 'm') (Octets.toText o) with
      | .ok path => print (Octets.ofString path ++ (if found.has 'n' then [] else ['\n']))
      | .error _ => setStatus 1
    else setStatus 1

def currentPath (_ : ToolCall) : ToolM Unit := do
  printLine (Octets.ofString (FileTree.absolute (← get).files.current))

/-- Prints what is known of files by a form. -/
def status (c : ToolCall) : ToolM Unit := do
  let forms : OptionForms := {
    plain := "fLt", valued := "cα", long := [("format", 'c'), ("printf", 'α'), ("terse", 't')] }
  let (found, operands) ← forms.read c
  if operands.isEmpty then c.misuse 1 (Octets.ofString "missing operand")
  let (form, finish) : Octets × Octets := match found.value? 'α' with
    | some form => ((unescapeAll PrintStyle.program.formatRule form).1, [])
    | none => ((found.value? 'c').getD ['%', 'n'], ['\n'])
  for o in operands do
    match (← get).files.find (Octets.toText o) with
    | .error fault =>
      c.complain 1 (Octets.told "cannot statx " (Octets.quoted o) s!": {fault.phrase}")
    | .ok node =>
      let e : Entry := ⟨o, node⟩
      let value (letter : Char) : Octets := match letter with
        | 'n' => o
        | 'N' => Octets.quoted o
        | 's' => Octets.ofNat e.size
        | 'F' => Octets.ofString (if e.isDirectory then "directory"
            else if e.size = 0 then "regular empty file" else "regular file")
        | 'a' => if e.mode.contains 'x' then "755".toList else "644".toList
        | 'A' => e.mode
        | 'U' | 'G' => "root".toList
        | 'u' | 'g' => ['0']
        | 'h' => ['1']
        | '%' => ['%']
        | letter => [letter]
      let rec expand : Octets → Octets
        | '%' :: letter :: rest => value letter ++ expand rest
        | b :: rest => b :: expand rest
        | [] => []
      print (expand form ++ finish)

/-! ## The system -/

def printEnvironment (c : ToolCall) : ToolM Unit := do
  let (_, operands) ← { plain := "0", isOrdered := true, misuseStatus := 2 : OptionForms }.read c
  if operands.isEmpty then
    for (name, value) in c.environment do printLine (Octets.ofString name ++ '=' :: value)
  else
    for o in operands do
      match c.environment.find? fun v => v.1 == Octets.toText o with
      | some (_, value) => printLine value
      | none => setStatus 1

/-- Waits, which takes no time here. -/
def sleep (c : ToolCall) : ToolM Unit := do
  let (_, operands) ← { plain := "" : OptionForms }.read c
  if operands.isEmpty then c.misuse 1 (Octets.ofString "missing operand")
  let isInterval (o : Octets) : Bool :=
    let digits := o.takeWhile fun b => b.isDigit || b == '.'
    digits.any Char.isDigit && (digits.filter (· == '.')).length ≤ 1 &&
      ["", "s", "m", "h", "d"].contains (String.ofList (o.drop digits.length))
  let bad := operands.filter fun o => !isInterval o
  for o in bad do c.complain 1 (Octets.ofString "invalid time interval " ++ Octets.quoted o)
  if !bad.isEmpty then
    tell (Octets.ofString s!"Try '{c.name} --help' for more information.\n")

/-- Tells who is at work. -/
def identity (c : ToolCall) : ToolM Unit := do
  let forms : OptionForms := {
    plain := "ugGnrz", long := [("user", 'u'), ("group", 'g'), ("name", 'n')] }
  let (found, _) ← forms.read c
  if found.has 'n' then printLine (Octets.ofString "root")
  else if found.has 'u' || found.has 'g' || found.has 'G' then printLine ['0']
  else printLine (Octets.ofString "uid=0(root) gid=0(root) groups=0(root)")

def systemName (c : ToolCall) : ToolM Unit := do
  let forms : OptionForms := { plain := "asnrvmpio" }
  let (found, _) ← forms.read c
  let shown := (if found.isEmpty || found.has 's' then ["Linux"] else []) ++
    (if found.has 'm' then ["x86_64"] else []) ++ (if found.has 'o' then ["GNU/Linux"] else [])
  printLine (Octets.ofString (" ".intercalate shown))

end Sweep.Tool
