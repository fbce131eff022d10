import Sweep.Shell.Regex
import Sweep.Shell.Tool.Listing

/-!
# Searching lines

`grep` prints the lines in which one of some expressions matches, with the lines around them if that
is asked for.
-/

namespace Sweep.Tool

structure SearchRequest where
  found : FoundOptions
  expressions : List Regex
  matching : Regex.Matching
  before : Nat := 0
  after : Nat := 0
  most : Option Nat := none
  separator : Char := '\n'
  hasNames : Bool := false

namespace SearchRequest

def has (r : SearchRequest) (c : Char) : Bool := r.found.has c

/-- The first of the longest matches of the expressions behind some bytes. -/
def matchAfter? (r : SearchRequest) (before rest : Octets) : Option Regex.Match :=
  let found := r.expressions.filterMap fun e =>
    if r.has 'x' then
      if before.isEmpty then (e.matchStart? r.matching rest).filter fun m => m.after.isEmpty
      else none
    else if r.has 'w' then e.findWordAfter? r.matching before rest
    else e.findAfter? r.matching before rest
  found.foldl (fun best m =>
    match best with
    | none => some m
    | some b =>
      if m.before.length < b.before.length ||
          (m.before.length == b.before.length && b.matched.length < m.matched.length) then some m
      else some b) none

/-- Whether a line is searched for. -/
def selects (r : SearchRequest) (line : Octets) : Bool :=
  let hit :=
    if r.has 'x' && !r.has 'w' then r.expressions.any fun e => e.matchesWhole r.matching line
    else (r.matchAfter? [] line).isSome
  hit != r.has 'v'

/-- All matches in a line with their places, with a bound on their number. -/
def matchesIn (r : SearchRequest) : Nat → Octets → Octets → List (Nat × Octets)
  | 0, _, _ => []
  | fuel + 1, before, rest =>
    match r.matchAfter? before rest with
    | none => []
    | some m =>
      let passed := m.matched.reverse ++ m.before.reverse
      if m.matched.isEmpty then
        match m.after with
        | [] => []
        | c :: after => r.matchesIn fuel (c :: passed) after
      else (m.before.length, m.matched) :: r.matchesIn fuel passed m.after

end SearchRequest

/-- A line of a text: its number, where it starts, and what it holds. -/
structure NumberedLine where
  number : Nat
  offset : Nat
  text : Octets

def numberedLines (separator : Char) (o : Octets) : List NumberedLine :=
  let lines := separatedLines separator o
  (lines.foldl (fun (s : List NumberedLine × Nat × Nat) line =>
    let text := if line.getLast? == some separator then line.dropLast else line
    (⟨s.2.1 + 1, s.2.2, text⟩ :: s.1, s.2.1 + 1, s.2.2 + line.length)) ([], 0, 0)).1.reverse

/-- What has been printed of a text. -/
structure SearchState where
  count : Nat := 0
  /-- The number of the last line that has been printed. -/
  printed : Nat := 0
  /-- How many lines after a selected one are still to be printed. -/
  pending : Nat := 0
  output : List Octets := []

namespace SearchRequest

/-- What stands before a line. -/
def label (r : SearchRequest) (name : Octets) (isSelected : Bool) (number offset : Nat) : Octets :=
  let mark := if isSelected then ':' else '-'
  let withTab (o : Octets) : Octets := o ++ [mark]
  (if r.hasNames then (if r.has 'Z' then name ++ ['\x00'] else withTab name) else []) ++
    (if r.has 'n' then withTab (Octets.ofNat number) else []) ++
    (if r.has 'b' then withTab (Octets.ofNat offset) else [])

/-- What is printed of a selected line. -/
def shown (r : SearchRequest) (name : Octets) (line : NumberedLine) : Octets :=
  if r.has 'o' then
    if r.has 'v' then []
    else (r.matchesIn (line.text.length + 2) [] line.text).flatMap fun (place, text) =>
      r.label name true line.number (line.offset + place) ++ text ++ [r.separator]
  else r.label name true line.number line.offset ++ line.text ++ [r.separator]

/-- Searches the lines of a text one after the other. The lines before are given, the last one
first. -/
def searchLines (r : SearchRequest) (name : Octets) (hasContext : Bool) :
    List NumberedLine → SearchState → List NumberedLine → SearchState
  | _, s, [] => s
  | before, s, line :: rest =>
    let isFull := r.most.any fun n => n ≤ s.count
    if isFull && s.pending = 0 then s
    else if !isFull && r.selects line.text then
      let context := ((before.take r.before).takeWhile fun l => s.printed < l.number).reverse
      let first := (context.head?.map NumberedLine.number).getD line.number
      let gap : List Octets :=
        if hasContext && s.printed != 0 && s.printed + 1 < first then [['-', '-', '\n']] else []
      let contextLines := context.map fun l =>
        if r.has 'o' then [] else r.label name false l.number l.offset ++ l.text ++ [r.separator]
      r.searchLines name hasContext (line :: before) {
        count := s.count + 1, printed := line.number, pending := r.after
        output := r.shown name line :: contextLines.reverse ++ gap ++ s.output } rest
    else if 0 < s.pending then
      let text := if r.has 'o' then []
        else r.label name false line.number line.offset ++ line.text ++ [r.separator]
      r.searchLines name hasContext (line :: before) { s with
        printed := line.number, pending := s.pending - 1, output := text :: s.output } rest
    else r.searchLines name hasContext (line :: before) s rest

end SearchRequest

/-- Searches a text and prints what is asked for; whether a line has been found. -/
def searchText (r : SearchRequest) (c : ToolCall) (name text : Octets) : ToolM Bool := do
  let has := r.has
  let hasContext := 0 < r.before || 0 < r.after
  let isCounted := has 'c' || has 'l' || has 'L' || has 'q'
  let most := if has 'l' || has 'L' || has 'q' then some 1 else r.most
  let isBinary := r.separator == '\n' && !has 'a' && text.contains '\x00'
  let lines := numberedLines r.separator text
  let s := { r with most := most }.searchLines name hasContext [] {} lines
  if has 'q' then pure ()
  else if has 'l' then
    if s.count != 0 then print (name ++ [if has 'Z' then '\x00' else '\n'])
  else if has 'L' then
    if s.count = 0 then print (name ++ [if has 'Z' then '\x00' else '\n'])
  else if has 'c' then
    print ((if r.hasNames then name ++ [':'] else []) ++ Octets.ofNat s.count ++ ['\n'])
  else if isBinary && !isCounted then
    if s.count != 0 && !has 'I' then
      tell (Octets.told s!"{c.name}: " name ": binary file matches\n")
  else print s.output.reverse.flatten
  return s.count != 0 && !(isBinary && has 'I')

/-- The files below a directory that are searched, with a bound on the depth. -/
def filesBelow (t : FileTree) (accepts : Octets → Bool) : Nat → Octets → List Octets
  | 0, _ => []
  | fuel + 1, path =>
    match t.list (Octets.toText path) with
    | .ok names => names.flatMap fun name =>
      let base := if path.getLast? == some '/' then path else path ++ ['/']
      let inner := base ++ Octets.ofString name
      if t.isDirectory (Octets.toText inner) then filesBelow t accepts fuel inner
      else if accepts (Octets.ofString name) then [inner] else []
    | .error _ => []

/-- How expressions are spelled. -/
inductive SearchSpelling where
  | basic
  | extended
  | rich
  | literal
deriving DecidableEq

/-- Whether an expression is the name of a class of bytes with no more brackets around it. -/
def isLoneClass (pattern : Octets) : Bool :=
  match pattern with
  | '[' :: ':' :: rest => rest.takeWhile Char.isAlpha ++ [':', ']'] == rest
  | _ => false

def grepAs (spelling : SearchSpelling) (c : ToolCall) : ToolM Unit := do
  let usage := "Usage: grep [OPTION]... PATTERNS [FILE]..."
  let forms : OptionForms := {
    usage
    plain := "EFGPiyvwxclLqsnhHobarRZzITU", valued := "emfABCdDαβδ", optional := "γ"
    misuseStatus := 2
    long := [("extended-regexp", 'E'), ("fixed-strings", 'F'), ("basic-regexp", 'G'),
      ("perl-regexp", 'P'), ("ignore-case", 'i'), ("invert-match", 'v'), ("word-regexp", 'w'),
      ("line-regexp", 'x'),
      ("count", 'c'), ("files-with-matches", 'l'), ("files-without-match", 'L'), ("quiet", 'q'),
      ("silent", 'q'), ("no-messages", 's'), ("line-number", 'n'), ("no-filename", 'h'),
      ("with-filename", 'H'), ("only-matching", 'o'), ("byte-offset", 'b'), ("text", 'a'),
      ("recursive", 'r'), ("null", 'Z'), ("null-data", 'z'), ("regexp", 'e'), ("file", 'f'),
      ("max-count", 'm'), ("after-context", 'A'), ("before-context", 'B'), ("context", 'C'),
      ("include", 'α'), ("exclude", 'β'), ("color", 'γ'), ("colour", 'γ'), ("line-buffered", 'U'),
      ("label", 'δ')] }
  -- A number behind a dash is a number of lines around a match.
  let arguments := c.arguments.map fun a =>
    match a with
    | '-' :: digits =>
      if !digits.isEmpty && digits.all Char.isDigit then '-' :: 'C' :: digits else a
    | a => a
  let (found, operands) ← forms.read { c with arguments }
  let count (letter : Char) (complaint : Octets → Octets) : ToolM (Option Nat) := do
    match found.value? letter with
    | none => return none
    | some o =>
      if o.isEmpty || !o.all Char.isDigit then c.fail 2 (complaint o)
      return some (Octets.digitsValue o)
  let most ← count 'm' fun _ => Octets.ofString "invalid max count"
  let lines (letter : Char) : ToolM (Option Nat) :=
    count letter fun o => o ++ Octets.ofString ": invalid context length argument"
  let around ← lines 'C'
  let before ← lines 'B'
  let after ← lines 'A'
  let (patterns, operands) ← if found.has 'e' || found.has 'f' then do
      let fromFiles ← (found.values 'f').mapM fun path => do
        let text ← if path == ['-'] then do pure (.ok (← readInput)) else readPath path
        match text with
        | .ok text => return Octets.lines text
        | .error fault => c.fail 2 (path ++ Octets.ofString s!": {fault.phrase}")
      pure ((found.values 'e').flatMap (Octets.splitAtEach '\n') ++ fromFiles.flatten, operands)
    else
      match operands with
      | pattern :: rest => pure (Octets.splitAtEach '\n' pattern, rest)
      | [] => do
        tell (Octets.ofString s!"{usage}\nTry '{c.name} --help' for more information.\n")
        stop 2
  let spelling := match found.last? "EFGP" with
    | some 'E' => SearchSpelling.extended
    | some 'P' => .rich
    | some 'F' => .literal
    | some _ => .basic
    | none => spelling
  let expressions ← patterns.mapM fun pattern => do
    if spelling = .literal then return Regex.literal pattern
    if isLoneClass pattern then
      c.fail 2 (Octets.ofString "character class syntax is [[:space:]], not [:space:]")
    let grammar : Regex.Grammar :=
      { isExtended := spelling != .basic, isLenient := true, isRich := spelling = .rich }
    match Regex.read grammar pattern with
    | .ok (regex, _) => return regex
    | .error fault => c.fail 2 (Octets.ofString fault.message)
  let isDeep := found.has 'r' || found.has 'R'
  let named := if operands.isEmpty then (if isDeep then [['.']] else [['-']]) else operands
  let accepts (name : Octets) : Bool :=
    let fits (pattern : Octets) : Bool := Glob.fitsMarks (pattern.map fun b => (b, false)) name
    let included := found.values 'α'
    (included.isEmpty || included.any fits) && !(found.values 'β').any fits
  let files := (← get).files
  let r : SearchRequest := {
    found, expressions, most
    matching := { ignoreCase := found.has 'i' || found.has 'y' }
    before := (before.or around).getD 0, after := (after.or around).getD 0
    separator := if found.has 'z' then '\x00' else '\n'
    hasNames := if found.last? "hH" == some 'h' then false
      else found.has 'H' || 1 < named.length || (isDeep && (operands.isEmpty ||
        files.isDirectory (Octets.toText (operands.headD [])))) }
  let visit (shown path : Octets) : ToolM Bool := do
    if path == ['-'] then
      searchText r c ((found.value? 'δ').getD (Octets.ofString "(standard input)")) (← readInput)
    else
      match ← readPath path with
      | .ok text => searchText r c shown text
      | .error fault =>
        if !found.has 's' then
          tell (Octets.told s!"{c.name}: " shown s!": {fault.phrase}\n")
        setStatus 2
        return false
  let mut anyFound := false
  for path in named do
    let t := (← get).files
    if isDeep && path != ['-'] && t.isDirectory (Octets.toText path) then
      for inner in filesBelow t accepts 1000 path do
        let shown := if operands.isEmpty then inner.drop 2 else inner
        if ← visit shown inner then anyFound := true
    else if ← visit path path then
      anyFound := true
      if found.has 'q' then stop 0
  if (← get).status = 0 || (anyFound && found.has 'q') then setStatus (if anyFound then 0 else 1)

end Sweep.Tool
