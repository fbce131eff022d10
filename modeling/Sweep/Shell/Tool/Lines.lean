import Sweep.Shell.Tool.Printing

/-!
# Tools for lines

Tools that print the lines of files or of their input, all of them or some, in another order or
with something added, or count them.
-/

namespace Sweep.Tool

/-- A number padded with blanks to a width. -/
def padLeft (width : Nat) (o : Octets) : Octets := List.replicate (width - o.length) ' ' ++ o

/-- The factor that the letters behind a number stand for. -/
def sizeFactor? (o : Octets) : Option Nat :=
  let power (c : Char) : Option Nat := ("KMGTPE".toList.idxOf? c.toUpper).map (· + 1)
  match o with
  | [] => some 1
  | ['b'] => some 512
  | [c] => if c == 'c' then some 1 else (power c).map fun n => Nat.pow 1024 n
  | [c, 'B'] => (power c).map fun n => Nat.pow 1000 n
  | [c, 'i', 'B'] => (power c).map fun n => Nat.pow 1024 n
  | _ => none

/-- A count with an optional factor behind it. -/
def size? (o : Octets) : Option Nat :=
  let digits := o.takeWhile Char.isDigit
  if digits.isEmpty then none
  else (sizeFactor? (o.drop digits.length)).map fun f => Octets.digitsValue digits * f

/-! ## Joining files -/

/-- How far `cat` has come. -/
structure CatState where
  number : Nat := 0
  blanks : Nat := 0
  atStart : Bool := true

/-- A byte in a form that can be seen. -/
def visibleByte (c : Char) : Octets :=
  let low (n : Nat) : Octets :=
    if n < 32 then ['^', Char.ofNat (n + 64)] else if n = 127 then ['^', '?'] else [Char.ofNat n]
  if 128 ≤ c.toNat then 'M' :: '-' :: low (c.toNat - 128) else low c.toNat

def catLine (has : Char → Bool) (s : CatState) (line : Octets) : Octets × CatState :=
  let isBlank := s.atStart && line == ['\n']
  let blanks := if isBlank then s.blanks + 1 else 0
  if has 's' && 1 < blanks then ([], { s with blanks })
  else
    let hasEnd := line.getLast? == some '\n'
    let isNumbered := s.atStart && (if has 'b' then !isBlank else has 'n')
    let number := if isNumbered then s.number + 1 else s.number
    let label := if isNumbered then padLeft 6 (Octets.ofNat number) ++ ['\t'] else []
    let body := if hasEnd then line.dropLast else line
    let body := body.flatMap fun c =>
      if c == '\t' then if has 'T' || has 'A' || has 't' then ['^', 'I'] else [c]
      else if has 'v' || has 'A' || has 'e' || has 't' then visibleByte c else [c]
    let finish := if has 'E' || has 'A' || has 'e' then ['$', '\n'] else ['\n']
    (label ++ body ++ (if hasEnd then finish else []), { number, blanks, atStart := hasEnd })

def cat (c : ToolCall) : ToolM Unit := do
  let forms : OptionForms := {
    plain := "AbeEnstTuv"
    long := [("show-all", 'A'), ("number-nonblank", 'b'), ("show-ends", 'E'), ("number", 'n'),
      ("squeeze-blank", 's'), ("show-tabs", 'T'), ("show-nonprinting", 'v')] }
  let (found, operands) ← forms.read c
  let operands := if operands.isEmpty then [['-']] else operands
  let mut s : CatState := {}
  for path in operands do
    match ← source? c {} path with
    | none => pure ()
    | some text =>
      if found.isEmpty then print text
      else
        let mut output : List Octets := []
        for line in fullLines text do
          let (shown, next) := catLine found.has s line
          output := shown :: output
          s := next
        print output.reverse.flatten

/-! ## Beginnings and ends -/

/-- Which part of a text is asked for. -/
structure PartRequest where
  count : Nat := 10
  sign : Option Char := none
  byBytes : Bool := false
  isQuiet : Bool := false
  isVerbose : Bool := false
  separator : Char := '\n'
  operands : List Octets := []

def separatedLines (separator : Char) (o : Octets) : List Octets :=
  if separator == '\n' then fullLines o
  else
    let pieces := Octets.splitAtEach separator o
    let last := pieces.getLast?.getD []
    pieces.dropLast.map (· ++ [separator]) ++ (if last.isEmpty then [] else [last])

/-- A number behind a dash, or behind a plus sign, stands for the number of lines. -/
def modernForm (allowsPlus : Bool) : List Octets → List Octets
  | ('-' :: d :: rest) :: more =>
    let digits := (d :: rest).takeWhile Char.isDigit
    if digits.isEmpty then ('-' :: d :: rest) :: more
    else
      match (d :: rest).drop digits.length with
      | [] => ['-', 'n'] :: digits :: more
      | ['l'] => ['-', 'n'] :: digits :: more
      | ['c'] => ['-', 'c'] :: digits :: more
      | ['q'] => ['-', 'q'] :: ['-', 'n'] :: digits :: more
      | _ => ('-' :: d :: rest) :: more
  | ('+' :: d :: rest) :: more =>
    if allowsPlus && (d :: rest).all Char.isDigit && more.length ≤ 1 then
      ['-', 'n'] :: ('+' :: d :: rest) :: more
    else ('+' :: d :: rest) :: more
  | arguments => arguments

def partRequest (allowsPlus : Bool) (c : ToolCall) : ToolM PartRequest := do
  let forms : OptionForms := {
    plain := "qvzfF", valued := "nc"
    long := [("lines", 'n'), ("bytes", 'c'), ("quiet", 'q'), ("silent", 'q'), ("verbose", 'v'),
      ("zero-terminated", 'z'), ("follow", 'f')] }
  let (found, operands) ← forms.read { c with arguments := modernForm allowsPlus c.arguments }
  let byBytes := found.last? "nc" == some 'c'
  let text := (found.value? (if byBytes then 'c' else 'n')).getD "10".toList
  let (sign, digits) := match text with
    | '-' :: rest => (some '-', rest)
    | '+' :: rest => (some '+', rest)
    | rest => (none, rest)
  match size? digits with
  | some count =>
    return {
      count, sign, byBytes, operands
      isQuiet := found.last? "qv" == some 'q', isVerbose := found.last? "qv" == some 'v'
      separator := if found.has 'z' then '\x00' else '\n' }
  | none =>
    let what := if byBytes then "bytes" else "lines"
    c.fail 1 (Octets.ofString s!"invalid number of {what}: " ++ Octets.quoted text)

/-- Prints a part of every source, under its name if there are several. -/
def printSections (c : ToolCall) (r : PartRequest) (part rest : Octets → Octets) :
    ToolM Unit := do
  let operands := if r.operands.isEmpty then [['-']] else r.operands
  let hasTitles := r.isVerbose || (1 < operands.length && !r.isQuiet)
  let title (isFirst : Bool) (path : Octets) : ToolM Unit := do
    if hasTitles then
      let name := if path == ['-'] then Octets.ofString "standard input" else path
      print ((if isFirst then [] else ['\n']) ++ Octets.told "==> " name " <==\n")
  let mut isFirst := true
  for path in operands do
    if path == ['-'] then
      title isFirst path
      isFirst := false
      let s ← get
      set { s with input := if s.inputSize.isSome then rest s.input else [] }
      print (part s.input)
    else
      match ← readPath path with
      | .ok text =>
        title isFirst path
        isFirst := false
        print (part text)
      | .error .isDirectory =>
        title isFirst path
        isFirst := false
        c.complain 1 (Octets.ofString "error reading " ++ Octets.quoted path ++
          Octets.ofString ": Is a directory")
      | .error fault =>
        c.complain 1 (Octets.ofString "cannot open " ++ Octets.quoted path ++
          Octets.ofString s!" for reading: {fault.phrase}")

/-- Prints the beginning of a text. -/
def head (c : ToolCall) : ToolM Unit := do
  let r ← partRequest false c
  let first {α : Type} (xs : List α) : List α :=
    if r.sign == some '-' then xs.take (xs.length - r.count) else xs.take r.count
  let part (o : Octets) : Octets :=
    if r.byBytes then first o else (first (separatedLines r.separator o)).flatten
  printSections c r part fun o => o.drop (part o).length

/-- Prints the end of a text. -/
def tail (c : ToolCall) : ToolM Unit := do
  let r ← partRequest true c
  let last {α : Type} (xs : List α) : List α :=
    if r.sign == some '+' then xs.drop (r.count - 1) else xs.drop (xs.length - r.count)
  let part (o : Octets) : Octets :=
    if r.byBytes then last o else (last (separatedLines r.separator o)).flatten
  printSections c r part fun _ => []

/-! ## Other orders -/

/-- Prints the lines of every source from the last to the first. -/
def reverseOrder (c : ToolCall) : ToolM Unit := do
  let (_, operands) ← { plain := "br", valued := "s" : OptionForms }.read c
  let faults : SourceFaults := {
    unopened := fun path phrase =>
      Octets.told "failed to open " (Octets.quoted path) " for reading: " ++ phrase
    directory := fun path phrase =>
      Octets.told "" (Octets.quotedIfNeeded path) ": read error: " ++ phrase }
  forSources c faults operands fun _ text => print (fullLines text).reverse.flatten

/-- Prints every line from its last byte to its first. -/
def reverseLines (c : ToolCall) : ToolM Unit := do
  let (_, operands) ← { plain := "" : OptionForms }.read c
  let faults : SourceFaults := {
    unopened := fun path phrase => Octets.told "cannot open " path ": " ++ phrase }
  forSources c faults operands fun _ text =>
    print ((fullLines text).flatMap fun line =>
      if line.getLast? == some '\n' then line.dropLast.reverse ++ ['\n'] else line.reverse)

/-! ## Numbers of lines -/

/-- Which lines get a number. -/
def isNumberedLine (style : Octets) (line : Octets) : Bool :=
  match style with
  | ['a'] => true
  | ['n'] => false
  | _ => !line.isEmpty

def numberLines (c : ToolCall) : ToolM Unit := do
  let forms : OptionForms := {
    plain := "p", valued := "bdfhilnsvw"
    long := [("body-numbering", 'b'), ("number-width", 'w'), ("number-separator", 's'),
      ("starting-line-number", 'v'), ("line-increment", 'i'), ("number-format", 'n')] }
  let (found, operands) ← forms.read c
  let style := (found.value? 'b').getD ['t']
  let width := ((found.value? 'w').map Octets.digitsValue).getD 6
  let separator := (found.value? 's').getD ['\t']
  let increment := ((found.value? 'i').bind Octets.toInt?).getD 1
  let form := (found.value? 'n').getD "rn".toList
  let text ← joinedSources c {} operands
  let mut number := ((found.value? 'v').bind Octets.toInt?).getD 1
  let mut output : List Octets := []
  for line in Octets.lines text do
    if isNumberedLine style line then
      let digits := Octets.ofInt number
      let shown := if form == "ln".toList then digits ++ List.replicate (width - digits.length) ' '
        else if form == "rz".toList then
          (if number < 0 then ['-'] else []) ++
            List.replicate (width - digits.length) '0' ++ Octets.ofNat number.natAbs
        else padLeft width digits
      output := (shown ++ separator ++ line ++ ['\n']) :: output
      number := number + increment
    else
      output := (List.replicate (width + separator.length) ' ' ++ line ++ ['\n']) :: output
  print output.reverse.flatten

/-! ## Counts -/

/-- The number of words of a text; a byte that cannot be seen begins none. -/
def wordCount (o : Octets) : Nat :=
  (o.foldl (fun (n, isInside) c =>
    if Octets.isSpace c then (n, false)
    else if !isInside && Octets.isPrintable c then (n + 1, true)
    else (n, isInside)) ((0 : Nat), false)).1

/-- The greatest width of the lines of a text. -/
def greatestWidth (o : Octets) : Nat :=
  (o.foldl (fun (best, column) c =>
    if c == '\n' || c == '\r' || c == '\x0c' then (max best column, 0)
    else if c == '\t' then (max best (column + 8 - column % 8), column + 8 - column % 8)
    else if Octets.isPrintable c then (max best (column + 1), column + 1)
    else (best, column)) ((0 : Nat), (0 : Nat))).1

def count (c : ToolCall) : ToolM Unit := do
  let forms : OptionForms := {
    plain := "clmwL"
    long := [("bytes", 'c'), ("chars", 'm'), ("lines", 'l'), ("words", 'w'),
      ("max-line-length", 'L')] }
  let (found, operands) ← forms.read c
  let has (letter : Char) : Bool :=
    found.has letter || (found.isEmpty && "lwc".toList.contains letter)
  let counts (o : Octets) : List Nat :=
    (if has 'l' then [(o.filter (· == '\n')).length] else []) ++
    (if has 'w' then [wordCount o] else []) ++ (if has 'm' then [o.length] else []) ++
    (if has 'c' then [o.length] else []) ++ (if has 'L' then [greatestWidth o] else [])
  let columns := (counts []).length
  let named := if operands.isEmpty then [['-']] else operands
  let s ← get
  let sizes : List (Option Nat) := named.map fun path =>
    if path == ['-'] then s.inputSize
    else
      match s.files.find (Octets.toText path) with
      | .ok (.file content _) => some content.size
      | .ok .directory => none
      | .error _ => some 0
  let sum := (sizes.map fun size => size.getD 0).foldl (· + ·) 0
  let width := if named.length = 1 && columns = 1 then 1
    else max (if sizes.any Option.isNone then 7 else 1) (Octets.ofNat sum).length
  let line (name : Octets) (ns : List Nat) : Octets :=
    [' '].intercalate (ns.map fun n => padLeft width (Octets.ofNat n)) ++
      (if name.isEmpty then [] else ' ' :: name) ++ ['\n']
  let mut sums := counts []
  for path in named do
    let text ← if path == ['-'] then do pure (some (← readInput))
      else
        match ← readPath path with
        | .ok text => pure (some text)
        | .error .isDirectory =>
          c.complain 1 (path ++ Octets.ofString ": Is a directory")
          pure (some [])
        | .error fault =>
          c.complain 1 (Octets.quotedIfNeeded path ++ Octets.ofString s!": {fault.phrase}")
          pure none
    match text with
    | none => pure ()
    | some text =>
      let own := counts text
      print (line (if operands.isEmpty then [] else path) own)
      sums := if has 'L' then
          (List.zipWith (· + ·) sums.dropLast own.dropLast) ++
            [max (sums.getLast?.getD 0) (own.getLast?.getD 0)]
        else List.zipWith (· + ·) sums own
  if 1 < named.length then print (line (Octets.ofString "total") sums)

/-! ## Widths -/

def columnAfter (byBytes : Bool) (column : Nat) (c : Char) : Nat :=
  if byBytes then column + 1
  else if c == '\x08' then column - 1
  else if c == '\r' then 0
  else if c == '\t' then column + 8 - column % 8
  else column + 1

/-- A line cut into pieces of a width, at blanks if asked for. The piece that is being read is kept
from its end. -/
def foldLine (byBytes atBlanks : Bool) (width : Nat) : Nat → Octets → Nat → Octets → Octets
  | 0, piece, _, rest => piece.reverse ++ rest
  | _ + 1, piece, _, [] => piece.reverse
  | fuel + 1, piece, column, c :: rest =>
    if c == '\n' then piece.reverse ++ '\n' :: foldLine byBytes atBlanks width fuel [] 0 rest
    else
      let next := columnAfter byBytes column c
      if next ≤ width then foldLine byBytes atBlanks width fuel (c :: piece) next rest
      else
        let after := piece.takeWhile fun d => d != ' ' && d != '\t'
        if atBlanks && after.length < piece.length then
          let before := piece.drop after.length
          let column := after.reverse.foldl (columnAfter byBytes) 0
          before.reverse ++ '\n' :: foldLine byBytes atBlanks width fuel after column (c :: rest)
        else if piece.isEmpty then foldLine byBytes atBlanks width fuel [c] next rest
        else piece.reverse ++ '\n' :: foldLine byBytes atBlanks width fuel [] 0 (c :: rest)

/-- Cuts lines into pieces of a width. -/
def fold (c : ToolCall) : ToolM Unit := do
  let arguments := match c.arguments with
    | ('-' :: d :: rest) :: more =>
      if d.isDigit then (['-', 'w'] : Octets) :: (d :: rest) :: more else c.arguments
    | arguments => arguments
  let forms : OptionForms := {
    plain := "bs", valued := "w", long := [("bytes", 'b'), ("spaces", 's'), ("width", 'w')] }
  let (found, operands) ← forms.read { c with arguments }
  let text := (found.value? 'w').getD "80".toList
  match size? text with
  | some width =>
    if width = 0 then c.fail 1 (Octets.ofString "invalid number of columns: " ++ Octets.quoted text)
    forSources c {} operands fun _ o =>
      print (foldLine (found.has 'b') (found.has 's') width (3 * o.length + 3) [] 0 o)
  | none => c.fail 1 (Octets.ofString "invalid number of columns: " ++ Octets.quoted text)

/-- Writes blanks for tabs. -/
def expandTabs (c : ToolCall) : ToolM Unit := do
  let forms : OptionForms := {
    plain := "i", valued := "t", long := [("tabs", 't'), ("initial", 'i')] }
  let (found, operands) ← forms.read c
  let width := max 1 (((found.value? 't').map Octets.digitsValue).getD 8)
  forSources c {} operands fun _ text =>
    let step (s : List Octets × Nat) (b : Char) : List Octets × Nat :=
      if b == '\t' then
        let n := width - s.2 % width
        (List.replicate n ' ' :: s.1, s.2 + n)
      else if b == '\n' then (['\n'] :: s.1, 0)
      else ([b] :: s.1, s.2 + 1)
    print (text.foldl step ([], 0)).1.reverse.flatten

/-! ## Lines side by side -/

/-- The bytes of a list of delimiters; a zero stands for no byte. -/
def delimiterList : Octets → List Octets
  | '\\' :: c :: rest =>
    let found : Octets := match c with
      | 'n' => ['\n']
      | 't' => ['\t']
      | '0' => []
      | c => [c]
    found :: delimiterList rest
  | c :: rest => [c] :: delimiterList rest
  | [] => []

/-- Fields with delimiters between them, which are taken in turn. -/
def interlaced (delimiters : List Octets) (fields : List Octets) : Octets :=
  match fields with
  | [] => []
  | first :: rest =>
    first ++ rest.zipIdx.flatMap fun (field, i) =>
      (delimiters[i % delimiters.length]?).getD [] ++ field

/-- The rows of several columns that may share the input, with a bound on their number. A column is
the number of the text that it reads from. -/
def pasteRows (delimiters : List Octets) (columns : List Nat) :
    Nat → List (Nat × List Octets) → List Octets
  | 0, _ => []
  | fuel + 1, texts =>
    let step (s : List (Option Octets) × List (Nat × List Octets)) (n : Nat) :
        List (Option Octets) × List (Nat × List Octets) :=
      let lines := ((s.2.find? fun t => t.1 == n).map (·.2)).getD []
      (s.1 ++ [lines.head?], (n, lines.drop 1) :: s.2.filter fun t => t.1 != n)
    let (row, texts) := columns.foldl step ([], texts)
    if row.all Option.isNone then []
    else
      interlaced delimiters (row.map fun f => f.getD []) ::
        pasteRows delimiters columns fuel texts

/-- Puts the lines of several sources side by side. -/
def paste (c : ToolCall) : ToolM Unit := do
  let forms : OptionForms := {
    plain := "sz", valued := "d", long := [("delimiters", 'd'), ("serial", 's')] }
  let (found, operands) ← forms.read c
  let delimiters := delimiterList ((found.value? 'd').getD ['\t'])
  let delimiters := if delimiters.isEmpty then [[]] else delimiters
  let operands := if operands.isEmpty then [['-']] else operands
  let mut texts : List (Nat × List Octets) := []
  let mut columns : List Nat := []
  for (path, i) in operands.zipIdx do
    if path == ['-'] then
      columns := columns ++ [0]
      if !texts.any fun t => t.1 == 0 then
        texts := texts ++ [(0, Octets.lines (← readInput))]
    else
      match ← readPath path with
      | .ok text =>
        columns := columns ++ [i + 1]
        texts := texts ++ [(i + 1, Octets.lines text)]
      | .error fault =>
        c.complain 1 (Octets.quotedIfNeeded path ++ Octets.ofString s!": {fault.phrase}")
        if !found.has 's' then throw ()
  if found.has 's' then
    let mut used : List Nat := []
    for n in columns do
      let lines :=
        if used.contains n then [] else ((texts.find? fun t => t.1 == n).map (·.2)).getD []
      used := n :: used
      print (interlaced delimiters lines ++ ['\n'])
  else
    let bound := (texts.map fun t => t.2.length).foldl (· + ·) 1
    print (Octets.unlines (pasteRows delimiters columns bound texts))

/-! ## Copies -/

/-- Prints the input and writes it into files. -/
def tee (c : ToolCall) : ToolM Unit := do
  let forms : OptionForms := {
    plain := "aip", long := [("append", 'a'), ("ignore-interrupts", 'i')] }
  let (found, operands) ← forms.read c
  let text ← readInput
  for operand in operands do
    match ← writePath operand text (found.has 'a') with
    | .ok () => pure ()
    | .error fault =>
      c.complain 1 (Octets.quotedIfNeeded operand ++ Octets.ofString s!": {fault.phrase}")
  print text

/-- How often a line is printed that should be printed forever. -/
def manyTimes : Nat := 20000

/-- Prints a line again and again. -/
def repeatLine (c : ToolCall) : ToolM Unit := do
  let line := (if c.arguments.isEmpty then ['y'] else joined c.arguments) ++ ['\n']
  print (List.replicate manyTimes line).flatten

/-- The endings of the names of pieces. -/
def pieceName (isNumeric : Bool) (width n : Nat) : Octets :=
  let base := if isNumeric then 10 else 26
  let first := if isNumeric then '0' else 'a'
  ((List.range width).foldl (fun (s : Octets × Nat) _ =>
    (Char.ofNat (first.toNat + s.2 % base) :: s.1, s.2 / base)) ([], n)).1

/-- Cuts a list into pieces of a size, with a bound on their number. -/
def inPieces {α : Type} (size : Nat) : Nat → List α → List (List α)
  | 0, _ | _, [] => []
  | fuel + 1, xs => xs.take (max size 1) :: inPieces size fuel (xs.drop (max size 1))

/-- Cuts a text into files. -/
def split (c : ToolCall) : ToolM Unit := do
  let forms : OptionForms := {
    plain := "d", valued := "lba"
    long := [("lines", 'l'), ("bytes", 'b'), ("suffix-length", 'a'), ("numeric-suffixes", 'd')] }
  let (found, operands) ← forms.read c
  let text ← match operands.head? with
    | none | some ['-'] => readInput
    | some path =>
      match ← readPath path with
      | .ok text => pure text
      | .error fault =>
        c.fail 1 (Octets.ofString "cannot open " ++ Octets.quoted path ++
          Octets.ofString s!" for reading: {fault.phrase}")
  let start := (operands.drop 1).headD ['x']
  let width := ((found.value? 'a').map Octets.digitsValue).getD 2
  let pieces := match (found.value? 'b').bind size? with
    | some n => inPieces n (text.length + 1) text
    | none =>
      let n := ((found.value? 'l').bind size?).getD 1000
      (inPieces n (text.length + 1) (fullLines text)).map List.flatten
  for (piece, i) in pieces.zipIdx do
    let _ ← writePath (start ++ pieceName (found.has 'd') width i) piece false

end Sweep.Tool
