import Sweep.Number.Leading
import Sweep.Shell.Tool.Lines

/-!
# Tools for sorted lines

Lines are sorted by keys, each of which is a part of the line that is compared in a way of its own.
Sorted lines are told only once, compared with those of another file, or joined to them.
-/

namespace Sweep.Tool

/-! ## Orders -/

def compareBytes : Octets → Octets → Ordering
  | [], [] => .eq
  | [], _ => .lt
  | _, [] => .gt
  | a :: as, b :: bs => if a == b then compareBytes as bs else if a < b then .lt else .gt

/-- A decimal: its sign, its whole part without zeros before it, and its fraction without zeros
behind it. -/
structure Decimal where
  isNegative : Bool
  whole : Octets
  fraction : Octets

/-- The decimal at the start of a text, and what follows it. -/
def decimalOf (o : Octets) : Decimal × Octets :=
  let o := o.dropWhile fun c => c == ' ' || c == '\t' || c == '\n'
  let (isNegative, o) := match o with
    | '-' :: rest => (true, rest)
    | rest => (false, rest)
  let whole := o.takeWhile Char.isDigit
  let rest := o.drop whole.length
  let (fraction, rest) := match rest with
    | '.' :: more => (more.takeWhile Char.isDigit, more.dropWhile Char.isDigit)
    | rest => ([], rest)
  let whole := whole.dropWhile (· == '0')
  let fraction := (fraction.reverse.dropWhile (· == '0')).reverse
  ({ isNegative := isNegative && !(whole.isEmpty && fraction.isEmpty), whole, fraction }, rest)

/-- The order of the absolute values of decimals. -/
def compareSizes (a b : Decimal) : Ordering :=
  (compare a.whole.length b.whole.length).then
    ((compareBytes a.whole b.whole).then (compareBytes a.fraction b.fraction))

def compareDecimals (a b : Decimal) : Ordering :=
  match a.isNegative, b.isNegative with
  | true, false => .lt
  | false, true => .gt
  | false, false => compareSizes a b
  | true, true => compareSizes b a

/-- The order of the numbers at the start of two texts; what is no number comes first. -/
def compareGeneral (a b : Octets) : Ordering :=
  let rank : Option Number.LeadingValue → Nat
    | none => 0
    | some .nan => 1
    | some (.infinite true) => 2
    | some (.ratio _ _ _) => 3
    | some (.infinite false) => 4
  let x : Option Number.LeadingValue := (Number.leading? a).map (·.1)
  let y : Option Number.LeadingValue := (Number.leading? b).map (·.1)
  match x, y with
  | some (.ratio s n d), some (.ratio t m e) =>
    let signed (isNegative : Bool) (n : Nat) : Int := if isNegative then -(n : Int) else n
    compare (signed s n * e) (signed t m * d)
  | x, y => compare (rank x) (rank y)

/-- The order of sizes such as `10K`: by the letter first, and then by the number. -/
def compareHuman (a b : Octets) : Ordering :=
  let (x, afterX) := decimalOf a
  let (y, afterY) := decimalOf b
  let rank (x : Decimal) (rest : Octets) : Int :=
    let isZero := x.whole.isEmpty && x.fraction.isEmpty
    let unit? := rest.head?.bind fun c => "KMGTPEZY".toList.idxOf? (if c == 'k' then 'K' else c)
    let n : Int := (unit?.map fun i => ((i : Int) + 1)).getD 0
    if isZero then 0 else if x.isNegative then -n else n
  (compare (rank x afterX) (rank y afterY)).then (compareDecimals x y)

/-- The number of the month at the start of a text. -/
def monthOf (o : Octets) : Nat :=
  let name := ((o.dropWhile fun c => c == ' ' || c == '\t').take 3).map Char.toUpper
  (["JAN", "FEB", "MAR", "APR", "MAY", "JUN", "JUL", "AUG", "SEP", "OCT", "NOV", "DEC"].idxOf?
    (String.ofList name)).map (· + 1) |>.getD 0

/-- The weight of a byte in a version; letters come before other bytes, and a tilde before the
end. -/
def versionWeight : Option Char → Int
  | none => -1
  | some c =>
    if c.isDigit then 0
    else if c.isAlpha then c.toNat
    else if c == '~' then -2
    else c.toNat + 256

/-- The order of versions: parts without digits and numbers take turns. -/
def compareVersionParts : Nat → Octets → Octets → Ordering
  | 0, _, _ => .eq
  | fuel + 1, a, b =>
    if a.isEmpty && b.isEmpty then .eq
    else
      let rec texts : Nat → Octets → Octets → Ordering × Octets × Octets
        | 0, a, b => (.eq, a, b)
        | fuel + 1, a, b =>
          let isText (o : Octets) : Bool := o.head?.any fun c => !c.isDigit
          if isText a || isText b then
            let weight (o : Octets) : Int :=
              match o.head? with
              | some c => if c.isDigit then 0 else versionWeight (some c)
              | none => -1
            match compare (weight a) (weight b) with
            | .eq => texts fuel (a.drop 1) (b.drop 1)
            | order => (order, a, b)
          else (.eq, a, b)
      match texts (a.length + b.length + 1) a b with
      | (.eq, a, b) =>
        let strip (o : Octets) : Octets := o.dropWhile (· == '0')
        let x := (strip a).takeWhile Char.isDigit
        let y := (strip b).takeWhile Char.isDigit
        let order := (compare x.length y.length).then (compareBytes x y)
        if order != .eq then order
        else compareVersionParts fuel ((strip a).drop x.length) ((strip b).drop y.length)
      | (order, _, _) => order

/-- A name without the endings that begin with a dot and a letter. -/
def withoutSuffixes (o : Octets) : Octets :=
  let rec go : Nat → Octets → Octets
    | 0, o => o
    | fuel + 1, o =>
      let ending := (o.reverse.takeWhile (· != '.')).reverse
      let before := o.take (o.length - ending.length - 1)
      let isSuffix := ending.length < o.length && !before.isEmpty &&
        (ending.head?.any fun c => c.isAlpha || c == '~') &&
        ending.all fun c => c.isAlphanum || c == '~'
      if isSuffix then go fuel before else o
  go o.length o

def compareVersions (a b : Octets) : Ordering :=
  if a == b then .eq
  else if a.isEmpty then .lt
  else if b.isEmpty then .gt
  else
    let bound := a.length + b.length + 2
    let short := compareVersionParts bound (withoutSuffixes a) (withoutSuffixes b)
    if short != .eq then short else compareVersionParts bound a b

/-! ## Keys -/

/-- How keys are compared. -/
structure KeyOrder where
  skipsStart : Bool := false
  skipsEnd : Bool := false
  dictionary : Bool := false
  foldsCase : Bool := false
  printable : Bool := false
  reversed : Bool := false
  kind : Option Char := none
deriving DecidableEq, Repr

/-- A part of a line: from a byte of a field to a byte of a field. -/
structure SortKey where
  field : Nat
  byte : Nat := 0
  /-- The last field, and the number of its bytes that count; none stands for all of them. -/
  finish : Option (Nat × Nat) := none
  order : KeyOrder := {}
deriving DecidableEq, Repr

def isFieldBlank (c : Char) : Bool := c == ' ' || c == '\t' || c == '\n'

/-- What is left of a line behind some fields. -/
def afterFields (separator : Option Char) : Nat → Octets → Octets
  | 0, o => o
  | n + 1, o =>
    match separator with
    | some c => afterFields separator n ((o.dropWhile (· != c)).drop 1)
    | none =>
      afterFields separator n ((o.dropWhile isFieldBlank).dropWhile fun c => !isFieldBlank c)

/-- How many bytes of a line come before the end of a key. -/
def keyEnd (separator : Option Char) (skipsEnd : Bool) (field bytes : Nat) (o : Octets) : Nat :=
  if bytes = 0 then
    -- The whole field counts, without the separator behind it.
    match separator with
    | some c =>
      let rest := afterFields separator field o
      o.length - (rest.dropWhile (· != c)).length
    | none => o.length - (afterFields separator (field + 1) o).length
  else
    let rest := afterFields separator field o
    let rest := if skipsEnd then rest.dropWhile isFieldBlank else rest
    o.length - (rest.drop bytes).length

def SortKey.of (k : SortKey) (separator : Option Char) (o : Octets) : Octets :=
  let rest := afterFields separator k.field o
  let rest := if k.order.skipsStart then rest.dropWhile isFieldBlank else rest
  let rest := rest.drop k.byte
  match k.finish with
  | none => rest
  | some (field, bytes) =>
    let stop := keyEnd separator k.order.skipsEnd field bytes o
    rest.take (stop - (o.length - rest.length))

/-- Compares keys in their way. -/
def KeyOrder.compare (k : KeyOrder) (a b : Octets) : Ordering :=
  let change (o : Octets) : Octets :=
    let o := if k.dictionary then o.filter fun c => c.isAlphanum || isFieldBlank c else o
    let o := if k.printable then o.filter Octets.isPrintable else o
    if k.foldsCase then o.map Char.toUpper else o
  let order := match k.kind with
    | some 'n' => compareDecimals (decimalOf a).1 (decimalOf b).1
    | some 'g' => compareGeneral a b
    | some 'h' => compareHuman a b
    | some 'M' => Ord.compare (monthOf a) (monthOf b)
    | some 'V' => compareVersions (change a) (change b)
    | _ => compareBytes (change a) (change b)
  if k.reversed then order.swap else order

def KeyOrder.with? (k : KeyOrder) (isEnd : Bool) (c : Char) : Option KeyOrder :=
  match c with
  | 'b' => some (if isEnd then { k with skipsEnd := true } else { k with skipsStart := true })
  | 'd' => some { k with dictionary := true }
  | 'f' => some { k with foldsCase := true }
  | 'i' => some { k with printable := true }
  | 'r' => some { k with reversed := true }
  | 'n' | 'g' | 'h' | 'M' | 'V' | 'R' => some { k with kind := some c }
  | _ => none

/-- The letters of a key's order, and what follows them. -/
def keyLetters (isEnd : Bool) : KeyOrder → Octets → KeyOrder × Octets
  | k, [] => (k, [])
  | k, c :: rest =>
    match k.with? isEnd c with
    | some k => keyLetters isEnd k rest
    | none => (k, c :: rest)

def sortKey (c : ToolCall) (o : Octets) : ToolM SortKey := do
  let bad {α : Type} (reason : String) : ToolM α :=
    c.fail 2 (Octets.ofString s!"{reason}: invalid field specification " ++ Octets.quoted o)
  let number (what : String) (o : Octets) : ToolM (Nat × Octets) := do
    let digits := o.takeWhile Char.isDigit
    if digits.isEmpty then
      c.fail 2 (Octets.ofString s!"{what}: invalid count at start of " ++ Octets.quoted o)
    return (Octets.digitsValue digits, o.drop digits.length)
  let (field, rest) ← number "invalid number at field start" o
  if field = 0 then bad "field number is zero"
  let (byte, rest) ← match rest with
    | '.' :: rest => do
      let (n, rest) ← number "invalid number after '.'" rest
      if n = 0 then bad "character offset is zero"
      pure (n - 1, rest)
    | rest => pure (0, rest)
  let (order, rest) := keyLetters false {} rest
  match rest with
  | [] => return { field := field - 1, byte, order }
  | ',' :: rest =>
    let (last, rest) ← number "invalid number after ','" rest
    if last = 0 then bad "field number is zero"
    let (bytes, rest) ← match rest with
      | '.' :: rest => number "invalid number after '.'" rest
      | rest => pure (0, rest)
    let (order, rest) := keyLetters true order rest
    if !rest.isEmpty then bad "stray character in field spec"
    return { field := field - 1, byte, finish := some (last - 1, bytes), order }
  | _ => bad "stray character in field spec"

/-! ## Sorting -/

/-- A list in which of neighbours that are equal only the first is told. -/
def dropRepeated {α : Type} (same : α → α → Bool) : List α → List α
  | [] => []
  | a :: rest => a :: go a rest
where
  go (last : α) : List α → List α
    | [] => []
    | b :: rest => if same last b then go last rest else b :: go b rest

def sort (c : ToolCall) : ToolM Unit := do
  let forms : OptionForms := {
    plain := "bcCdfghimMnrRsuVz", valued := "koStT", misuseStatus := 2
    long := [("ignore-leading-blanks", 'b'), ("dictionary-order", 'd'), ("ignore-case", 'f'),
      ("general-numeric-sort", 'g'), ("ignore-nonprinting", 'i'), ("month-sort", 'M'),
      ("human-numeric-sort", 'h'), ("numeric-sort", 'n'), ("reverse", 'r'), ("version-sort", 'V'),
      ("key", 'k'), ("output", 'o'), ("stable", 's'), ("field-separator", 't'), ("unique", 'u'),
      ("zero-terminated", 'z'), ("check", 'c'), ("merge", 'm')] }
  let (found, operands) ← forms.read c
  let separator ← match found.value? 't' with
    | none => pure none
    | some [] => c.fail 2 (Octets.ofString "empty tab")
    | some [b] => pure (some b)
    | some ['\\', '0'] => pure (some '\x00')
    | some o => c.fail 2 (Octets.ofString "multi-character tab " ++ Octets.quoted o)
  let whole := found.foldl (fun (k : KeyOrder) o =>
    if o.1 == 'b' then { k with skipsStart := true, skipsEnd := true }
    else (k.with? false o.1).getD k) {}
  let keys ← (found.values 'k').mapM (sortKey c)
  let keys := keys.map fun k => if k.order = {} then { k with order := whole } else k
  let keys := if keys.isEmpty && whole != {} && whole != { reversed := true } then
    [{ field := 0, order := whole : SortKey }] else keys
  let byKeys (a b : Octets) : Ordering :=
    let orders := keys.map fun k => k.order.compare (k.of separator a) (k.of separator b)
    orders.foldl Ordering.then .eq
  let byAll (a b : Octets) : Ordering :=
    let order := compareBytes a b
    if whole.reversed then order.swap else order
  let order (a b : Octets) : Ordering :=
    if keys.isEmpty then byAll a b
    else if found.has 's' || found.has 'u' then byKeys a b
    else (byKeys a b).then (byAll a b)
  let finish := if found.has 'z' then '\x00' else '\n'
  let linesOf (o : Octets) : List Octets :=
    (separatedLines finish o).map fun line =>
      if line.getLast? == some finish then line.dropLast else line
  let faults : SourceFaults := {
    status := 2
    unopened := fun path phrase =>
      Octets.ofString "cannot read: " ++ Octets.quotedIfNeeded path ++ [':', ' '] ++ phrase
    directory := fun path phrase =>
      Octets.ofString "read failed: " ++ Octets.quotedIfNeeded path ++ [':', ' '] ++ phrase }
  let named := if operands.isEmpty then [['-']] else operands
  let texts ← named.mapM fun path => do
    match ← source? c faults path with
    | some text => return linesOf text
    | none => throw ()
  let lines := texts.flatten
  if found.has 'c' || found.has 'C' then
    let rec check : Nat → List Octets → ToolM Unit
      | n, a :: b :: rest => do
        let isBad := match order a b with
          | .gt => true
          | .eq => found.has 'u'
          | .lt => false
        if isBad then
          if found.has 'C' then stop 1
          else
            c.fail 1 (named.headD [] ++ Octets.ofString s!":{toString (n + 1)}: disorder: " ++ b)
        else check (n + 1) (b :: rest)
      | _, _ => return
    check 1 lines
  else
    let sorted := lines.mergeSort fun a b => order a b != .gt
    let sorted :=
      if found.has 'u' then dropRepeated (fun a b => order a b == .eq) sorted else sorted
    let text := sorted.flatMap (· ++ [finish])
    match found.value? 'o' with
    | none => print text
    | some path =>
      match ← writePath path text false with
      | .ok () => pure ()
      | .error fault =>
        c.fail 2 (Octets.ofString "open failed: " ++ Octets.quotedIfNeeded path ++
          Octets.ofString s!": {fault.phrase}")

/-! ## Repeated lines -/

/-- Tells equal neighbouring lines only once, with their number if asked for. -/
def distinct (c : ToolCall) : ToolM Unit := do
  let forms : OptionForms := {
    plain := "cdDiuz", valued := "fsw"
    long := [("count", 'c'), ("repeated", 'd'), ("ignore-case", 'i'), ("unique", 'u'),
      ("skip-fields", 'f'), ("skip-chars", 's'), ("check-chars", 'w'), ("zero-terminated", 'z')] }
  let (found, operands) ← forms.read c
  match operands.drop 2 with
  | extra :: _ => c.misuse 1 (Octets.ofString "extra operand " ++ Octets.quoted extra)
  | [] => pure ()
  let number (letter : Char) (what : String) : ToolM (Option Nat) := do
    match found.value? letter with
    | none => return none
    | some o =>
      if o.isEmpty || !o.all Char.isDigit then
        c.fail 1 (o ++ Octets.ofString s!": invalid number of {what}")
      return some (Octets.digitsValue o)
  let fields := (← number 'f' "fields to skip").getD 0
  let skipped := (← number 's' "bytes to skip").getD 0
  let width ← number 'w' "bytes to compare"
  let key (line : Octets) : Octets :=
    let rest := (afterFields none fields line).drop skipped
    let rest := match width with
      | some n => rest.take n
      | none => rest
    if found.has 'i' then rest.map Char.toLower else rest
  let text ← match operands.head? with
    | none | some ['-'] => readInput
    | some path =>
      match ← readPath path with
      | .ok text => pure text
      | .error .isDirectory =>
        c.fail 1 (Octets.told "error reading " (Octets.quoted path) ": Is a directory")
      | .error fault =>
        c.fail 1 (Octets.quotedIfNeeded path ++ Octets.ofString s!": {fault.phrase}")
  let groups := (Octets.lines text).splitBy fun a b => key a == key b
  let shown := groups.flatMap fun group =>
    match group with
    | [] => []
    | line :: _ =>
      if found.has 'D' then (if group.length < 2 then [] else group)
      else if found.has 'd' && group.length < 2 then []
      else if found.has 'u' && 1 < group.length then []
      else if found.has 'c' then [padLeft 7 (Octets.ofNat group.length) ++ ' ' :: line]
      else [line]
  match operands.drop 1 with
  | [] | [['-']] => print (Octets.unlines shown)
  | target :: _ =>
    match ← writePath target (Octets.unlines shown) false with
    | .ok () => pure ()
    | .error fault =>
      c.fail 1 (Octets.quotedIfNeeded target ++ Octets.ofString s!": {fault.phrase}")

/-! ## Two sorted files -/

/-- The two files that a tool compares. -/
def twoSources (c : ToolCall) (operands : List Octets) : ToolM (Octets × Octets) := do
  match operands with
  | [] => c.misuse 1 (Octets.ofString "missing operand")
  | [a] => c.misuse 1 (Octets.ofString "missing operand after " ++ Octets.quoted a)
  | [a, b] =>
    let one (path : Octets) : ToolM Octets := do
      match ← source? c {} path with
      | some text => return text
      | none => throw ()
    return (← one a, ← one b)
  | _ :: _ :: extra :: _ => c.misuse 1 (Octets.ofString "extra operand " ++ Octets.quoted extra)

/-- What has been found while two files are compared. -/
structure Comparing where
  output : List Octets := []
  hasUnpaired : Bool := false
  /-- The files that have been found out of order. -/
  disordered : List Nat := []

/-- Whether the lines at the front of a file are out of order. -/
def isDisordered : List Octets → Bool
  | a :: b :: _ => compareBytes a b == .gt
  | _ => false

/-- Puts the lines of two sorted files into columns, with a bound on their number. -/
def columnsOf (shown : Nat → Octets → List Octets) (warn : Nat → ToolM Unit) :
    Nat → Comparing → List Octets → List Octets → ToolM Comparing
  | 0, s, _, _ => return s
  | _ + 1, s, [], [] => return s
  | fuel + 1, s, as, bs => do
    let order := match as, bs with
      | a :: _, b :: _ => compareBytes a b
      | _, [] => Ordering.lt
      | [], _ => Ordering.gt
    let line := match order with
      | .gt => bs.headD []
      | _ => as.headD []
    let column := match order with
      | .lt => 1
      | .gt => 2
      | .eq => 3
    let s := { s with
      output := shown column line ++ s.output, hasUnpaired := s.hasUnpaired || order != .eq }
    let check (s : Comparing) (number : Nat) (lines : List Octets) : ToolM Comparing := do
      if s.hasUnpaired && !s.disordered.contains number && isDisordered lines then
        warn number
        return { s with disordered := number :: s.disordered }
      else return s
    let s ← if order == .gt then pure s else check s 1 as
    let s ← if order == .lt then pure s else check s 2 bs
    columnsOf shown warn fuel s (if order == .gt then as else as.drop 1)
      (if order == .lt then bs else bs.drop 1)

/-- Compares two sorted files line by line. -/
def comm (c : ToolCall) : ToolM Unit := do
  let forms : OptionForms := {
    plain := "123z", valued := "γ"
    long := [("check-order", 'α'), ("nocheck-order", 'β'), ("output-delimiter", 'γ')] }
  let (found, operands) ← forms.read c
  let (a, b) ← twoSources c operands
  let separator := (found.value? 'γ').getD ['\t']
  let shown (column : Nat) (line : Octets) : List Octets :=
    if found.has (Char.ofNat ('0'.toNat + column)) then []
    else
      let before := ((List.range column).drop 1).filter fun n =>
        !found.has (Char.ofNat ('0'.toNat + n))
      [(before.flatMap fun _ => separator) ++ line ++ ['\n']]
  let warn (n : Nat) : ToolM Unit :=
    if found.has 'β' then pure ()
    else tell (Octets.ofString s!"{c.name}: file {toString n} is not in sorted order\n")
  let linesA := Octets.lines a
  let linesB := Octets.lines b
  let s ← columnsOf shown warn (linesA.length + linesB.length + 1) {} linesA linesB
  print s.output.reverse.flatten
  if !s.disordered.isEmpty && !found.has 'β' then
    c.fail 1 (Octets.ofString "input is not in sorted order")

/-- What lines are joined by and how they are shown. -/
structure JoinRequest where
  first : Nat
  second : Nat
  separator : Option Char
  /-- The fields that are shown: of a file, or the common one, which is that of file zero. -/
  form : Option (List (Nat × Nat))
  empty : Octets
  foldsCase : Bool

namespace JoinRequest

def fieldsOf (r : JoinRequest) (line : Octets) : List Octets :=
  match r.separator with
  | some c => Octets.splitAtEach c line
  | none =>
    (line.splitBy fun a b => isFieldBlank a == isFieldBlank b).filter fun w => !w.all isFieldBlank

def key (r : JoinRequest) (n : Nat) (fields : List Octets) : Octets :=
  let k := (fields[n]?).getD []
  if r.foldsCase then k.map Char.toLower else k

/-- A line that is made of lines of both files, either of which may be missing. -/
def line (r : JoinRequest) (a b : Option (List Octets)) : Octets :=
  let joint := [r.separator.getD ' ']
  let own (n : Nat) (fields : List Octets) : List Octets := fields.eraseIdx n
  let common := match a, b with
    | some fields, _ => (fields[r.first]?).getD []
    | none, some fields => (fields[r.second]?).getD []
    | none, none => []
  let shown := match r.form with
    | none => common :: (a.map (own r.first)).getD [] ++ (b.map (own r.second)).getD []
    | some form => form.map fun (file, n) =>
      let found := if file = 0 then some common
        else ((if file = 1 then a else b).getD [])[n]?
      match found with
      | some o => if o.isEmpty then r.empty else o
      | none => r.empty
  joint.intercalate shown ++ ['\n']

end JoinRequest

/-- Joins the lines of two sorted files, with a bound on their number. The flags say which lines
without a partner are shown, and whether others are. -/
def joinLines (r : JoinRequest) (showsA showsB showsPairs : Bool) :
    Nat → List (List Octets) → List (List Octets) → List Octets
  | 0, _, _ => []
  | _ + 1, [], [] => []
  | fuel + 1, [], b :: bs =>
    (if showsB then [r.line none (some b)] else []) ++
      joinLines r showsA showsB showsPairs fuel [] bs
  | fuel + 1, a :: as, [] =>
    (if showsA then [r.line (some a) none] else []) ++
      joinLines r showsA showsB showsPairs fuel as []
  | fuel + 1, a :: as, b :: bs =>
    match compareBytes (r.key r.first a) (r.key r.second b) with
    | .lt =>
      (if showsA then [r.line (some a) none] else []) ++
        joinLines r showsA showsB showsPairs fuel as (b :: bs)
    | .gt =>
      (if showsB then [r.line none (some b)] else []) ++
        joinLines r showsA showsB showsPairs fuel (a :: as) bs
    | .eq =>
      let k := r.key r.first a
      let left := a :: as.takeWhile fun x => r.key r.first x == k
      let right := b :: bs.takeWhile fun x => r.key r.second x == k
      let pairs := left.flatMap fun x => right.map fun y => r.line (some x) (some y)
      (if showsPairs then pairs else []) ++
        joinLines r showsA showsB showsPairs fuel ((a :: as).drop left.length)
          ((b :: bs).drop right.length)

/-- Joins the lines of two sorted files that have a field in common. -/
def join (c : ToolCall) : ToolM Unit := do
  let forms : OptionForms := { plain := "iz", valued := "12jtaove", long := [("ignore-case", 'i')] }
  let (found, operands) ← forms.read c
  let (a, b) ← twoSources c operands
  let field (letter : Char) : ToolM Nat := do
    match (found.value? letter).or (found.value? 'j') with
    | none => return 0
    | some o =>
      if o.isEmpty || !o.all Char.isDigit || Octets.digitsValue o = 0 then
        c.fail 1 (Octets.ofString "invalid field number: " ++ Octets.quoted o)
      return Octets.digitsValue o - 1
  let form : Option (List (Nat × Nat)) := (found.value? 'o').map fun o =>
    (o.splitBy fun x y => (x == ',' || x == ' ') == (y == ',' || y == ' ')).filterMap fun item =>
      match item with
      | ['0'] => some (0, 0)
      | file :: '.' :: digits => some (file.toNat - '0'.toNat, Octets.digitsValue digits - 1)
      | _ => none
  let r : JoinRequest := {
    first := ← field '1', second := ← field '2', separator := (found.value? 't').bind List.head?
    form, empty := (found.value? 'e').getD [], foldsCase := found.has 'i' }
  let shows (n : Octets) : Bool := (found.values 'a').contains n || (found.values 'v').contains n
  let linesA := (Octets.lines a).map r.fieldsOf
  let linesB := (Octets.lines b).map r.fieldsOf
  print (joinLines r (shows ['1']) (shows ['2']) (!found.has 'v')
    (linesA.length + linesB.length + 1) linesA linesB).flatten

end Sweep.Tool
