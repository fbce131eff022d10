import Sweep.Shell.Octets
import Sweep.Shell.Tool.Lines

/-!
# Tools for parts of lines and for bytes

Some fields or bytes of every line are printed, or bytes are replaced and removed wherever they
stand.
-/

namespace Sweep.Tool

/-! ## Fields and bytes of lines -/

/-- Positions from one to another; the last may be missing. -/
abbrev PositionRange := Nat × Option Nat

/-- What a list of positions counts. -/
structure PositionKind where
  zero : String
  invalid : String

def fieldPositions : PositionKind := ⟨"fields are numbered from 1", "invalid field value"⟩

def bytePositions : PositionKind :=
  ⟨"byte/character positions are numbered from 1", "invalid byte/character position"⟩

/-- Reads a list such as `1,3-5`. -/
def positionRanges (c : ToolCall) (kind : PositionKind) (list : Octets) :
    ToolM (List PositionRange) := do
  let items := (Octets.splitAtEach ',' list).flatMap fun o =>
    (Octets.splitAtEach ' ' o).flatMap (Octets.splitAtEach '\t')
  items.mapM fun item => do
    let number (o : Octets) : ToolM Nat := do
      if !o.all Char.isDigit then
        c.misuse 1 (Octets.ofString s!"{kind.invalid} " ++ Octets.quoted (o.dropWhile Char.isDigit))
      if Octets.digitsValue o = 0 then c.misuse 1 (Octets.ofString kind.zero)
      return Octets.digitsValue o
    match Octets.splitAtEach '-' item with
    | [[]] => c.misuse 1 (Octets.ofString kind.zero)
    | [a] =>
      let n ← number a
      return (n, some n)
    | [[], []] => c.misuse 1 (Octets.ofString "invalid range with no endpoint: -")
    | [[], b] => return (1, some (← number b))
    | [a, []] => return (← number a, none)
    | [a, b] =>
      let first ← number a
      let last ← number b
      if last < first then c.misuse 1 (Octets.ofString "invalid decreasing range")
      return (first, some last)
    | _ =>
      let what := if kind.zero == fieldPositions.zero then "field" else "byte or character"
      c.misuse 1 (Octets.ofString s!"invalid {what} range")

def isInRanges (rs : List PositionRange) (n : Nat) : Bool :=
  rs.any fun (a, b) => a ≤ n && b.all fun b => n ≤ b

/-- The positions of a line that are chosen, in stretches. -/
def chosenStretches (isChosen : Nat → Bool) (starts : Nat → Bool) (o : Octets) : List Octets :=
  let step (s : List Octets × Bool) (x : Char × Nat) : List Octets × Bool :=
    if !isChosen (x.2 + 1) then (s.1, false)
    else
      match s with
      | (stretch :: rest, true) =>
        if starts (x.2 + 1) then ([x.1] :: stretch :: rest, true)
        else ((x.1 :: stretch) :: rest, true)
      | (stretches, _) => ([x.1] :: stretches, true)
  ((o.zipIdx.foldl step ([], false)).1.map List.reverse).reverse

def cut (c : ToolCall) : ToolM Unit := do
  let forms : OptionForms := {
    plain := "nsz", valued := "bcdfβ"
    long := [("bytes", 'b'), ("characters", 'c'), ("delimiter", 'd'), ("fields", 'f'),
      ("only-delimited", 's'), ("complement", 'α'), ("output-delimiter", 'β'),
      ("zero-terminated", 'z')] }
  let (found, operands) ← forms.read c
  let lists := found.filter fun o => "bcf".toList.contains o.1
  match lists with
  | [] => c.misuse 1 (Octets.ofString "you must specify a list of bytes, characters, or fields")
  | _ :: _ :: _ => c.misuse 1 (Octets.ofString "only one list may be specified")
  | [(letter, list)] =>
    let byField := letter == 'f'
    match found.value? 'd' with
    | some (_ :: _ :: _) => c.misuse 1 (Octets.ofString "the delimiter must be a single character")
    | some _ =>
      if !byField then
        c.misuse 1 (Octets.ofString
          "an input delimiter may be specified only when operating on fields")
    | none => pure ()
    if found.has 's' && !byField then
      c.misuse 1 (Octets.ofString
        "suppressing non-delimited lines makes sense\n\tonly when operating on fields")
    let ranges ← positionRanges c (if byField then fieldPositions else bytePositions) list
    let isChosen (n : Nat) : Bool := isInRanges ranges n != found.has 'α'
    let delimiter := match found.value? 'd' with
      | some (d :: _) => d
      | some [] => '\x00'
      | none => '\t'
    let line (o : Octets) : Option Octets :=
      if byField then
        if !o.contains delimiter then if found.has 's' then none else some o
        else
          let fields := ((Octets.splitAtEach delimiter o).zipIdx.filter fun (_, i) =>
            isChosen (i + 1)).map (·.1)
          some (((found.value? 'β').getD [delimiter]).intercalate fields)
      else
        match found.value? 'β' with
        | none => some ((o.zipIdx.filter fun (_, i) => isChosen (i + 1)).map (·.1))
        | some separator =>
          let starts (n : Nat) : Bool :=
            !found.has 'α' && (ranges.any fun r => r.1 == n) && !ranges.any fun (a, b) =>
              a < n && b.all fun b => n ≤ b
          some (separator.intercalate (chosenStretches isChosen starts o))
    let finish := if found.has 'z' then '\x00' else '\n'
    forSources c {} operands fun _ text => do
      let lines := (separatedLines finish text).map fun l =>
        if l.getLast? == some finish then l.dropLast else l
      print ((lines.filterMap line).flatMap (· ++ [finish]))

/-! ## Sets of bytes -/

inductive SetItem where
  | one (c : Char)
  | span (a b : Char)
  | named (name : String)
  /-- A byte, as often as it is needed or a number of times. -/
  | again (c : Char) (count : Option Nat)
deriving DecidableEq

/-- The bytes from one to another. -/
def spanOf (a b : Char) : Octets :=
  (List.range (b.toNat + 1 - a.toNat)).map fun i => Char.ofNat (a.toNat + i)

/-- All bytes. -/
def everyByte : Octets := (List.range 256).map Char.ofNat

/-- The bytes of a named class in increasing order. -/
def namedBytes? (name : String) : Option Octets :=
  match name with
  | "cntrl" => some (everyByte.filter fun c => c.toNat < 32 || c.toNat = 127)
  | "print" => some (everyByte.filter Octets.isPrintable)
  | "graph" => some (everyByte.filter fun c => Octets.isPrintable c && c != ' ')
  | name =>
    match Glob.namedRanges name with
    | [] => none
    | ranges => some (everyByte.filter fun c => ranges.any fun (a, b) => a ≤ c && c ≤ b)

/-- A byte of a set, and whether it was escaped. -/
def setByte (s : Octets) : Option ((Char × Bool) × Octets) :=
  match s with
  | [] => none
  | '\\' :: rest =>
    let octal := (rest.take 3).takeWhile isOctal
    match rest with
    | [] => some (('\\', true), [])
    | c :: more =>
      if !octal.isEmpty then
        let value := octal.foldl (fun n d => n * 8 + (d.toNat - 48)) 0
        if value < 256 then some ((Char.ofNat value, true), rest.drop octal.length)
        else some ((octalByte (octal.take 2), true), rest.drop 2)
      else
        match escapeLetter? c with
        | some b => some ((b, true), more)
        | none => some ((c, true), more)
  | c :: rest => some ((c, false), rest)

/-- Reads the items of a set, with a bound on their number. -/
def setItems (c : ToolCall) : Nat → Octets → ToolM (List SetItem)
  | 0, _ | _, [] => return []
  | fuel + 1, s => do
    let named : Option (SetItem × Octets) ← match s with
      | '[' :: ':' :: rest =>
        let name := rest.takeWhile (· != ':')
        match rest.drop name.length with
        | ':' :: ']' :: after =>
          match namedBytes? (String.ofList name) with
          | some _ => pure (some (SetItem.named (String.ofList name), after))
          | none => c.fail 1 (Octets.ofString "invalid character class " ++ Octets.quoted name)
        | _ => pure none
      | '[' :: '=' :: b :: '=' :: ']' :: after => pure (some (.one b, after))
      | '[' :: rest =>
        match setByte rest with
        | some ((b, _), '*' :: more) =>
          let digits := more.takeWhile Char.isDigit
          match more.drop digits.length with
          | ']' :: after =>
            let count := if digits.head? == some '0' then
                digits.foldl (fun n d => n * 8 + (d.toNat - 48)) 0
              else Octets.digitsValue digits
            pure (some (.again b (if count = 0 then none else some count), after))
          | _ => pure none
        | _ => pure none
      | _ => pure none
    match named with
    | some (item, after) => return item :: (← setItems c fuel after)
    | none =>
      match setByte s with
      | none => return []
      | some ((a, _), '-' :: rest) =>
        match setByte rest with
        | some ((b, _), after) =>
          if b < a then
            let shown := s.take (s.length - after.length)
            c.fail 1 (Octets.ofString "range-endpoints of " ++ Octets.quoted shown ++
              Octets.ofString " are in reverse collating sequence order")
          return .span a b :: (← setItems c fuel after)
        | none => return [.one a, .one '-']
      | some ((a, _), after) => return .one a :: (← setItems c fuel after)

def SetItem.bytes : SetItem → Octets
  | .one c => [c]
  | .span a b => spanOf a b
  | .named name => (namedBytes? name).getD []
  | .again c count => List.replicate (count.getD 0) c

/-- The bytes of items that are filled up to a length at the place that asks for it. -/
def filledBytes (length : Nat) (items : List SetItem) : Octets :=
  let known := (items.flatMap SetItem.bytes).length
  items.flatMap fun item =>
    match item with
    | .again c none => List.replicate (length - known) c
    | item => item.bytes

/-- A text in which neighbouring equal bytes of a set are told once. -/
def squeeze (set : Octets) (o : Octets) : Octets :=
  dropSame none o
where
  dropSame (last : Option Char) : Octets → Octets
    | [] => []
    | c :: rest =>
      if last == some c && set.contains c then dropSame last rest else c :: dropSame (some c) rest

/-- Replaces or removes bytes. -/
def translate (c : ToolCall) : ToolM Unit := do
  let forms : OptionForms := {
    plain := "cCdst", isOrdered := true
    long := [("complement", 'c'), ("delete", 'd'), ("squeeze-repeats", 's'),
      ("truncate-set1", 't')] }
  let (found, operands) ← forms.read c
  let deletes := found.has 'd'
  let squeezes := found.has 's'
  let complements := found.has 'c' || found.has 'C'
  let least := if deletes == squeezes then 2 else 1
  let most := if deletes && !squeezes then 1 else 2
  if operands.length < least then
    match operands with
    | [] => c.misuse 1 (Octets.ofString "missing operand")
    | o :: _ =>
      let reason :=
        if squeezes then "Two strings must be given when both deleting and squeezing repeats."
        else "Two strings must be given when translating."
      let last := operands.getLast?.getD o
      c.misuse 1 (Octets.told "missing operand after " (Octets.quoted last) s!"\n{reason}")
  match operands.drop most with
  | extra :: _ =>
    let reason := if most = 1 && operands.length = 2 then
      "\nOnly one string may be given when deleting without squeezing repeats." else ""
    c.misuse 1 (Octets.ofString "extra operand " ++ Octets.quoted extra ++ Octets.ofString reason)
  | [] => pure ()
  let read (o : Octets) : ToolM (List SetItem) := setItems c (o.length + 1) o
  let firstItems ← read (operands.headD [])
  let listed := firstItems.flatMap SetItem.bytes
  if firstItems.any fun i => match i with
      | .again _ _ => true
      | _ => false then
    c.fail 1 (Octets.ofString "the [c*] repeat construct may not appear in string1")
  let source := if complements then everyByte.filter fun b => !listed.contains b else listed
  let secondItems ← match operands.drop 1 with
    | o :: _ => do pure (some (← read o))
    | [] => pure none
  let text ← readInput
  match secondItems with
  | none =>
    if deletes then print (text.filter fun b => !source.contains b)
    else print (squeeze source text)
  | some items =>
    let target := filledBytes source.length items
    if deletes then print (squeeze target (text.filter fun b => !source.contains b))
    else
      let isLetterCase (i : SetItem) : Bool := i == .named "lower" || i == .named "upper"
      let hasOther := items.any fun i => match i with
        | .named _ => !isLetterCase i
        | _ => false
      if hasOther then
        c.fail 1 (Octets.ofString ("when translating, the only character classes that may " ++
          "appear in\nstring2 are 'upper' and 'lower'"))
      if target.isEmpty && !found.has 't' && !source.isEmpty then
        c.fail 1 (Octets.ofString "when not truncating set1, string2 must be non-empty")
      let source := if found.has 't' then source.take target.length else source
      let last := target.getLast?.getD ' '
      let pairs := (source.zipIdx.map fun (b, i) => (b, (target[i]?).getD last)).reverse
      let changed (b : Char) : Char := ((pairs.find? fun p => p.1 == b).map (·.2)).getD b
      let table := (everyByte.map changed).toArray
      let translated := text.map fun b => (table[b.toNat]?).getD b
      print (if squeezes then squeeze target translated else translated)

end Sweep.Tool
