import Sweep.Shell.Octets
import Sweep.Shell.State

/-!
# Fields

What the expansions of a word leave is cut into fields where unquoted values hold separators. A
field with unquoted signs of a pattern then stands for the paths that fit it, if there are any.
-/

namespace Sweep.Shell

/-- A part of an expanded word. -/
inductive Fragment where
  /-- Bytes that stay together. -/
  | whole (marks : List Glob.Mark)
  /-- Bytes that are cut into fields. -/
  | loose (o : Octets)
  /-- The place between two values, and what joins them where no fields are made. -/
  | boundary (joint : Octets)
deriving DecidableEq

/-- Fields while they are put together. -/
structure Fields where
  complete : List (List Glob.Mark) := []
  current : Option (List Glob.Mark) := none
  /-- Whether white space has just ended a field. -/
  afterSpace : Bool := false

namespace Fields

/-- Ends the current field. -/
def finish (f : Fields) : Fields :=
  match f.current with
  | some marks => { complete := f.complete ++ [marks], afterSpace := f.afterSpace }
  | none => f

def append (f : Fields) (marks : List Glob.Mark) : Fields :=
  { f with current := some (f.current.getD [] ++ marks), afterSpace := false }

/-- Takes a loose byte into account. -/
def take (separators : Octets) (f : Fields) (c : Char) : Fields :=
  if !separators.contains c then f.append [(c, false)]
  else if Octets.isSpace c then
    if f.current.isSome then { f.finish with afterSpace := true } else f
  else if f.afterSpace && f.current.isNone then { f with afterSpace := false }
  else (f.append []).finish

def add (separators : Octets) (f : Fields) : Fragment → Fields
  | .whole marks => f.append marks
  | .loose o => o.foldl (take separators) f
  | .boundary _ => f.finish

end Fields

def fieldsOf (separators : Octets) (fragments : List Fragment) : List (List Glob.Mark) :=
  (fragments.foldl (Fields.add separators) {}).finish.complete

/-- All bytes of some fragments, in one piece. -/
def marksOf (fragments : List Fragment) : List Glob.Mark :=
  fragments.flatMap fun
    | .whole marks => marks
    | .loose o => o.map fun c => (c, false)
    | .boundary joint => joint.map fun c => (c, true)

def bytesOf (marks : List Glob.Mark) : Octets := marks.map (·.1)

/-! ## Names of files -/

/-- The components of a path pattern. -/
def components : List Glob.Mark → List (List Glob.Mark)
  | [] => [[]]
  | (c, quoted) :: rest =>
    if c == '/' then [] :: components rest
    else
      match components rest with
      | [] => [[(c, quoted)]]
      | first :: others => ((c, quoted) :: first) :: others

/-- The paths that go on from some directories by a component. -/
def matchesIn (t : FileTree) (directories : List Octets) (component : List Glob.Mark) :
    List Octets :=
  directories.flatMap fun directory =>
    if !Glob.isPattern component then [directory ++ bytesOf component]
    else
      let listed := t.list (if directory.isEmpty then "." else Octets.toText directory)
      let names := match listed with
        | .ok names => [".", ".."] ++ names
        | .error _ => []
      let isShown (name : Octets) : Bool :=
        name.head? != some '.' || component.head?.any fun mark => mark.1 == '.'
      ((names.map Octets.ofString).filter fun name =>
        isShown name && Glob.fitsMarks component name).map (directory ++ ·)

/-- The paths that fit a pattern. -/
def matchingPaths (t : FileTree) (marks : List Glob.Mark) : List Octets :=
  match components marks with
  | [] => []
  | first :: others =>
    let found := others.foldl (fun paths component =>
      matchesIn t (paths.map (· ++ ['/'])) component) (matchesIn t [[]] first)
    found.filter fun path => t.leadsSomewhere (Octets.toText path)

/-- What a field stands for: the paths that fit it, or itself. -/
def pathsOf (t : FileTree) (marks : List Glob.Mark) : List Octets :=
  if Glob.isPattern marks then
    match matchingPaths t marks with
    | [] => [bytesOf marks]
    | found => found.mergeSort Octets.le
  else [bytesOf marks]

/-! ## Lists between braces -/

/-- A byte of a word that may have a meaning between braces, or a piece that has none. -/
inductive BraceItem where
  | byte (c : Char)
  | piece (p : Piece)
deriving Inhabited

def BraceItem.isByte (c : Char) : BraceItem → Bool
  | .byte b => b == c
  | .piece _ => false

/-- The items between braces up to the closing one, cut at the commas, and what follows. -/
def braceParts? : Nat → List BraceItem → Option (List (List BraceItem) × List BraceItem)
  | _, [] => none
  | level, item :: rest =>
    let continued (level : Nat) : Option (List (List BraceItem) × List BraceItem) := do
      match ← braceParts? level rest with
      | (first :: others, after) => return ((item :: first) :: others, after)
      | ([], after) => return ([[item]], after)
    if item.isByte '\x7b' then continued (level + 1)
    else if item.isByte '\x7d' then
      if level = 0 then some ([[]], rest) else continued (level - 1)
    else if item.isByte ',' && level = 0 then
      (braceParts? level rest).map fun (parts, after) => ([] :: parts, after)
    else continued level

/-- The items from one value to another, as numbers or as letters. -/
def braceRange? (items : List BraceItem) : Option (List (List BraceItem)) := do
  let bytes ← items.mapM fun
    | .byte c => some c
    | .piece _ => none
  let cut (o : Octets) : Option (Octets × Octets) :=
    let first := o.takeWhile (· != '.')
    match o.drop first.length with
    | '.' :: '.' :: rest => some (first, rest)
    | _ => none
  let (first, rest) ← cut bytes
  let (last, step) := (cut rest).getD (rest, ['1'])
  let step ← Octets.toInt? step
  let step := if step = 0 then 1 else step.natAbs
  let spread (a b : Int) : List Int :=
    (List.range ((b - a).natAbs / step + 1)).map fun (i : Nat) =>
      if a ≤ b then a + (i * step : Nat) else a - (i * step : Nat)
  match Octets.toInt? first, Octets.toInt? last with
  | some a, some b =>
    let isPadded (o : Octets) : Bool :=
      match o with
      | '0' :: _ :: _ | '-' :: '0' :: _ => true
      | _ => false
    let width := if isPadded first || isPadded last then max first.length last.length else 0
    let text (n : Int) : Octets :=
      let digits := Octets.ofNat n.natAbs
      let sign := if n < 0 then ['-'] else []
      sign ++ List.replicate (width - sign.length - digits.length) '0' ++ digits
    return (spread a b).map fun n => (text n).map .byte
  | _, _ =>
    match first, last with
    | [a], [b] =>
      if a.isAlpha && b.isAlpha then
        return (spread a.toNat b.toNat).map fun n => [.byte (Char.ofNat n.toNat)]
      else none
    | _, _ => none

/-- The words that a word with lists between braces stands for, with a bound on the lists. -/
def spreadBraces : Nat → List BraceItem → List (List BraceItem)
  | 0, items => [items]
  | fuel + 1, items =>
    let before := items.takeWhile fun item => !item.isByte '\x7b'
    match items.drop before.length with
    | [] => [items]
    | brace :: rest =>
      match braceParts? 0 rest with
      | none => (spreadBraces fuel rest).map fun word => before ++ brace :: word
      | some (parts, after) =>
        let choices : Option (List (List BraceItem)) :=
          match parts with
          | [one] => braceRange? one
          | parts => some (parts.flatMap (spreadBraces fuel))
        match choices with
        | some choices =>
          let ends := spreadBraces fuel after
          choices.flatMap fun choice => ends.map fun word => before ++ choice ++ word
        | none => (spreadBraces fuel rest).map fun word => before ++ brace :: word

def Word.spread (w : Word) : List Word :=
  let items := w.flatMap fun
    | .plain o => o.map BraceItem.byte
    | p => [.piece p]
  if items.any (BraceItem.isByte '\x7b') then
    (spreadBraces (items.length + 1) items).map fun items =>
      items.map fun
        | .byte c => .plain [c]
        | .piece p => p
  else [w]

end Sweep.Shell
