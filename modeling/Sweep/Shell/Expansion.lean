import Sweep.Shell.Arithmetic
import Sweep.Shell.Fields

/-!
# Expanding words

The pieces of a word are replaced by values. A script in a word has to be carried out for that, so
the functions here are given what carries scripts out; what is within a word is expanded first,
with a bound on the depth.
-/

namespace Sweep.Shell

/-- What carries a script out. -/
abbrev Runner := Script → ShellM Unit

/-- What gives the fragments of a word. -/
abbrev Expander := Word → ShellM (List Fragment)

/-- The most levels of words within words that are expanded. -/
def maxWordDepth : Nat := 1000

def wrapQuoted (o : Octets) : Fragment := .whole (o.map fun c => (c, true))

/-- The fragment of a value. -/
def wrap (isQuoted : Bool) (o : Octets) : Fragment := if isQuoted then wrapQuoted o else .loose o

/-- The fragments of several values. -/
def wrapAll (isQuoted : Bool) (joint : Octets) (values : List Octets) : List Fragment :=
  (values.map (wrap isQuoted)).intersperse (.boundary joint)

def wholeText (e : Expander) (w : Word) : ShellM Octets := do return bytesOf (marksOf (← e w))

/-- The number that a text stands for as an expression. -/
def numberOf (text : Octets) : ShellM Int := do
  let s ← get
  let context : Arithmetic.Context :=
    { dialect := s.dialect, value := fun name => (s.parameter? name).getD [] }
  match Arithmetic.evaluate context text with
  | .ok (n, assigned) =>
    for (name, value) in assigned.reverse do
      assign name (Octets.ofInt value)
    return n
  | .error fault =>
    match s.dialect, fault with
    | .sh, fault => fail (fault.message text)
    | .bash, .divisionByZero =>
      let operand := (text.reverse.takeWhile fun c => c != '/' && c != '%').reverse
      fail (text ++ Octets.ofString ": division by 0 (error token is \"" ++
        operand.dropWhile Octets.isSpace ++ "\")".toList)
    | .bash, .negativeExponent => fail (fault.message text)
    | .bash, _ =>
      let last := (text.getLast?.map fun c => [c]).getD []
      fail (text ++ Octets.ofString ": syntax error: operand expected (error token is \"" ++ last ++
        "\")".toList)

/-- The number that a word stands for as an expression. -/
def numberOfWord (e : Expander) (w : Word) : ShellM Int := do numberOf (← wholeText e w)

/-- A text with what fits a pattern replaced. -/
def replaceIn (place : ReplacePlace) (marks : List Glob.Mark) (replacement text : Octets) :
    Octets :=
  let longestAt (rest : Octets) : Option Nat :=
    (List.range (rest.length + 1)).reverse.find? fun n => Glob.fitsMarks marks (rest.take n)
  let rec go (all : Bool) : Nat → Octets → Octets
    | 0, rest => rest
    | fuel + 1, rest =>
      match longestAt rest with
      | some n =>
        if n = 0 then
          match rest with
          | c :: more => c :: go all fuel more
          | [] => []
        else replacement ++ (if all then go all fuel (rest.drop n) else rest.drop n)
      | none =>
        match rest with
        | c :: more => c :: go all fuel more
        | [] => []
  if marks.isEmpty then text
  else
    match place with
    | .first => go false (text.length + 1) text
    | .all => go true (text.length + 1) text
    | .start =>
      match longestAt text with
      | some n => replacement ++ text.drop n
      | none => text
    | .finish =>
      let lengths := List.range (text.length + 1)
      match lengths.find? fun n => Glob.fitsMarks marks (text.drop n) with
      | some n => text.take n ++ replacement
      | none => text

/-- A text with letters of the other case. -/
def recaseIn (upper all : Bool) (text : Octets) : Octets :=
  let change (c : Char) : Char := if upper then c.toUpper else c.toLower
  if all then text.map change
  else
    match text with
    | c :: rest => change c :: rest
    | [] => []

/-- A part of some values or bytes: from an offset on, which is counted from the end if it is
negative, and of a length, which is likewise. -/
def sliceOf {α : Type} (offset : Int) (length : Option Int) (xs : List α) : List α :=
  let size : Int := xs.length
  let start := if offset < 0 then size + offset else offset
  if start < 0 || size < start then []
  else
    let rest := xs.drop start.toNat
    match length with
    | none => rest
    | some n => if n < 0 then rest.take (rest.length - n.natAbs) else rest.take n.toNat

inductive ParameterValue where
  | one (value : Option Octets)
  | many (values : List Octets) (isJoined : Bool)

/-- The value of a parameter, at a place if it is a list. -/
def parameterValue (e : Expander) (name : String) (index : Index) : ShellM ParameterValue := do
  let s ← get
  match name, index with
  | "@", _ => return .many s.arguments false
  | "*", _ => return .many s.arguments true
  | _, .every => return .many ((s.elements name).map (·.2)) false
  | _, .joined => return .many ((s.elements name).map (·.2)) true
  | "PIPESTATUS", .none => return .one ((s.pipeStatuses.head?).map Octets.ofNat)
  | _, .none => return .one (s.parameter? name)
  | _, .position w =>
    let isKeyed := (s.bindings.get? name).any fun v => v.isKeyed
    let elements := s.elements name
    let key ← if isKeyed then wholeText e w
      else do
        let n ← numberOfWord e w
        let last := (elements.getLast?.map fun x => Octets.digitsValue x.1 + 1).getD 0
        pure (Octets.ofInt (if n < 0 then n + last else n))
    return .one ((elements.find? fun x => x.1 == key).map (·.2))

namespace ParameterValue

def isUnset : ParameterValue → Bool
  | .one value => value.isNone
  | .many values _ => values.isEmpty

def isEmpty : ParameterValue → Bool
  | .one value => (value.getD []).isEmpty
  | .many values _ => values.all List.isEmpty

def map (f : Octets → Octets) : ParameterValue → ParameterValue
  | .one value => .one (some (f (value.getD [])))
  | .many values isJoined => .many (values.map f) isJoined

def fragments (isQuoted : Bool) (joint : Octets) : ParameterValue → List Fragment
  | .one value => [wrap isQuoted (value.getD [])]
  | .many values isJoined =>
    if isQuoted && isJoined then [wrapQuoted (joint.intercalate values)]
    else wrapAll isQuoted joint values

end ParameterValue

/-- The fragments of a word that stands for a value that is missing. -/
def alternativeFragments (e : Expander) (isQuoted : Bool) (w : Word) : ShellM (List Fragment) := do
  let fragments ← (w.map fun p => [p]).flatMapM fun part => do
    let found ← e part
    match part with
    | [.plain _] =>
      return if isQuoted then found
        else found.map fun
          | .whole marks => .loose (bytesOf marks)
          | f => f
    | _ => return found
  if isQuoted then
    let quoted := fragments.map fun
      | .whole marks => .whole (marks.map fun mark => (mark.1, true))
      | .loose o => wrapQuoted o
      | .boundary joint => .boundary joint
    return if quoted.isEmpty && w.isEmpty then [wrapQuoted []] else quoted
  else return fragments

def expandParameter (e : Expander) (name : String) (index : Index) (use : Use) (isQuoted : Bool) :
    ShellM (List Fragment) := do
  let value ← parameterValue e name index
  let s ← get
  let joint := s.joint
  let shown (v : ParameterValue) : List Fragment := v.fragments isQuoted joint
  let isMissing (alsoEmpty : Bool) : Bool := value.isUnset || (alsoEmpty && value.isEmpty)
  let needed : ShellM Unit := do
    let isOptional := match value with
      | .one _ => false
      | .many _ _ => true
    if value.isUnset && s.options.failOnUnset && !isOptional then
      match s.dialect with
      | .sh => die (Octets.ofString (name ++ ": parameter not set"))
      | .bash =>
        complain (Octets.ofString ((if name.toList.all Char.isDigit then "$" else "") ++ name ++
          ": unbound variable"))
        setStatus 1
        throw .exit
  let text (v : ParameterValue) : Octets := match v with
    | .one value => value.getD []
    | .many values _ => joint.intercalate values
  match use with
  | .value =>
    needed
    return shown value
  | .length =>
    needed
    let n := match value with
      | .one value => (value.getD []).length
      | .many values _ => values.length
    return [wrap isQuoted (Octets.ofNat n)]
  | .orElse alsoEmpty word =>
    if isMissing alsoEmpty then alternativeFragments e isQuoted word else return shown value
  | .orAssign alsoEmpty word =>
    if isMissing alsoEmpty then
      if !(isNameStart (name.toList.headD ' ')) then
        match s.dialect with
        | .sh => fail (Octets.ofString s!"{name}: bad variable name")
        | .bash => fail (Octets.ofString s!"${name}: cannot assign in this way")
      let found ← wholeText e word
      assign name found
      return [wrap isQuoted found]
    else return shown value
  | .orFail alsoEmpty word =>
    if isMissing alsoEmpty then
      let found ← wholeText e word
      let standard := match s.dialect with
        | .sh => "parameter not set" ++ (if alsoEmpty then " or null" else "")
        | .bash => if alsoEmpty then "parameter null or not set" else "parameter not set"
      let reason := if word.isEmpty then Octets.ofString standard else found
      complain (Octets.ofString (name ++ ": ") ++ reason)
      setStatus (if s.dialect = .sh then 2 else 1)
      throw (if s.dialect = .sh then .failed else .exit)
    else return shown value
  | .andThen alsoEmpty word =>
    if isMissing alsoEmpty then return [wrap isQuoted []]
    else alternativeFragments e isQuoted word
  | .trimStart longest pattern =>
    needed
    let marks := marksOf (← e pattern)
    return shown (value.map (Glob.trimStart longest marks))
  | .trimEnd longest pattern =>
    needed
    let marks := marksOf (← e pattern)
    return shown (value.map (Glob.trimEnd longest marks))
  | .slice offset length =>
    needed
    let start ← numberOfWord e offset
    let size ← match length with
      | some w => do pure (some (← numberOfWord e w))
      | none => pure none
    match value with
    | .one value => return shown (.one (some (sliceOf start size (value.getD []))))
    | .many values isJoined =>
      let values := if name == "@" || name == "*" then s.name :: values else values
      return shown (.many (sliceOf start size values) isJoined)
  | .replace place pattern replacement =>
    needed
    let marks := marksOf (← e pattern)
    let found ← wholeText e replacement
    return shown (value.map (replaceIn place marks found))
  | .recase upper all =>
    needed
    return shown (value.map (recaseIn upper all))
  | .indirect =>
    let target ← parameterValue e (Octets.toText (text value)) .none
    return shown target
  | .positions => return shown (.many ((s.elements name).map (·.1)) false)
  | .unknown shownText =>
    match s.dialect with
    | .sh => fail (Octets.ofString "Bad substitution")
    | .bash => fail (shownText ++ Octets.ofString ": bad substitution")

def expandPiece (run : Runner) (e : Expander) (piece : Piece) : ShellM (List Fragment) := do
  match piece with
  | .plain o => return [.whole (o.map fun c => (c, false))]
  | .quoted o => return [wrapQuoted o]
  | .output body isQuoted =>
    let before := (← get).status
    let text ← captured (isolated (run body))
    modify fun s => { s with status := before, substituted := s.status }
    let text := (text.filter (· != '\x00')).reverse.dropWhile (· == '\n')
    return [wrap isQuoted text.reverse]
  | .number inside isQuoted =>
    let text ← wholeText e inside
    return [wrap isQuoted (Octets.ofInt (← numberOf text))]
  | .parameter name index use isQuoted => expandParameter e name index use isQuoted

def expandWord (run : Runner) : Nat → Expander
  | 0, _ => return []
  | depth + 1, w => w.flatMapM (expandPiece run (expandWord run depth))

def fragmentsOf (run : Runner) : Expander := expandWord run maxWordDepth

/-- A word with the home directory in place of a tilde at its start. -/
def withHome (s : State) (w : Word) : Word :=
  match w with
  | .plain ('~' :: o) :: rest =>
    let isBare := match o with
      | [] => rest.isEmpty
      | c :: _ => c == '/'
    match s.value? "HOME" with
    | some home => if isBare then .quoted home :: .plain o :: rest else w
    | none => w
  | w => w

/-- The bytes of a word as one text. -/
def expandWhole (run : Runner) (w : Word) : ShellM Octets := do
  wholeText (fragmentsOf run) (withHome (← get) w)

def expandPattern (run : Runner) (w : Word) : ShellM (List Glob.Mark) := do
  return marksOf (← fragmentsOf run w)

def expandFields (run : Runner) (w : Word) : ShellM (List Octets) := do
  let s ← get
  let words := if s.dialect = .bash then Word.spread w else [w]
  words.flatMapM fun w => do
    let fragments ← fragmentsOf run (withHome s w)
    let s ← get
    let fields := fieldsOf s.separators fragments
    return if s.options.withoutPaths then fields.map bytesOf
      else fields.flatMap (pathsOf s.files)

end Sweep.Shell
