import Sweep.Text.Bytes

/-!
# Octets

Scripts and the programs that they start pass bytes on without asking whether they make up a text.
A byte is held as the character of the same number, so that what is known of characters can be
said of bytes.
-/

namespace Sweep

/-- Bytes, each held as the character of the same number. -/
abbrev Octets := List Char

namespace Octets

def ofByte (b : UInt8) : Char := Char.ofNat b.toNat

def ofBytes (b : ByteArray) : Octets := b.toList.map ofByte

def toBytes (o : Octets) : ByteArray := ⟨(o.map fun c => UInt8.ofNat c.toNat).toArray⟩

def ofString (s : String) : Octets := ofBytes (Text.toBytes s)

/-- The text of a message with a name in it. -/
def told (before : String) (name : Octets) (after : String) : Octets :=
  ofString before ++ name ++ ofString after

def toText (o : Octets) : String := Text.ofBytesLenient (toBytes o)

/-- A number in decimal digits. -/
def ofNat (n : Nat) : Octets := (toString n).toList

def ofInt (n : Int) : Octets := (toString n).toList

def digitsValue (digits : Octets) : Nat :=
  digits.foldl (fun n c => n * 10 + (c.toNat - '0'.toNat)) 0

/-- The white space that separates words. -/
def isSpace (c : Char) : Bool := c == ' ' || (9 ≤ c.toNat && c.toNat ≤ 13)

/-- A whole number with an optional sign, white space around it aside. -/
def toInt? (o : Octets) : Option Int :=
  let trimmed := ((o.dropWhile isSpace).reverse.dropWhile isSpace).reverse
  let number (digits : Octets) : Option Nat :=
    if digits.isEmpty || !digits.all Char.isDigit then none else some (digitsValue digits)
  match trimmed with
  | '-' :: digits => (number digits).map fun n => -(n : Int)
  | '+' :: digits => (number digits).map Int.ofNat
  | digits => (number digits).map Int.ofNat

/-- The lines of some bytes; the last one need not end with a line feed. -/
def lines : Octets → List Octets
  | [] => []
  | c :: rest =>
    if c = '\n' then [] :: lines rest
    else
      match lines rest with
      | [] => [[c]]
      | line :: others => (c :: line) :: others

/-- Lines, each with a line feed at its end. -/
def unlines (ls : List Octets) : Octets := ls.flatMap fun line => line ++ ['\n']

/-- Cuts at every occurrence of a byte. -/
def splitAtEach (separator : Char) : Octets → List Octets
  | [] => [[]]
  | c :: rest =>
    if c = separator then [] :: splitAtEach separator rest
    else
      match splitAtEach separator rest with
      | [] => [[c]]
      | piece :: pieces => (c :: piece) :: pieces

/-- The order of bytes. -/
def le : Octets → Octets → Bool
  | [], _ => true
  | _ :: _, [] => false
  | a :: as, b :: bs => a < b || (a == b && le as bs)

end Octets

end Sweep

/-! ## Patterns of names

In a pattern `*` stands for any text, `?` for any byte, and brackets for one of the bytes that they
list. A byte that was quoted stands for itself.
-/

namespace Sweep.Glob

/-- A byte of a pattern, and whether it was quoted. -/
abbrev Mark := Char × Bool

/-- A list of bytes between brackets. -/
structure ByteClass where
  negated : Bool
  ranges : List (Char × Char)
deriving DecidableEq, Repr

def ByteClass.contains (s : ByteClass) (c : Char) : Bool :=
  (s.ranges.any fun (a, b) => a ≤ c && c ≤ b) != s.negated

def namedRanges : String → List (Char × Char)
  | "digit" => [('0', '9')]
  | "lower" => [('a', 'z')]
  | "upper" => [('A', 'Z')]
  | "alpha" => [('a', 'z'), ('A', 'Z')]
  | "alnum" => [('a', 'z'), ('A', 'Z'), ('0', '9')]
  | "space" => [('\t', '\r'), (' ', ' ')]
  | "blank" => [('\t', '\t'), (' ', ' ')]
  | "punct" => [('!', '/'), (':', '@'), ('[', '\x60'), ('\x7b', '~')]
  | "xdigit" => [('0', '9'), ('a', 'f'), ('A', 'F')]
  | _ => []

/-- The items of a class up to the closing bracket, and what follows it. A closing bracket that
comes first stands for itself. -/
def classItems? (first : Bool) : Octets → Option (List (Char × Char) × Octets)
  | [] => none
  | '[' :: ':' :: rest =>
    let name := rest.takeWhile (· != ':')
    match h : rest.dropWhile (· != ':') with
    | ':' :: ']' :: after =>
      have : after.length < rest.length := by
        have := (List.dropWhile_sublist (l := rest) (· != ':')).length_le
        simp only [h, List.length_cons] at this
        omega
      (classItems? false after).map fun (items, left) =>
        (namedRanges (String.ofList name) ++ items, left)
    | _ => none
  | ']' :: rest => if first then
      (classItems? false rest).map fun (items, left) => ((']', ']') :: items, left)
    else some ([], rest)
  | a :: '-' :: b :: rest =>
    if b = ']' then some ([(a, a), ('-', '-')], rest)
    else (classItems? false rest).map fun (items, left) => ((a, b) :: items, left)
  | a :: rest => (classItems? false rest).map fun (items, left) => ((a, a) :: items, left)
termination_by o => o.length

/-- A class after its opening bracket, and what follows it. -/
def class? : Octets → Option (ByteClass × Octets)
  | '!' :: rest | '^' :: rest => (classItems? true rest).map fun (r, left) => (⟨true, r⟩, left)
  | rest => (classItems? true rest).map fun (r, left) => (⟨false, r⟩, left)

inductive Part where
  | one (c : Char)
  | any
  | many
  | oneOf (s : ByteClass)
deriving DecidableEq, Repr

def parts : List Mark → List Part
  | [] => []
  | (c, true) :: rest => .one c :: parts rest
  | ('*', false) :: rest => .many :: parts rest
  | ('?', false) :: rest => .any :: parts rest
  | ('[', false) :: rest =>
    match class? (rest.map (·.1)) with
    | some (s, left) => .oneOf s :: parts (rest.drop (rest.length - left.length))
    | none => .one '[' :: parts rest
  | (c, false) :: rest => .one c :: parts rest
termination_by marks => marks.length

/-- Whether a text has the form of a pattern. -/
def fits : List Part → Octets → Bool
  | [], text => text.isEmpty
  | .many :: ps, [] => fits ps []
  | .many :: ps, c :: text => fits ps (c :: text) || fits (.many :: ps) text
  | .any :: ps, _ :: text => fits ps text
  | .one a :: ps, c :: text => a == c && fits ps text
  | .oneOf s :: ps, c :: text => s.contains c && fits ps text
  | _ :: _, [] => false
termination_by ps text => ps.length + text.length

/-- Whether a pattern has a part that stands for more than itself. -/
def isPattern (marks : List Mark) : Bool :=
  marks.any fun (c, quoted) => !quoted && (c == '*' || c == '?' || c == '[')

def fitsMarks (marks : List Mark) (text : Octets) : Bool := fits (parts marks) text

/-- The shortest or longest beginning of a text that fits, taken away. -/
def trimStart (longest : Bool) (marks : List Mark) (text : Octets) : Octets :=
  let lengths := List.range (text.length + 1)
  let fitting := (if longest then lengths.reverse else lengths).find? fun n =>
    fitsMarks marks (text.take n)
  match fitting with
  | some n => text.drop n
  | none => text

/-- The shortest or longest end of a text that fits, taken away. -/
def trimEnd (longest : Bool) (marks : List Mark) (text : Octets) : Octets :=
  let lengths := List.range (text.length + 1)
  let fitting := (if longest then lengths else lengths.reverse).find? fun n =>
    fitsMarks marks (text.drop n)
  match fitting with
  | some n => text.take n
  | none => text

end Sweep.Glob
