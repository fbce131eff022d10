import Sweep.Json.Basic
import Sweep.Number.Shortest

/-!
# Written data values

Two layouts of one value: the compact one, without white space, in which values appear inside
command lines, fingerprints and messages; and the indented one, one field or item per line, in
which artifacts and stored runs are kept.
-/

namespace Sweep.Json

/-- One hexadecimal digit in lower case. -/
def hexDigit (n : Nat) : Char :=
  if n < 10 then Char.ofNat ('0'.toNat + n) else Char.ofNat ('a'.toNat + (n - 10))

/-- A character inside a quoted text: the quote, the backslash and the control characters below
U+0020 are escaped, all else stands for itself. -/
def escapeChar (c : Char) : List Char :=
  if c = '"' then ['\\', '"']
  else if c = '\\' then ['\\', '\\']
  else if c = '\n' then ['\\', 'n']
  else if c = '\r' then ['\\', 'r']
  else if c = '\t' then ['\\', 't']
  else if c = '\x08' then ['\\', 'b']
  else if c = '\x0c' then ['\\', 'f']
  else if c.toNat < 0x20 then
    ['\\', 'u', '0', '0', hexDigit (c.toNat / 16), hexDigit (c.toNat % 16)]
  else [c]

/-- A text between double quotes. -/
def quoted (s : String) : List Char :=
  '"' :: s.toList.flatMap escapeChar ++ ['"']

/-- The decimal digits of an integer, after a minus if it is negative. -/
def integerChars (n : Int) : List Char :=
  if n < 0 then '-' :: Nat.toDigits 10 n.natAbs else Nat.toDigits 10 n.natAbs

def numberChars : JsonNumber → List Char
  | .integer n => integerChars n
  | .double x => Number.dataForm x

mutual

def compactChars : Json → List Char
  | .null => ['n', 'u', 'l', 'l']
  | .bool true => ['t', 'r', 'u', 'e']
  | .bool false => ['f', 'a', 'l', 's', 'e']
  | .number n => numberChars n
  | .text s => quoted s
  | .list [] => ['[', ']']
  | .list (item :: rest) => '[' :: compactChars item ++ compactItems rest ++ [']']
  | .record [] => ['\x7b', '\x7d']
  | .record ((name, value) :: rest) =>
    '\x7b' :: quoted name ++ ':' :: compactChars value ++ compactFields rest ++ ['\x7d']

/-- The items after the first, each after a comma. -/
def compactItems : List Json → List Char
  | [] => []
  | item :: rest => ',' :: compactChars item ++ compactItems rest

/-- The fields after the first, each after a comma. -/
def compactFields : List (String × Json) → List Char
  | [] => []
  | (name, value) :: rest =>
    ',' :: quoted name ++ ':' :: compactChars value ++ compactFields rest

end

/-- A line break and the indentation of a level, two spaces per level. -/
def lineBreak (level : Nat) : List Char :=
  '\n' :: List.replicate (2 * level) ' '

mutual

/-- The indented layout of a value that starts at the given level. -/
def indentedChars (level : Nat) : Json → List Char
  | .list [] => ['[', ']']
  | .list (item :: rest) =>
    '[' :: lineBreak (level + 1) ++ indentedChars (level + 1) item ++
      indentedItems (level + 1) rest ++ lineBreak level ++ [']']
  | .record [] => ['\x7b', '\x7d']
  | .record ((name, value) :: rest) =>
    '\x7b' :: lineBreak (level + 1) ++ quoted name ++ ':' :: ' ' ::
      indentedChars (level + 1) value ++ indentedFields (level + 1) rest ++
      lineBreak level ++ ['\x7d']
  | .null => ['n', 'u', 'l', 'l']
  | .bool true => ['t', 'r', 'u', 'e']
  | .bool false => ['f', 'a', 'l', 's', 'e']
  | .number n => numberChars n
  | .text s => quoted s

/-- The items after the first, each after a comma and on a line of its own. -/
def indentedItems (level : Nat) : List Json → List Char
  | [] => []
  | item :: rest =>
    ',' :: lineBreak level ++ indentedChars level item ++ indentedItems level rest

/-- The fields after the first, each after a comma and on a line of its own. -/
def indentedFields (level : Nat) : List (String × Json) → List Char
  | [] => []
  | (name, value) :: rest =>
    ',' :: lineBreak level ++ quoted name ++ ':' :: ' ' ::
      indentedChars level value ++ indentedFields level rest

end

def compact (value : Json) : String := String.ofList value.compactChars

def indented (value : Json) : String := String.ofList (value.indentedChars 0)

/-- The text of a value where it is handed on as text: a text is itself, all else is written. -/
def asText : Json → String
  | .text s => s
  | value => value.compact

end Sweep.Json
