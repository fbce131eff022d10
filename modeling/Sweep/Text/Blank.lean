/-!
# White space around texts

The white space of Unicode, and the removal of it at both ends of a text. Every name, condition,
answer and output line is trimmed by this rule, so it is stated once, on lists of characters, and
lifted to strings.
-/

namespace Sweep.Text

/-- The 25 code points with the property `White_Space`. -/
def isBlank (c : Char) : Bool :=
  let n := c.toNat
  (9 ≤ n && n ≤ 13) || n == 0x20 || n == 0x85 || n == 0xA0 || n == 0x1680 ||
    (0x2000 ≤ n && n ≤ 0x200A) || n == 0x2028 || n == 0x2029 || n == 0x202F || n == 0x205F ||
    n == 0x3000

/-- A text without the white space at its start. -/
def trimStart (s : List Char) : List Char :=
  s.dropWhile isBlank

/-- A text without the white space at its end. -/
def trimEnd (s : List Char) : List Char :=
  (s.reverse.dropWhile isBlank).reverse

/-- A text without the white space at either end. -/
def trimChars (s : List Char) : List Char :=
  trimEnd (trimStart s)

/-- A string without the white space at either end. -/
def trim (s : String) : String :=
  String.ofList (trimChars s.toList)

/-- A string of white space only, which counts as no text at all. -/
def isEmptyTrimmed (s : String) : Bool :=
  s.toList.all isBlank

@[simp] theorem trimStart_nil : trimStart [] = [] := rfl

@[simp] theorem trimEnd_nil : trimEnd [] = [] := rfl

theorem trimStart_cons_of_not_blank {c : Char} (h : isBlank c = false) (s : List Char) :
    trimStart (c :: s) = c :: s := by
  simp [trimStart, h]

end Sweep.Text
