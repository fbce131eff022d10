/-!
# Texts as bytes

Files and processes deal in bytes. A text is written to them in UTF-8; what is read from them is a
text only if it is well-formed, or it is read leniently, with a replacement character in place of
what is not.
-/

namespace Sweep.Text

/-- Stands for bytes that belong to no character. -/
def replacement : Char := '\uFFFD'

/-- Whether a byte continues a character. -/
def isContinuation (b : UInt8) : Bool := 0x80 ≤ b && b ≤ 0xBF

/-- Whether a byte may follow the first byte of a longer character. Some first bytes narrow the
choice, so that a character has one encoding and none lies beyond the last code point. -/
def mayFollow (first second : UInt8) : Bool :=
  if first = 0xE0 then 0xA0 ≤ second && second ≤ 0xBF
  else if first = 0xED then 0x80 ≤ second && second ≤ 0x9F
  else if first = 0xF0 then 0x90 ≤ second && second ≤ 0xBF
  else if first = 0xF4 then 0x80 ≤ second && second ≤ 0x8F
  else isContinuation second

/-- The number of bytes that a character with the given first byte has. -/
def encodedLength (first : UInt8) : Nat :=
  if first < 0x80 then 1
  else if 0xC2 ≤ first && first ≤ 0xDF then 2
  else if 0xE0 ≤ first && first ≤ 0xEF then 3
  else if 0xF0 ≤ first && first ≤ 0xF4 then 4
  else 0

/-- The bits that a byte after the first contributes to a character. -/
def addBits (code : Nat) (b : UInt8) : Nat := code * 64 + b.toNat % 64

/-- The first character of some bytes, and the bytes after it. What is the beginning of a character
at most is replaced as one. -/
def nextLenient (first : UInt8) (rest : List UInt8) : Char × List UInt8 :=
  match encodedLength first, rest with
  | 1, rest => (Char.ofNat first.toNat, rest)
  | 2, b :: rest =>
    if isContinuation b then (Char.ofNat (addBits (first.toNat % 32) b), rest)
    else (replacement, b :: rest)
  | 3, b :: rest =>
    if mayFollow first b then
      match rest with
      | c :: rest =>
        if isContinuation c then (Char.ofNat (addBits (addBits (first.toNat % 16) b) c), rest)
        else (replacement, c :: rest)
      | [] => (replacement, [])
    else (replacement, b :: rest)
  | 4, b :: rest =>
    if mayFollow first b then
      match rest with
      | c :: rest =>
        if isContinuation c then
          match rest with
          | d :: rest =>
            if isContinuation d then
              (Char.ofNat (addBits (addBits (addBits (first.toNat % 8) b) c) d), rest)
            else (replacement, d :: rest)
          | [] => (replacement, [])
        else (replacement, c :: rest)
      | [] => (replacement, [])
    else (replacement, b :: rest)
  | _, rest => (replacement, rest)

theorem length_nextLenient_le (first : UInt8) (rest : List UInt8) :
    (nextLenient first rest).2.length ≤ rest.length := by
  unfold nextLenient
  repeat' split
  all_goals simp_all
  all_goals omega

/-- The characters of some bytes, read leniently. -/
def decodeLenient : List UInt8 → List Char
  | [] => []
  | first :: rest =>
    (nextLenient first rest).1 :: decodeLenient (nextLenient first rest).2
termination_by bytes => bytes.length
decreasing_by
  have := length_nextLenient_le first rest
  simp only [List.length_cons]
  omega

/-- Some bytes as a text, read leniently. -/
def ofBytesLenient (bytes : ByteArray) : String := String.ofList (decodeLenient bytes.toList)

/-- Some bytes as a text, if they are well-formed. -/
def ofBytes? (bytes : ByteArray) : Option String := String.fromUTF8? bytes

def toBytes (s : String) : ByteArray := s.toUTF8

end Sweep.Text
