import Sweep.Digest
import Sweep.Shell.Tool.Lines

/-!
# Sums, encodings and dumps of files

Sums by which files are told apart, an encoding of bytes by printable letters, and `od`, which shows
the bytes of files, in groups, as numbers of several bases or as characters.
-/

namespace Sweep.Tool

/-! ## Sums -/

/-- The state of a sum of five words; the last one is not used by the sum of four. -/
structure SumState where
  a : UInt32 := 0x67452301
  b : UInt32 := 0xefcdab89
  c : UInt32 := 0x98badcfe
  d : UInt32 := 0x10325476
  e : UInt32 := 0xc3d2e1f0

def rotateLeft (x n : UInt32) : UInt32 := (x <<< n) ||| (x >>> (32 - n))

/-- Mixes a block of words into the sum of five words. -/
def mixFive (s : SumState) (block : List UInt32) : SumState :=
  let schedule : List UInt32 := (Nat.fold 64 (fun _ _ (ws : List UInt32) =>
    let w (i : Nat) : UInt32 := ws.getD (i - 1) 0
    rotateLeft (w 3 ^^^ w 8 ^^^ w 14 ^^^ w 16) 1 :: ws) block.reverse).reverse
  let t := schedule.zipIdx.foldl (fun (t : SumState) (w, i) =>
    let (f, k) : UInt32 × UInt32 :=
      if i < 20 then ((t.b &&& t.c) ||| (~~~t.b &&& t.d), 0x5a827999)
      else if i < 40 then (t.b ^^^ t.c ^^^ t.d, 0x6ed9eba1)
      else if i < 60 then ((t.b &&& t.c) ||| (t.b &&& t.d) ||| (t.c &&& t.d), 0x8f1bbcdc)
      else (t.b ^^^ t.c ^^^ t.d, 0xca62c1d6)
    { a := rotateLeft t.a 5 + f + t.e + k + w
      b := t.a
      c := rotateLeft t.b 30
      d := t.c
      e := t.d }) s
  { a := s.a + t.a, b := s.b + t.b, c := s.c + t.c, d := s.d + t.d, e := s.e + t.e }

/-- The constants of the sum of four words: the sines of whole numbers. -/
def sineWord (i : Nat) : UInt32 :=
  UInt32.ofNat ((Float.abs (Float.sin (Float.ofNat (i + 1))) * 4294967296.0).floor.toUInt64).toNat

def sumShifts : List UInt32 :=
  [7, 12, 17, 22, 5, 9, 14, 20, 4, 11, 16, 23, 6, 10, 15, 21]

def mixFour (s : SumState) (block : List UInt32) : SumState :=
  let t := (List.range 64).foldl (fun (t : SumState) i =>
    let (f, g) : UInt32 × Nat :=
      if i < 16 then ((t.b &&& t.c) ||| (~~~t.b &&& t.d), i)
      else if i < 32 then ((t.d &&& t.b) ||| (~~~t.d &&& t.c), (5 * i + 1) % 16)
      else if i < 48 then (t.b ^^^ t.c ^^^ t.d, (3 * i + 5) % 16)
      else (t.c ^^^ (t.b ||| ~~~t.d), (7 * i) % 16)
    let x := f + t.a + sineWord i + block.getD g 0
    let shift := sumShifts.getD (i / 16 * 4 + i % 4) 0
    { t with a := t.d, d := t.c, c := t.b, b := t.b + rotateLeft x shift }) s
  { s with a := s.a + t.a, b := s.b + t.b, c := s.c + t.c, d := s.d + t.d }

/-- Words with their bytes in the opposite order. -/
def swapped (w : UInt32) : UInt32 :=
  let second : UInt32 := 0xff00
  (w <<< 24) ||| ((w &&& second) <<< 8) ||| ((w >>> 8) &&& second) ||| (w >>> 24)

def bytesOf (o : Octets) : List UInt8 := o.map fun c => UInt8.ofNat c.toNat

def hexWords (ws : List UInt32) : Octets :=
  ws.flatMap fun w => (Digest.bytesOf 4 w.toNat).flatMap Digest.hexByte

def mixBlocks (mix : SumState → List UInt32 → SumState) : Nat → SumState → List UInt32 → SumState
  | 0, s, _ => s
  | n + 1, s, words => mixBlocks mix n (mix s (words.take 16)) (words.drop 16)

def sumFive (o : Octets) : Octets :=
  let message := Digest.padded (bytesOf o)
  let s := mixBlocks mixFive (message.length / 64) {} (Digest.wordsOf message)
  hexWords [s.a, s.b, s.c, s.d, s.e]

/-- The sum of four words, which holds the first byte of a word as the least one. -/
def sumFour (o : Octets) : Octets :=
  let message := Digest.padded (bytesOf o)
  let body := message.take (message.length - 8) ++ (Digest.bytesOf 8 (8 * o.length)).reverse
  let s := mixBlocks mixFour (body.length / 64) {} ((Digest.wordsOf body).map swapped)
  hexWords ([s.a, s.b, s.c, s.d].map swapped)

def sumEight (o : Octets) : Octets := (Digest.hexOfBytes (bytesOf o)).toList

/-- Compares the sums that are listed in files with those of the files they name. -/
def checkSums (sum : Octets → Octets) (c : ToolCall) (operands : List Octets) : ToolM Unit := do
  let lines := Octets.lines (← joinedSources c {} operands)
  let mut failed := 0
  for line in lines do
    let wanted := line.takeWhile fun b => !Octets.isSpace b
    let path := (line.drop wanted.length).drop 2
    match ← readPath path with
    | .ok text =>
      if sum text == wanted then printLine (path ++ ": OK".toList)
      else
        printLine (path ++ ": FAILED".toList)
        failed := failed + 1
    | .error fault =>
      c.complain 1 (path ++ Octets.ofString s!": {fault.phrase}")
      printLine (path ++ ": FAILED open or read".toList)
  if failed != 0 then
    let noun := if failed = 1 then "checksum" else "checksums"
    c.complain 1 (Octets.ofString s!"WARNING: {toString failed} computed {noun} did NOT match")

def printSums (sum : Octets → Octets) : Tool := fun c => do
  let forms : OptionForms := {
    plain := "bctzwα"
    long := [("check", 'c'), ("binary", 'b'), ("text", 't'),
    ("zero", 'z'), ("warn", 'w'), ("quiet", 'α'), ("status", 'α'), ("strict", 'α'), ("tag", 'α')] }
  let (found, operands) ← forms.read c
  if found.has 'c' then checkSums sum c operands
  else
    let mark := if found.has 'b' then '*' else ' '
    forSources c {} operands fun path text => do
      print (sum text ++ ' ' :: mark :: path ++ [if found.has 'z' then '\x00' else '\n'])

/-! ## Cyclic sums -/

/-- One step of the division of a polynomial by the one of the cyclic sum. -/
def cyclicStep (crc byte : UInt32) : UInt32 :=
  Nat.fold 8 (fun _ _ (r : UInt32) =>
    if r &&& 0x80000000 != 0 then (r <<< 1) ^^^ 0x04c11db7 else r <<< 1) (crc ^^^ (byte <<< 24))

/-- The bytes of a length, the least one first. -/
def lengthBytes : Nat → Nat → List UInt32
  | 0, _ => []
  | fuel + 1, n => if n = 0 then [] else UInt32.ofNat (n % 256) :: lengthBytes fuel (n / 256)

def printCyclicSums : Tool := fun c => do
  let (_, operands) ← ({} : OptionForms).read c
  forSources c {} operands fun path text => do
    let bytes := text.map (fun b => UInt32.ofNat b.toNat) ++ lengthBytes 16 text.length
    let sum := ~~~(bytes.foldl cyclicStep 0)
    let name := if operands.isEmpty then [] else ' ' :: path
    printLine (Octets.ofNat sum.toNat ++ ' ' :: Octets.ofNat text.length ++ name)

/-! ## Letters for bytes -/

def letters : Octets :=
  "ABCDEFGHIJKLMNOPQRSTUVWXYZabcdefghijklmnopqrstuvwxyz0123456789+/".toList

/-- Four letters for every three bytes. -/
def toLetters : Octets → Octets
  | a :: b :: c :: rest =>
    let n := (a.toNat * 256 + b.toNat) * 256 + c.toNat
    let places := [n / 262144, n / 4096 % 64, n / 64 % 64, n % 64]
    places.map (fun i => letters.getD i '=') ++ toLetters rest
  | [a, b] =>
    let n := (a.toNat * 256 + b.toNat) * 256
    [n / 262144, n / 4096 % 64, n / 64 % 64].map (fun i => letters.getD i '=') ++ ['=']
  | [a] =>
    let n := a.toNat * 65536
    [n / 262144, n / 4096 % 64].map (fun i => letters.getD i '=') ++ ['=', '=']
  | [] => []

/-- The bytes of letters, and whether all of them could be read. -/
def ofLetters : Octets → Octets × Bool
  | a :: b :: c :: d :: rest =>
    let value (x : Char) : Option Nat := letters.idxOf? x
    match value a, value b with
    | some p, some q =>
      let first := Char.ofNat (p * 4 + q / 16)
      match value c, value d with
      | some r, some s =>
        let (others, isWhole) := ofLetters rest
        let second := Char.ofNat (q % 16 * 16 + r / 4)
        (first :: second :: Char.ofNat (r % 4 * 64 + s) :: others, isWhole)
      | some r, none => ([first, Char.ofNat (q % 16 * 16 + r / 4)], d == '=' && rest.isEmpty)
      | none, _ => ([first], c == '=' && d == '=' && rest.isEmpty)
    | _, _ => ([], false)
  | [] => ([], true)
  | _ => ([], false)

/-- Lines of a width, or one text if the width is zero. -/
def wrapped (width : Nat) : Nat → Octets → Octets
  | 0, o => o
  | fuel + 1, o =>
    if width = 0 then o
    else if o.isEmpty then [] else o.take width ++ '\n' :: wrapped width fuel (o.drop width)

def encodeLetters : Tool := fun c => do
  let forms : OptionForms := {
    plain := "di", valued := "w"
    long := [("decode", 'd'), ("ignore-garbage", 'i'), ("wrap", 'w')] }
  let (found, operands) ← forms.read c
  let width ← match found.value? 'w' with
    | none => pure 76
    | some o =>
      if o.isEmpty || !o.all Char.isDigit then
        c.fail 1 (Octets.ofString "invalid wrap size: " ++ Octets.quoted o)
      pure (Octets.digitsValue o)
  let text ← joinedSources c {} operands
  if (← get).status = 0 then
    if found.has 'd' then
      let kept := text.filter fun b =>
        b != '\n' && (!found.has 'i' || letters.contains b || b == '=')
      let (bytes, isWhole) := ofLetters kept
      print bytes
      if !isWhole then c.fail 1 "invalid input".toList
    else print (wrapped width (text.length + 2) (toLetters text))

/-! ## Dumps -/

/-- How bytes are shown: how many make up a group, how wide the group is, and its text. -/
structure DumpForm where
  size : Nat
  width : Nat
  shown : Nat → Octets
  /-- Whether the characters are shown behind the line. -/
  hasText : Bool := false

/-- A number in a base with a number of digits. -/
def dumpDigits (base width n : Nat) : Octets :=
  let digits := Nat.toDigits base n
  List.replicate (width - digits.length) '0' ++ digits

/-- A number of some bytes with a sign. -/
def dumpSigned (size n : Nat) : Octets :=
  let half := 1 <<< (8 * size - 1)
  Octets.ofInt (if n < half then (n : Int) else (n : Int) - (2 * half : Nat))

/-- A byte as a character, or as its escape. -/
def dumpCharacter (n : Nat) : Octets :=
  match n with
  | 0 => ['\\', '0']
  | 7 => ['\\', 'a']
  | 8 => ['\\', 'b']
  | 9 => ['\\', 't']
  | 10 => ['\\', 'n']
  | 11 => ['\\', 'v']
  | 12 => ['\\', 'f']
  | 13 => ['\\', 'r']
  | n => if 32 ≤ n && n < 127 then [Char.ofNat n] else dumpDigits 8 3 n

def controlNames : List String :=
  ["nul", "soh", "stx", "etx", "eot", "enq", "ack", "bel", "bs", "ht", "nl", "vt", "ff", "cr", "so",
   "si", "dle", "dc1", "dc2", "dc3", "dc4", "nak", "syn", "etb", "can", "em", "sub", "esc", "fs",
   "gs", "rs", "us", "sp"]

def dumpName (n : Nat) : Octets :=
  let n := n % 128
  if n = 127 then "del".toList
  else match controlNames[n]? with
  | some name => name.toList
  | none => [Char.ofNat n]

def dumpForm? (letter : Char) (size : Nat) : Option DumpForm :=
  let octal : List (Nat × Nat) := [(1, 3), (2, 6), (4, 11), (8, 22)]
  let signed : List (Nat × Nat) := [(1, 4), (2, 6), (4, 11), (8, 20)]
  let unsigned : List (Nat × Nat) := [(1, 3), (2, 5), (4, 10), (8, 20)]
  let digits (table : List (Nat × Nat)) : Nat :=
    ((table.find? fun e => e.1 == size).map (·.2)).getD 0
  if !([1, 2, 4, 8].contains size) then none
  else match letter with
  | 'x' => some { size, width := 2 * size, shown := dumpDigits 16 (2 * size) }
  | 'o' => some { size, width := digits octal, shown := dumpDigits 8 (digits octal) }
  | 'd' => some { size, width := digits signed, shown := dumpSigned size }
  | 'u' => some { size, width := digits unsigned, shown := Octets.ofNat }
  | 'c' => some { size := 1, width := 3, shown := dumpCharacter }
  | 'a' => some { size := 1, width := 3, shown := dumpName }
  | _ => none

/-- The forms of a text such as `x1c`, with a bound on their number. -/
def dumpForms (c : ToolCall) (whole : Octets) : Nat → Octets → ToolM (List DumpForm)
  | 0, _ | _, [] => return []
  | fuel + 1, letter :: rest => do
    let sizeLetter (b : Char) : Option Nat :=
      match b with
      | 'C' => some 1
      | 'S' => some 2
      | 'I' => some 4
      | 'L' => some 8
      | _ => none
    let digits := rest.takeWhile Char.isDigit
    let (size, rest) : Nat × Octets :=
      if !digits.isEmpty then (Octets.digitsValue digits, rest.drop digits.length)
      else match rest with
      | b :: more =>
        match sizeLetter b with
        | some n => (n, more)
        | none => (4, rest)
      | [] => (4, [])
    let (hasText, rest) : Bool × Octets := match rest with
      | 'z' :: more => (true, more)
      | rest => (false, rest)
    match dumpForm? letter size with
    | some f => return { f with hasText } :: (← dumpForms c whole fuel rest)
    | none =>
      if "xoduca".toList.contains letter then
        c.fail 1 (Octets.told "invalid type string " (Octets.quoted whole)
          s!";\nthis system doesn't provide a {toString size}-byte integral type")
      else
        c.fail 1
          (Octets.told "invalid character '" [letter] "' in type string " ++ Octets.quoted whole)

/-- The numbers of groups of bytes, the least byte first; bytes that are missing count as zero. -/
def groupValues (size : Nat) : Nat → Octets → List Nat
  | 0, _ | _, [] => []
  | fuel + 1, o =>
    ((o.take size).reverse.foldl (fun n b => n * 256 + b.toNat) 0) ::
      groupValues size fuel (o.drop size)

/-- A line of a form. The number tells how many columns a whole line has in the widest form. -/
def dumpLine (f : DumpForm) (perLine columns : Nat) (o : Octets) : Octets :=
  let fields := perLine / f.size
  let spare := columns - (f.width + 1) * fields
  let values := groupValues f.size (o.length + 1) o
  let cells := values.zipIdx.flatMap fun (n, i) =>
    let left := fields - i
    let before := spare * left / fields - spare * (left - 1) / fields
    let text := f.shown n
    List.replicate (f.width + 1 + before - text.length) ' ' ++ text
  if f.hasText then
    let missing := fields - values.length
    let place := columns - cells.length
    let shown := o.map fun b => if Octets.isPrintable b then b else '.'
    cells ++ List.replicate (if missing = 0 then 0 else place) ' ' ++ "  >".toList ++ shown ++ ['<']
  else cells

/-- What is shown of a text. -/
structure DumpRequest where
  forms : List DumpForm
  perLine : Nat
  showsAll : Bool
  address : Nat → Octets

/-- The lines of a dump from an address on, with a bound on their number. Lines that repeat the one
before are left out. -/
def dumpLines (r : DumpRequest) : Nat → Nat → Option Octets → Bool → Octets → Octets
  | 0, _, _, _, _ => []
  | fuel + 1, address, before, isSkipping, o =>
    if o.isEmpty then
      let text := r.address address
      if text.isEmpty then [] else text ++ ['\n']
    else
      let line := o.take r.perLine
      let rest := o.drop r.perLine
      if !r.showsAll && before == some line && line.length = r.perLine then
        (if isSkipping then [] else ['*', '\n']) ++
          dumpLines r fuel (address + line.length) before true rest
      else
        let columns := (r.forms.map fun f => (f.width + 1) * (r.perLine / f.size)).foldl max 0
        let start := r.address address
        let texts := r.forms.zipIdx.flatMap fun (f, i) =>
          (if i = 0 then start else List.replicate start.length ' ') ++
            dumpLine f r.perLine columns line ++ ['\n']
        texts ++ dumpLines r fuel (address + line.length) (some line) false rest

/-- Shows the bytes of files. -/
def dump : Tool := fun c => do
  let options : OptionForms := { plain := "abcdfhiloOsvxz", valued := "AjNtSw", long :=
    [("address-radix", 'A'), ("skip-bytes", 'j'), ("read-bytes", 'N'), ("format", 't'),
     ("output-duplicates", 'v'), ("width", 'w')] }
  let (found, operands) ← options.read c
  let forms ← found.flatMapM fun (letter, value) => do
    let known : Option (Char × Nat) := match letter with
      | 'a' => some ('a', 1)
      | 'b' => some ('o', 1)
      | 'c' => some ('c', 1)
      | 'd' => some ('u', 2)
      | 'o' => some ('o', 2)
      | 's' => some ('d', 2)
      | 'x' | 'h' => some ('x', 2)
      | 'i' => some ('d', 4)
      | 'l' => some ('d', 8)
      | _ => none
    match known with
    | some (form, size) => return (dumpForm? form size).toList
    | none => if letter == 't' then dumpForms c value (value.length + 1) value else return []
  let forms := if forms.isEmpty then (dumpForm? 'o' 2).toList else forms
  let number (letter : Char) : ToolM (Option Nat) := do
    match found.value? letter with
    | none => return none
    | some o =>
      if o.isEmpty || !o.all Char.isDigit then
        c.fail 1 (Octets.ofString s!"invalid -{letter.toString} argument " ++ Octets.quoted o)
      return some (Octets.digitsValue o)
  let skipped := (← number 'j').getD 0
  let most ← number 'N'
  let perLine := (← number 'w').getD 16
  let address : Nat → Octets ← match found.value? 'A' with
    | none | some ['o'] => pure (dumpDigits 8 7)
    | some ['d'] => pure (dumpDigits 10 7)
    | some ['x'] => pure (dumpDigits 16 6)
    | some ['n'] => pure fun _ => []
    | some o =>
      c.fail 1 (Octets.told "invalid output address radix '" o
        "'; it must be one character from [doxn]")
  let text := (← joinedSources c {} operands).drop skipped
  let text := match most with
    | some n => text.take n
    | none => text
  if (← get).status = 0 || !text.isEmpty then
    let r : DumpRequest := { forms, perLine := max perLine 1, showsAll := found.has 'v', address }
    print (dumpLines r (text.length + 2) skipped none false text)

end Sweep.Tool
