import Sweep.Number.Leading
import Sweep.Shell.Tool.Basic

/-!
# Printing

`echo` prints its arguments, `printf` prints them as a format says. The format is used again as
long as there are arguments left. Both are parts of the two dialects of the shell and programs of
their own, which differ in their escapes and messages.
-/

namespace Sweep.Tool

inductive PrintStyle where
  | sh
  | bash
  | program
deriving DecidableEq, Repr

/-! ## Escapes -/

def isOctal (c : Char) : Bool := '0' ≤ c && c ≤ '7'

def isHex (c : Char) : Bool := (Number.hexDigit? c).isSome

def octalByte (digits : Octets) : Char :=
  Char.ofNat (digits.foldl (fun n c => n * 8 + (c.toNat - '0'.toNat)) 0 % 256)

/-- The byte that a letter after a backslash stands for. -/
def escapeLetter? : Char → Option Char
  | 'a' => some '\x07'
  | 'b' => some '\x08'
  | 'e' => some '\x1b'
  | 'f' => some '\x0c'
  | 'n' => some '\n'
  | 'r' => some '\r'
  | 't' => some '\t'
  | 'v' => some '\x0b'
  | '\\' => some '\\'
  | _ => none

/-- A character given by digits of base sixteen; outside of ASCII it is shown as an escape. -/
def unicodeEscape (digits : Octets) : Octets :=
  let n := Number.hexValue digits
  if n < 128 then [Char.ofNat n]
  else
    let text := (Nat.toDigits 16 n).map Char.toUpper
    let width := if n < 65536 then 4 else 8
    let letter := if n < 65536 then 'u' else 'U'
    '\\' :: letter :: List.replicate (width - text.length) '0' ++ text

structure EscapeRule where
  /-- Whether digits of base eight stand for a byte without a zero before them. -/
  octal : Bool
  /-- Whether a zero comes before the digits. -/
  octalAfterZero : Bool
  hex : Bool
  quotes : List Char := []

/-- What the text after a backslash stands for, and how many bytes it takes; nothing if it ends all
printing. -/
def escape (r : EscapeRule) (rest : Octets) : Option (Octets × Nat) :=
  match rest with
  | [] => some (['\\'], 0)
  | c :: after =>
    if c == '0' && r.octalAfterZero then
      let digits := (after.take 3).takeWhile isOctal
      some ([octalByte digits], digits.length + 1)
    else if isOctal c && r.octal then
      let digits := (rest.take 3).takeWhile isOctal
      some ([octalByte digits], digits.length)
    else if r.quotes.contains c then some ([c], 1)
    else if r.hex && c == 'x' then
      let digits := (after.take 2).takeWhile isHex
      if digits.isEmpty then some (['\\', 'x'], 1)
      else some ([Char.ofNat (Number.hexValue digits)], digits.length + 1)
    else if r.hex && (c == 'u' || c == 'U') then
      let digits := (after.take (if c == 'u' then 4 else 8)).takeWhile isHex
      if digits.isEmpty then some (['\\', c], 1)
      else some (unicodeEscape digits, digits.length + 1)
    else
      match escapeLetter? c with
      | some b => some ([b], 1)
      | none => some (['\\', c], 1)

/-- A text with its escapes replaced, and whether printing goes on behind it; the number bounds the
escapes. -/
def unescape (r : EscapeRule) : Nat → Octets → Octets × Bool
  | 0, text => (text, true)
  | fuel + 1, text =>
    let before := text.takeWhile (· != '\\')
    match text.drop before.length with
    | [] => (before, true)
    | _ :: 'c' :: _ => (before, false)
    | _ :: rest =>
      match escape r rest with
      | none => (before, false)
      | some (bytes, taken) =>
        let (others, goesOn) := unescape r fuel (rest.drop taken)
        (before ++ bytes ++ others, goesOn)

def unescapeAll (r : EscapeRule) (text : Octets) : Octets × Bool :=
  unescape r (text.length + 1) text

/-- The escapes in the arguments of `echo`. -/
def PrintStyle.echoRule : PrintStyle → EscapeRule
  | .sh => { octal := true, octalAfterZero := true, hex := false }
  | .bash => { octal := false, octalAfterZero := true, hex := true }
  | .program => { octal := true, octalAfterZero := true, hex := true }

/-- The escapes in arguments that are printed with `%b`. -/
def PrintStyle.argumentRule : PrintStyle → EscapeRule
  | .sh => { octal := true, octalAfterZero := true, hex := false }
  | .bash => { octal := true, octalAfterZero := true, hex := true, quotes := ['"', '?', '\''] }
  | .program => { octal := true, octalAfterZero := true, hex := true, quotes := ['"'] }

def PrintStyle.formatRule : PrintStyle → EscapeRule
  | .sh => { octal := true, octalAfterZero := false, hex := false }
  | .bash => { octal := true, octalAfterZero := false, hex := true, quotes := ['"', '?', '\''] }
  | .program => { octal := true, octalAfterZero := false, hex := true, quotes := ['"'] }

def joined (arguments : List Octets) : Octets := [' '].intercalate arguments

/-! ## Printing arguments -/

/-- The letters of the options at the front of arguments, and the arguments after them. -/
def echoOptions : List Octets → Octets × List Octets
  | ('-' :: c :: more) :: rest =>
    if (c :: more).all fun letter => "neE".toList.contains letter then
      let (letters, operands) := echoOptions rest
      (c :: more ++ letters, operands)
    else ([], ('-' :: c :: more) :: rest)
  | operands => ([], operands)

/-- Prints the arguments; `-n` leaves the line open. Escapes are replaced always in one dialect,
and otherwise only after `-e`. -/
def echoAs (style : PrintStyle) (c : ToolCall) : ToolM Unit := do
  let (isOpen, isEscaped, operands) := match style, c.arguments with
    | .sh, ['-', 'n'] :: rest => (true, true, rest)
    | .sh, arguments => (false, true, arguments)
    | _, arguments =>
      let (letters, operands) := echoOptions arguments
      (letters.contains 'n', (letters.filter (· != 'n')).getLast? == some 'e', operands)
  let (text, goesOn) := if isEscaped then unescapeAll style.echoRule (joined operands)
    else (joined operands, true)
  print (if isOpen || !goesOn then text else text ++ ['\n'])

/-! ## Formats -/

/-- How an argument is printed. -/
structure Directive where
  flags : List Char := []
  width : Nat := 0
  precision : Option Nat := none
  conversion : Char
deriving DecidableEq, Repr

/-- A number in a directive, which an argument may give. -/
inductive DirectiveNumber where
  | none
  | given (n : Nat)
  | fromArgument
deriving DecidableEq, Repr

inductive FormatPart where
  | text (o : Octets)
  | directive (flags : List Char) (width precision : DirectiveNumber) (conversion : Char)
      (shown : Octets)
  | finish
  /-- A directive that breaks off, or one that there is none of. -/
  | unfinished (shown : Octets)
  | invalid (shown : Octets)
deriving DecidableEq, Repr

/-- A number or a star at the start of a text. -/
def directiveNumber (s : Octets) : DirectiveNumber × Octets :=
  match s with
  | '*' :: rest => (.fromArgument, rest)
  | _ =>
    let digits := s.takeWhile Char.isDigit
    (if digits.isEmpty then .none else .given (Octets.digitsValue digits), s.drop digits.length)

def conversions (style : PrintStyle) : List Char :=
  "bcsdiouxXeEfFgG".toList ++ (if style = .sh then [] else ['q'])

/-- A directive after its percent sign, and what follows it. -/
def directive (style : PrintStyle) (s : Octets) : FormatPart × Octets :=
  let shown (rest : Octets) : Octets := '%' :: s.take (s.length - rest.length)
  let flags := s.takeWhile fun c => "-+ #0".toList.contains c
  let (width, s) := directiveNumber (s.drop flags.length)
  let (precision, s) : DirectiveNumber × Octets :=
    match s with
    | '.' :: rest =>
      let (n, rest) := directiveNumber rest
      (if n = .none then .given 0 else n, rest)
    | _ => (.none, s)
  let s := if style = .sh then s else s.dropWhile fun c => "hlLjtz".toList.contains c
  match s with
  | [] => (.unfinished (shown []), [])
  | conversion :: rest =>
    let isText := conversion == 's' || conversion == 'b' || conversion == 'c'
    let isRefused := style = .program && isText &&
      (flags.contains '0' || flags.contains '+' || flags.contains '#' || flags.contains ' ' ||
        (conversion == 'b' && (!flags.isEmpty || width != .none || precision != .none)))
    if (conversions style).contains conversion && !isRefused then
      (.directive flags width precision conversion (shown rest), rest)
    else (.invalid (shown rest), rest)

/-- The parts of a format, with a bound on their number. -/
def formatParts (style : PrintStyle) : Nat → Octets → List FormatPart
  | 0, _ | _, [] => []
  | fuel + 1, '%' :: '%' :: rest => .text ['%'] :: formatParts style fuel rest
  | fuel + 1, '%' :: rest =>
    let (part, rest) := directive style rest
    part :: formatParts style fuel rest
  | fuel + 1, '\\' :: rest =>
    if style = .program && rest.head? == some 'c' then [.finish]
    else
      match escape style.formatRule rest with
      | some (bytes, taken) => .text bytes :: formatParts style fuel (rest.drop taken)
      | none => [.finish]
  | fuel + 1, s =>
    let text := s.takeWhile fun c => c != '%' && c != '\\'
    .text text :: formatParts style fuel (s.drop text.length)

/-- A text filled up to the width of a directive. -/
def pad (d : Directive) (zeros : Bool) (sign body : Octets) : Octets :=
  let missing := d.width - (sign.length + body.length)
  if d.flags.contains '-' then sign ++ body ++ List.replicate missing ' '
  else if zeros && d.flags.contains '0' then sign ++ List.replicate missing '0' ++ body
  else List.replicate missing ' ' ++ sign ++ body

/-- How far an argument was read as a number. -/
inductive Conversion where
  | whole
  | partly
  | nothing
  | outOfRange
deriving DecidableEq, Repr

def Conversion.ofRest (hasDigits : Bool) (rest : Octets) : Conversion :=
  if rest.isEmpty then .whole else if hasDigits then .partly else .nothing

/-- The whole number at the start of a text, decimal, or octal after a zero, or hexadecimal, and
what follows it; nothing if there are no digits. -/
def leadingInt? (o : Octets) : Option (Int × Octets) :=
  let s := o.dropWhile Octets.isSpace
  let (isNegative, s) := Number.takeSign s
  let (digits, value, rest) : Octets × Nat × Octets :=
    match s with
    | '0' :: x :: after =>
      let hex := after.takeWhile isHex
      if (x == 'x' || x == 'X') && !hex.isEmpty then
        (hex, Number.hexValue hex, after.drop hex.length)
      else
        let octal := (x :: after).takeWhile isOctal
        (['0'], octal.foldl (fun n c => n * 8 + (c.toNat - 48)) 0, (x :: after).drop octal.length)
    | s =>
      let digits := s.takeWhile Char.isDigit
      (digits, Octets.digitsValue digits, s.drop digits.length)
  if digits.isEmpty then none else some (if isNegative then -(value : Int) else value, rest)

/-- The whole number that an argument stands for, within bounds; a quote stands for the byte after
it. -/
def argumentInt (isSigned : Bool) (o : Octets) : Int × Conversion :=
  match o with
  | '"' :: c :: _ | '\'' :: c :: _ => (c.toNat, .whole)
  | ['"'] | ['\''] => (0, .whole)
  | o =>
    match leadingInt? o with
    | none => (0, Conversion.ofRest false o)
    | some (n, rest) =>
      let low : Int := if isSigned then -(1 <<< 63 : Nat) else -((1 <<< 64 : Nat) - 1)
      let high : Int := if isSigned then (1 <<< 63 : Nat) - 1 else (1 <<< 64 : Nat) - 1
      let conversion := Conversion.ofRest true rest
      if n < low then
        (if isSigned then low else high, if conversion = .whole then .outOfRange else conversion)
      else if high < n then (high, if conversion = .whole then .outOfRange else conversion)
      else (n, conversion)

def argumentNumber (p : Number.BinaryValue.Precision) (o : Octets) :
    Number.BinaryValue × Conversion :=
  match o with
  | '"' :: c :: _ | '\'' :: c :: _ => (.ofRatio p false c.toNat 1, .whole)
  | ['"'] | ['\''] => (.finite false 0 0, .whole)
  | o =>
    match Number.leading? o with
    | none => (.finite false 0 0, Conversion.ofRest false o)
    | some (value, rest) =>
      let rounded := value.rounded p
      let isLost := match value, rounded with
        | .ratio _ _ _, .infinite _ => true
        | .ratio _ num _, .finite _ s _ => num != 0 && s == 0
        | _, _ => false
      let conversion := Conversion.ofRest true rest
      (rounded, if isLost && conversion = .whole then .outOfRange else conversion)

/-- The sign of a number as the flags ask for it. -/
def signOf (d : Directive) (negative : Bool) : Octets :=
  if negative then ['-'] else if d.flags.contains '+' then ['+']
  else if d.flags.contains ' ' then [' '] else []

/-- A whole number as a directive asks for it. -/
def formatInt (d : Directive) (n : Int) : Octets :=
  let unsigned := (n % (1 <<< 64 : Nat)).toNat
  let digits := match d.conversion with
    | 'o' => Nat.toDigits 8 unsigned
    | 'x' => Nat.toDigits 16 unsigned
    | 'X' => (Nat.toDigits 16 unsigned).map Char.toUpper
    | 'u' => Nat.toDigits 10 unsigned
    | _ => Nat.toDigits 10 n.natAbs
  let digits := if d.precision == some 0 && n == 0 then [] else digits
  let digits := List.replicate (d.precision.getD 0 - digits.length) '0' ++ digits
  let digits := if d.flags.contains '#' && d.conversion == 'o' && digits.head? != some '0' then
    '0' :: digits else digits
  let sign := match d.conversion with
    | 'd' | 'i' => signOf d (n < 0)
    | 'x' => if d.flags.contains '#' && n != 0 then ['0', 'x'] else []
    | 'X' => if d.flags.contains '#' && n != 0 then ['0', 'X'] else []
    | _ => []
  pad d d.precision.isNone sign digits

def formatNumber (d : Directive) (x : Number.BinaryValue) : Octets :=
  let form : Number.PlaceForm := match d.conversion.toLower with
    | 'e' => .exponent
    | 'g' => .general
    | _ => .fixed
  let text := x.digits form (d.precision.getD 6) (d.flags.contains '#')
  let text := if d.conversion.isUpper then text.map Char.toUpper else text
  let isFinite := match x with
    | .finite _ _ _ => true
    | _ => false
  pad d isFinite (signOf d x.isNegative) text

def formatText (d : Directive) (o : Octets) : Octets :=
  pad d false [] (match d.precision with
    | some n => o.take n
    | none => o)

/-- A text that a shell reads back as it is. -/
def shellQuoted (style : PrintStyle) (o : Octets) : Octets :=
  match style with
  | .program => Octets.quotedIfNeeded o
  | _ =>
    let isPlain (c : Char) : Bool := c.isAlphanum || "_-./:=@%+,".toList.contains c
    if o.isEmpty then "''".toList
    else if o.all Octets.isPrintable then o.flatMap fun c => if isPlain c then [c] else ['\\', c]
    else
      let shown (c : Char) : Octets := if Octets.isPrintable c then [c] else Octets.byteEscape c
      "$'".toList ++ o.flatMap shown ++ ['\'']

/-- The message about an argument that is no number, or not only one. -/
def conversionMessage (style : PrintStyle) (o : Octets) : Conversion → Octets
  | .whole => []
  | .outOfRange =>
    match style with
    | .sh => o ++ Octets.ofString ": Numerical result out of range"
    | .bash => Octets.told "warning: " o ": Numerical result out of range"
    | .program => Octets.quoted o ++ Octets.ofString ": Numerical result out of range"
  | .partly =>
    match style with
    | .sh => o ++ Octets.ofString ": not completely converted"
    | .bash => o ++ Octets.ofString ": invalid number"
    | .program => Octets.quoted o ++ Octets.ofString ": value not completely converted"
  | .nothing =>
    match style with
    | .sh => o ++ Octets.ofString ": expected numeric value"
    | .bash => o ++ Octets.ofString ": invalid number"
    | .program => Octets.quoted o ++ Octets.ofString ": expected a numeric value"

/-- The arguments that are left while a format is used, and whether it used one at all. -/
abbrev Arguments := List Octets

/-- The message of a conversion, if there is anything to tell. -/
def checkConversion (c : ToolCall) (style : PrintStyle) (o : Octets) (conversion : Conversion) :
    ToolM Unit := do
  if conversion != .whole then
    if style = .bash && conversion = .outOfRange then
      let status := (← get).status
      c.complain status (conversionMessage style o conversion)
    else c.complain 1 (conversionMessage style o conversion)

def printArgument (c : ToolCall) (style : PrintStyle) (d : Directive) (argument : Option Octets) :
    ToolM Bool := do
  let o := argument.getD []
  match d.conversion with
  | 's' =>
    print (formatText d o)
    return true
  | 'q' =>
    print (formatText d (shellQuoted style o))
    return true
  | 'b' =>
    let (text, goesOn) := unescapeAll style.argumentRule o
    print (formatText d text)
    return goesOn
  | 'c' =>
    print (pad d false [] [o.headD '\x00'])
    return true
  | 'd' | 'i' | 'o' | 'u' | 'x' | 'X' =>
    let (n, conversion) := argumentInt (d.conversion == 'd' || d.conversion == 'i') o
    let isLone := style = .program && (o == ['"'] || o == ['\''])
    checkConversion c style o (if isLone then .nothing else conversion)
    print (formatInt d n)
    return true
  | _ =>
    let p := if style = .sh then Number.BinaryValue.double else Number.BinaryValue.extended
    let (x, conversion) := argumentNumber p o
    checkConversion c style o conversion
    print (formatNumber d x)
    return true

/-- Uses the parts of a format; the arguments that are left, or nothing if printing ends. -/
def printParts (c : ToolCall) (style : PrintStyle) :
    List FormatPart → Arguments → ToolM (Option Arguments)
  | [], arguments => return some arguments
  | part :: rest, arguments => do
    match part with
    | .text o =>
      print o
      printParts c style rest arguments
    | .finish => return none
    | .unfinished shown =>
      match style with
      | .sh => c.complain 1 (Octets.ofString "missing format character")
      | .bash => c.complain 1 (Octets.told "\x60" shown "': missing format character")
      | .program => c.complain 1 (shown ++ Octets.ofString ": invalid conversion specification")
      return none
    | .invalid shown =>
      match style with
      | .sh => c.complain 1 (shown ++ Octets.ofString ": invalid directive")
      | .bash =>
        c.complain 1 (Octets.told "\x60" ((shown.getLast?.map fun c => [c]).getD [])
          "': invalid format character")
      | .program => c.complain 1 (shown ++ Octets.ofString ": invalid conversion specification")
      return none
    | .directive flags width precision conversion _ =>
      let number (n : DirectiveNumber) (arguments : Arguments) : Option Int × Arguments :=
        match n with
        | .none => (none, arguments)
        | .given n => (some n, arguments)
        | .fromArgument => (some (argumentInt true (arguments.headD [])).1, arguments.drop 1)
      let (width, arguments) := number width arguments
      let (precision, arguments) := number precision arguments
      let width := width.getD 0
      let flags := if width < 0 then '-' :: flags else flags
      let precision := precision.bind fun n => if n < 0 then none else some n.toNat
      let d : Directive := { flags, width := width.natAbs, precision, conversion }
      if ← printArgument c style d arguments.head? then printParts c style rest (arguments.drop 1)
      else return none

/-- Uses a format as long as it takes arguments and there are some left. -/
def printAll (c : ToolCall) (style : PrintStyle) (parts : List FormatPart) :
    Nat → Arguments → ToolM Unit
  | 0, _ => return
  | fuel + 1, arguments => do
    match ← printParts c style parts arguments with
    | none => return
    | some rest =>
      if rest.isEmpty then return
      else if rest.length < arguments.length then printAll c style parts fuel rest
      else if style = .program then
        tell (Octets.ofString s!"{c.name}: warning: ignoring excess arguments, starting with " ++
          Octets.quoted (rest.headD []) ++ ['\n'])

/-- Prints arguments as a format says. -/
def printfAs (style : PrintStyle) (c : ToolCall) : ToolM Unit := do
  let arguments ← match c.arguments with
    | ['-', '-'] :: rest => pure rest
    | ('-' :: letter :: more) :: rest =>
      match style with
      | .sh => c.fail 2 (Octets.told "Illegal option -" [letter] "")
      | .bash =>
        c.fail 2 (Octets.told "-" [letter] ": invalid option\n" ++
          Octets.ofString "printf: usage: printf [-v var] format [arguments]")
      | .program => pure (('-' :: letter :: more) :: rest)
    | arguments => pure arguments
  match arguments with
  | [] =>
    match style with
    | .sh => c.fail 2 (Octets.ofString "usage: printf format [arg ...]")
    | .bash =>
      tell (Octets.ofString "printf: usage: printf [-v var] format [arguments]\n")
      setStatus 2
    | .program => c.misuse 1 (Octets.ofString "missing operand")
  | format :: arguments =>
    printAll c style (formatParts style (format.length + 1) format) (arguments.length + 1) arguments

end Sweep.Tool
