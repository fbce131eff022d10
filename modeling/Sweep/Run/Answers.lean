import Sweep.Text.Bytes

/-!
# Answers to prompts

A run asks for the values that conditions need. Answers are given beforehand in a list, or are
read from a console, one line for each prompt.
-/

namespace Sweep

inductive AnswerFault where
  /-- All answers of the list have been given. -/
  | noneLeft (prompt : String)
  /-- The console has nothing more to read. -/
  | closed
  /-- The line that was read is no text. -/
  | notText
deriving DecidableEq, Repr

inductive Answers where
  | scripted (left : List String)
  | console (left : List UInt8)
deriving DecidableEq, Repr

namespace Answers

def lineFeed : UInt8 := 10

/-- The bytes of the first line with the line feed that ends it, and what follows. -/
def nextLine (bytes : List UInt8) : List UInt8 × List UInt8 :=
  let line := bytes.takeWhile (· != lineFeed)
  match bytes.dropWhile (· != lineFeed) with
  | [] => (line, [])
  | feed :: rest => (line ++ [feed], rest)

/-- A line without the line feeds and carriage returns at its end. -/
def stripEnd (line : List Char) : List Char :=
  (line.reverse.dropWhile fun c => c == '\r' || c == '\n').reverse

/-- What a source of answers prints when it is asked. -/
def shown (prompt : String) : Answers → String
  | .scripted _ => ""
  | .console _ => prompt ++ " "

/-- The answer to a prompt, and what is left. A line that is no text is used up. -/
def next (prompt : String) : Answers → Except AnswerFault String × Answers
  | .scripted [] => (.error (.noneLeft prompt), .scripted [])
  | .scripted (answer :: left) => (.ok answer, .scripted left)
  | .console [] => (.error .closed, .console [])
  | .console bytes =>
    let (line, left) := nextLine bytes
    match Text.ofBytes? (ByteArray.mk line.toArray) with
    | some text => (.ok (String.ofList (stripEnd text.toList)), .console left)
    | none => (.error .notText, .console left)

end Answers

end Sweep
