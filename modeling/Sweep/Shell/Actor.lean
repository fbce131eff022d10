import Sweep.Shell.Part
import Sweep.Shell.Tool.Clock
import Sweep.Shell.Tool.Counting
import Sweep.Shell.Tool.Cutting
import Sweep.Shell.Tool.Editing
import Sweep.Shell.Tool.Entries
import Sweep.Shell.Tool.Search
import Sweep.Shell.Tool.Sorting
import Sweep.Shell.Tool.Sums
import Sweep.Shell.Tool.Testing

/-!
# What carries commands out

Every tool is known by its name; some of them are a part of the shell as well. A tool works on what
the descriptors of the shell lead to, and redirections change these.
-/

namespace Sweep.Tool

def succeed : Tool := fun _ => pure ()

/-- Searches under an old name, which the messages do not tell. -/
def oldGrep (spelling : SearchSpelling) : Tool := fun c => grepAs spelling { c with name := "grep" }

def programs : List (String × Tool) :=
  [("echo", echoAs .program), ("printf", printfAs .program), ("test", testAs false true),
   ("[", testAs false true), ("true", succeed), ("false", fun _ => setStatus 1),
   ("cat", cat), ("head", head), ("tail", tail), ("tac", reverseOrder), ("rev", reverseLines),
   ("nl", numberLines), ("wc", count), ("fold", fold), ("expand", expandTabs), ("paste", paste),
   ("tee", tee), ("yes", repeatLine), ("split", split),
   ("sort", sort), ("uniq", distinct), ("comm", comm), ("join", join),
   ("cut", cut), ("tr", translate), ("seq", sequence), ("expr", expression),
   ("touch", touch), ("mkdir", makeDirectory), ("rmdir", removeDirectory), ("rm", remove),
   ("mv", move), ("cp", copy), ("ln", link), ("chmod", changeMode), ("mktemp", makeTemporary),
   ("ls", list), ("dir", list), ("basename", basename), ("dirname", dirname),
   ("realpath", realPath), ("readlink", readLink), ("pwd", currentPath), ("stat", status),
   ("printenv", printEnvironment),
   ("sleep", sleep), ("sync", succeed), ("id", identity),
   ("whoami", fun _ => printLine (Octets.ofString "root")), ("uname", systemName),
   ("arch", fun _ => printLine (Octets.ofString "x86_64")), ("chown", succeed), ("chgrp", succeed),
   ("grep", grepAs .basic), ("egrep", oldGrep .extended), ("fgrep", oldGrep .literal),
   ("sed", sed), ("date", showDate), ("od", dump), ("cmp", compareFiles), ("diff", compareByLine),
   ("md5sum", printSums sumFour), ("sha1sum", printSums sumFive), ("sha256sum", printSums sumEight),
   ("cksum", printCyclicSums), ("base64", encodeLetters),
   ("nproc", fun _ => printLine ['1']),
   ("hostname", fun _ => printLine (Octets.ofString "localhost")),
   ("tty", fun _ => do
     printLine (Octets.ofString "not a tty")
     setStatus 1)]

def parts (isRich : Bool) : List (String × Tool) :=
  let style : PrintStyle := if isRich then .bash else .sh
  [("echo", echoAs style), ("printf", printfAs style), ("test", testAs isRich false),
   ("[", testAs isRich false)]

def program? (name : String) : Option Tool := (programs.find? fun p => p.1 == name).map (·.2)

def part? (isRich : Bool) (name : String) : Option Tool :=
  ((parts isRich).find? fun p => p.1 == name).map (·.2)

end Sweep.Tool

/-! ## Carrying tools out

What starts programs and carries scripts out is given to those functions that need it, since a tool
may start programs in its turn.
-/

namespace Sweep.Shell

structure Actor where
  /-- Carries a script out. The flag says whether its failure is looked at. -/
  run : Bool → Script → ShellM Unit
  /-- Carries out a text. -/
  text : Bool → Octets → ShellM Unit
  /-- Starts a program by its name or path. -/
  start : String → List Octets → ShellM (Except FileFault Unit)

/-- Writes what a tool has written, in order. -/
def deliver (written : List (Bool × Octets)) : ShellM Unit := do
  for (isMessage, o) in written do
    if isMessage then tell o else print o

def State.inputSize (s : State) : Option Nat :=
  match (s.streamOf? 0).bind fun n => s.streams[n]? with
  | some (.file path _ _) =>
    match s.files.find path with
    | .ok (.file content _) => some content.size
    | _ => none
  | _ => none

/-- Performs what a tool does. It gives nothing if the tool stops early. -/
def performTool {α : Type} (name : String) (body : ToolM α) : ShellM (Option α) := do
  let s ← get
  let input := (s.readable? 0).getD []
  let (result, t) := body { input, files := s.files, inputSize := s.inputSize }
  set { s.skipInput 0 (input.length - t.input.length) with files := t.files, status := t.status }
  deliver t.written.reverse
  if s.streamOf? 1 = none && t.written.any fun w => !w.1 && !w.2.isEmpty then
    tell (Octets.ofString s!"{name}: write error: Bad file descriptor\n")
    setStatus 1
  match result with
  | .ok a => return some a
  | .error () => return none

/-- Lets a tool work on arguments; its name begins its messages. -/
def useTool (tool : Tool) (name : String) (arguments : List Octets) : ShellM Unit := do
  let call : ToolCall := { name, arguments, environment := (← get).environment }
  let _ ← performTool name (tool call)

/-- Lets a tool that is a part of the shell work on arguments. Its output follows its messages. -/
def usePart (tool : Tool) (name : String) (arguments : List Octets) : ShellM Unit := do
  let s ← get
  let place := { s with atWork := none }.place
  let call : ToolCall := { name, arguments, place }
  let (_, t) := tool call { input := [], files := s.files }
  set { s with status := t.status }
  let (messages, output) := t.written.reverse.partition (·.1)
  deliver messages
  let text := output.flatMap (·.2)
  if !text.isEmpty && !(← writeTo 1 text) then
    match s.dialect with
    | .sh => complain (Octets.ofString s!"{name}: I/O error")
    | .bash => complain (Octets.ofString "write error: Bad file descriptor")
    setStatus 1

/-! ## Redirections

A redirection lets a descriptor lead somewhere else, for one command or for all that follow. Paths
of devices lead to what they stand for.
-/

/-- The descriptors that a redirection changes. -/
def Redirection.touched : Redirection → List Nat
  | .read d _ | .write d _ | .append d _ | .readWrite d _ | .duplicate d _ | .text d _
  | .word d _ => [d]
  | .writeBoth _ _ => [1, 2]

/-- Fails to open a file. -/
def refuse (action : String) (path : Octets) (fault : FileFault) : ShellM Bool := do
  let isMissing := fault = .notFound || fault = .notDirectory
  match (← get).dialect with
  | .sh =>
    let reason := if !isMissing then fault.phrase
      else if action = "open" then "No such file" else "Directory nonexistent"
    complain (Octets.told s!"cannot {action} " path s!": {reason}")
  | .bash => complain (path ++ Octets.ofString s!": {fault.phrase}")
  return false

def deviceDescriptor? (path : String) : Option Nat :=
  match path with
  | "/dev/stdin" => some 0
  | "/dev/stdout" => some 1
  | "/dev/stderr" => some 2
  | _ =>
    let digits := path.toList.drop "/dev/fd/".length
    if "/dev/fd/".toList.isPrefixOf path.toList && !digits.isEmpty && digits.all Char.isDigit then
      some (Octets.digitsValue digits)
    else none

/-- Lets a descriptor lead to where another one leads; false if that leads nowhere. -/
def duplicate (descriptor source : Nat) (shown : Octets) : ShellM Bool := do
  let s ← get
  match s.streamOf? source with
  | some n =>
    set (s.connect descriptor n)
    return true
  | none =>
    complain (shown ++ Octets.ofString ": Bad file descriptor")
    return false

/-- Lets a descriptor lead to a file that is written; false if it cannot be opened. -/
def openToWrite (descriptor : Nat) (path : Octets) (appends keeps : Bool) : ShellM Bool := do
  let text := Octets.toText path
  if text = "/dev/null" then
    connectTo descriptor .null
    return true
  match deviceDescriptor? text with
  | some source => duplicate descriptor source path
  | none =>
    let s ← get
    if s.options.keepsFiles && !appends && !keeps && s.files.isFile text then
      refuse "create" path .alreadyExists
    else
      let opened := do
        let t ← if appends || keeps then s.files.appendBytes text .empty
          else s.files.writeBytes text .empty
        let place ← t.locate text
        return (t, FileTree.absolute place.way)
      match opened with
      | .ok (files, absolute) =>
        set { s with files }
        connectTo descriptor (.file absolute 0 appends)
        return true
      | .error fault => refuse "create" path fault

/-- Lets a descriptor lead to a file that is read; false if it cannot be opened. -/
def openToRead (descriptor : Nat) (path : Octets) : ShellM Bool := do
  let text := Octets.toText path
  if text = "/dev/null" then
    connectTo descriptor .null
    return true
  match deviceDescriptor? text with
  | some source => duplicate descriptor source path
  | none =>
    let s ← get
    match s.files.find text with
    | .ok (.file _ _) =>
      let absolute := match s.files.locate text with
        | .ok place => FileTree.absolute place.way
        | .error _ => text
      connectTo descriptor (.file absolute 0 false)
      return true
    | .ok .directory =>
      connectTo descriptor .null
      return true
    | .error fault => refuse "open" path fault

def applyRedirection (run : Runner) (r : Redirection) : ShellM Bool := do
  match r with
  | .read descriptor file => openToRead descriptor (← expandWhole run file)
  | .write descriptor file => openToWrite descriptor (← expandWhole run file) false false
  | .append descriptor file => openToWrite descriptor (← expandWhole run file) true false
  | .readWrite descriptor file => openToWrite descriptor (← expandWhole run file) false true
  | .writeBoth isAppended file =>
    if ← openToWrite 1 (← expandWhole run file) isAppended false then duplicate 2 1 []
    else return false
  | .duplicate descriptor source =>
    let text ← expandWhole run source
    let isRich := (← get).dialect = .bash
    if text == ['-'] then
      modify fun s => s.disconnect descriptor
      return true
    else if !text.isEmpty && text.all Char.isDigit && (isRich || text.length = 1) then
      duplicate descriptor (Octets.digitsValue text) text
    else if isRich && descriptor = 1 then
      if ← openToWrite 1 text false false then duplicate 2 1 [] else return false
    else if isRich then
      complain (text ++ Octets.ofString ": ambiguous redirect")
      return false
    else fail (Octets.ofString "Syntax error: Bad fd number")
  | .text descriptor number =>
    let w := (((← get).texts.find? fun t => t.1 == number).map (·.2)).getD []
    connectTo descriptor (.supplied (← expandWhole run w))
    return true
  | .word descriptor w =>
    connectTo descriptor (.supplied ((← expandWhole run w) ++ ['\n']))
    return true

/-- Applies redirections one after the other; false if one of them fails. -/
def applyRedirections (run : Runner) : List Redirection → ShellM Bool
  | [] => return true
  | r :: rest => do
    if ← applyRedirection run r then applyRedirections run rest else return false

/-- Lets descriptors lead to where they led before. -/
def restoreDescriptors (touched : List Nat) (before : List (Nat × Nat)) : ShellM Unit :=
  modify fun s => touched.foldl (fun s d =>
    match before.find? fun entry => entry.1 == d with
    | some (_, n) => s.connect d n
    | none => s.disconnect d) s

/-- Performs something under redirections, or something else if one of them fails. -/
def redirecting (run : Runner) (rs : List Redirection) (isLasting : Bool)
    (body failed : ShellM Unit) : ShellM Unit := do
  if rs.isEmpty then body
  else
    let before := (← get).descriptors
    let restore : ShellM Unit :=
      if isLasting then pure () else restoreDescriptors (rs.flatMap Redirection.touched) before
    if ← applyRedirections run rs then
      try body
      catch leave =>
        restore
        throw leave
      restore
    else
      restoreDescriptors (rs.flatMap Redirection.touched) before
      setStatus (if (← get).dialect = .sh then 2 else 1)
      failed

end Sweep.Shell
