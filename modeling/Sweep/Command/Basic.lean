import Sweep.Artifact.Basic
import Sweep.Command.OutputLine
import Sweep.Files.Tree
import Sweep.Text.Escaped

/-!
# Commands

To run a task is to start the program that its implementation names. The program gets every
parameter as a flag with the value after it, in the order of the names, and then the input values
in one argument. When it exits with status zero, the last line of its output that is not blank
holds one value for every output of the task.
-/

namespace Sweep

structure Command where
  program : String
  arguments : List String
  /-- The directory to start the program in, if not the current one. -/
  directory : Option String := none
deriving DecidableEq, Repr

/-- How a program ended. -/
inductive ExitStatus where
  | exited (code : Nat)
  | killed
deriving DecidableEq, Repr

/-- What a program leaves behind when it has ended. -/
structure Completion where
  status : ExitStatus
  output : ByteArray
  errors : ByteArray

/-- Why a program does not start. -/
inductive LaunchFault where
  | file (fault : FileFault)
  /-- A part of the command has a character that none may have. -/
  | badCharacter
  | argumentTooLong
deriving DecidableEq, Repr

def LaunchFault.message : LaunchFault → String
  | .file fault => fault.message
  | .badCharacter => "nul byte found in provided data"
  | .argumentTooLong => "Argument list too long (os error 7)"

/-- Why the output of a program does not hold the values of the outputs. -/
inductive OutputFault where
  | nothing (expected : Nat)
  | unreadable (fault : OutputLine.Fault) (line : String)
  | wrongCount (outputs : List String) (found : Nat) (line : String)
deriving DecidableEq, Repr

def OutputFault.message : OutputFault → String
  | .nothing expected => s!"expected {toString expected} output value(s), got no output"
  | .unreadable .unterminated line => s!"unterminated quote in '{Text.trim line}'"
  | .unreadable (.unexpected c) line =>
    s!"unexpected '{c.toString}' after quoted value in '{Text.trim line}'"
  | .wrongCount outputs found line =>
    s!"expected {toString outputs.length} output value(s) {Text.showNames outputs}, " ++
      s!"got {toString found} in '{Text.trim line}'"

/-- Why a task fails. -/
inductive TaskError where
  | noImplementation
  | notStarted (program : String) (fault : LaunchFault)
  | exited (status : ExitStatus) (errors : String)
  | malformedOutput (fault : OutputFault)
deriving DecidableEq, Repr

def ExitStatus.describe : ExitStatus → String
  | .exited code => s!"Some({toString code})"
  | .killed => "None"

def TaskError.message : TaskError → String
  | .noImplementation => "task has no implementation"
  | .notStarted program fault => s!"failed to start '{program}': " ++ fault.message
  | .exited status errors => s!"exited with status {status.describe}: {errors}"
  | .malformedOutput fault => "malformed output: " ++ fault.message

namespace Command

def words (s : List Char) : List (List Char) :=
  (s.splitBy fun a b => Text.isBlank a == Text.isBlank b).filter fun w => !w.all Text.isBlank

/-- A program named by a relative path of several components is seen from the directory that it is
started in. -/
def resolve (program : String) (directory : Option String) : String :=
  match directory with
  | some d =>
    if !Path.isAbsolute program && decide (1 < Path.componentCount program) then
      Path.join d program
    else program
  | none => program

/-- Parameters as flags, then the input values. -/
def argumentsOf (parameters : ParameterSet) (inputs : List String) : List String :=
  let flags := parameters.entries.flatMap fun (name, value) => ["--" ++ name, value.asText]
  if inputs.isEmpty then flags else flags ++ [OutputLine.join inputs]

def ofTask (t : TaskDefinition) (parameters : ParameterSet) (inputs : List String)
    (directory : Option String) : Except TaskError Command :=
  match (words t.implementation.toList).map String.ofList with
  | [] => .error .noImplementation
  | program :: rest =>
    .ok {
      program := resolve program directory
      arguments := rest ++ argumentsOf parameters inputs
      directory }

/-- What is printed of a command that is not carried out. -/
def preview (c : Command) (taskId : String) : String :=
  s!"\n[DRY RUN] Task: {taskId}\n  Command: {c.program} " ++ " ".intercalate c.arguments ++ "\n"

end Command

/-- Stands for the value of an output of a task that was not carried out. -/
def previewValue : String := "<dry-run>"

def Text.linesOf (s : List Char) : List (List Char) :=
  match s with
  | [] => []
  | c :: rest =>
    if c = '\n' then [] :: linesOf rest
    else
      match linesOf rest with
      | [] => [[c]]
      | line :: lines => (c :: line) :: lines

namespace Completion

/-- The last line that is not blank. -/
def lastLine? (output : List Char) : Option (List Char) :=
  (Text.linesOf output).reverse.find? fun line => !line.all Text.isBlank

def valuesOfLine (outputs : List String) (line : String) : Except OutputFault (List String) :=
  match OutputLine.parse line with
  | .error fault => .error (.unreadable fault line)
  | .ok values =>
    if values.length = outputs.length then .ok values
    else .error (.wrongCount outputs values.length line)

/-- The values of the outputs of a task after its program has ended. -/
def values (c : Completion) (outputs : List String) : Except TaskError (List String) :=
  if c.status ≠ .exited 0 then
    .error (.exited c.status (Text.trim (Text.ofBytesLenient c.errors)))
  else if outputs.isEmpty then .ok []
  else
    match lastLine? (Text.decodeLenient c.output.toList) with
    | none => .error (.malformedOutput (.nothing outputs.length))
    | some line => (valuesOfLine outputs (String.ofList line)).mapError .malformedOutput

end Completion

end Sweep
