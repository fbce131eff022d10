import Sweep.Command.Basic
import Sweep.Shell.Execution

/-!
# Starting commands on a tree of files

A command is carried out on the files that it works on, so that what it leaves behind is a function
of them. A program named without a slash is one that comes with the system; any other is looked up
from the directory that the command is started in, and has to be an executable file whose first
line names its interpreter. A program has no input.

What is stated of runs is stated for whatever starts their programs. The launcher of this module is
one that can be put in this place: it stands for the system around, with a shell and its tools, and
nothing that is proved of compiling, of runs or of what is kept of them depends on it.
-/

namespace Sweep

namespace Command

/-- A bound on the depth of the steps of a program. -/
def maxDepth : Nat := 10000

/-- The length from which on an argument is too long, in bytes. -/
def maxArgumentLength : Nat := 131072

def check (c : Command) : Except LaunchFault Unit :=
  let parts := c.program :: c.arguments ++ c.directory.toList
  if parts.any fun part => part.toList.contains '\x00' then .error .badCharacter
  else if c.arguments.any fun a => maxArgumentLength ≤ a.utf8ByteSize then
    .error .argumentTooLong
  else .ok ()

/-- What a command does in the shell once its program has been found. -/
def start? (c : Command) (t : FileTree) : Except FileFault (Shell.ShellM (Except FileFault Unit)) :=
  let k := Shell.actor maxDepth
  let arguments := c.arguments.map Octets.ofString
  let system (name : String) : Shell.ShellM (Except FileFault Unit) := do
    Shell.runSystem k name c.program arguments
    return .ok ()
  if !c.program.toList.contains '/' then
    if c.program = "." || c.program = ".." then .error .notPermitted
    else if Shell.isSystemProgram c.program then .ok (system c.program)
    else .error .notFound
  else
    match Shell.systemName? c.program with
    | some name => .ok (system name)
    | none =>
      match t.find c.program with
      | .error fault => .error fault
      | .ok .directory | .ok (.file _ false) => .error .notPermitted
      | .ok (.file content true) =>
        match Shell.interpreter? (Octets.ofBytes content) with
        | none | some [] => .error .badExecutable
        | some _ => .ok (Shell.runFile k c.program arguments)

/-- The state in which a program is started. -/
def initialState (t : FileTree) : Shell.State :=
  let path : Shell.Variable :=
    { value := some (Octets.ofString Shell.defaultPath), isExported := true }
  { files := t, name := Octets.ofString "sh", bindings := Table.insert ∅ "PATH" path }

/-- What a program leaves behind. -/
def completion (isKilled : Bool) (s : Shell.State) : Completion :=
  let written (n : Nat) : ByteArray :=
    match s.streams[n]? with
    | some (.collected reversed) => Octets.toBytes reversed.reverse
    | _ => .empty
  { status := if isKilled then .killed else .exited (s.status % 256)
    output := written 1, errors := written 2 }

/-- The files as seen from where a command is started, and what it does there. -/
def prepare (c : Command) (t : FileTree) :
    Except LaunchFault (FileTree × Shell.ShellM (Except FileFault Unit)) := do
  c.check
  let inside ← match c.directory with
    | some directory => (t.enter directory).mapError .file
    | none => .ok t
  return (inside, ← (c.start? inside).mapError .file)

/-- Starts a command in the directory that it names and waits for its end. -/
def launch (c : Command) (t : FileTree) : Except LaunchFault Completion × FileTree :=
  match c.prepare t with
  | .error fault => (.error fault, t)
  | .ok (inside, program) =>
    match program (initialState inside) with
    | (.ok (.error fault), _) => (.error (.file fault), t)
    | (.ok (.ok ()), s) => (.ok (completion false s), { s.files with current := t.current })
    | (.error leave, s) =>
      let isKilled := match leave with
        | .killed _ _ => true
        | _ => false
      (.ok (completion isKilled s), { s.files with current := t.current })

/-- Where nothing is started, nothing is changed. -/
theorem launch_files_of_error {c : Command} {t : FileTree} {fault : LaunchFault}
    (failed : (c.launch t).1 = .error fault) : (c.launch t).2 = t := by
  unfold launch at failed ⊢
  cases prepared : c.prepare t with
  | error => rfl
  | ok start =>
    rw [prepared] at failed
    dsimp only at failed ⊢
    split at failed
    · rfl
    · cases failed
    · cases failed

/-- Commands may go to other directories, whoever starts them stays where it is. -/
theorem launch_current (c : Command) (t : FileTree) : (c.launch t).2.current = t.current := by
  unfold launch
  cases c.prepare t with
  | error => rfl
  | ok start =>
    dsimp only
    split <;> rfl

end Command

end Sweep
