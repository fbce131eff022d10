import Std.Time.DateTime
import Sweep.CommandLine.Basic

/-!
# Starting the program

The outer layer of the program. It reads the files below the current directory into a tree of
files, lets the program work on the tree, prints what the program printed, and writes what has
changed in the tree back. The program is run again from the beginning, with one more line of input,
when it fails for want of an answer; as it does the same again up to that point, only what is new
is printed.
-/

namespace Sweep

/-- Adds the files of a directory to a tree. As there is no telling which files can be executed,
all of them count as such. -/
partial def FileTree.gather (t : FileTree) (way : List String) (entries : List IO.FS.DirEntry) :
    IO FileTree :=
  entries.foldlM (fun t entry => do
    let here := way ++ [entry.fileName]
    try
      if ← entry.path.isDir then
        let inside ← entry.path.readDir
        (t.put here .directory).gather here inside.toList
      else
        return t.put here (.file (← IO.FS.readBinFile entry.path) true)
    catch _ => return t) t

/-- The tree of the files below the current directory. -/
def FileTree.here : IO FileTree := do
  let current ← IO.currentDir
  let way := Path.pieces current.toString
  let entries ← current.readDir
  (FileTree.withCurrent way).gather way entries.toList

/-- Writes one node of a tree. -/
def FileNode.write (path : String) : FileNode → IO Unit
  | .directory => IO.FS.createDirAll path
  | .file content executable => do
    IO.FS.writeBinFile path content
    if executable then
      IO.setAccessRights path ⟨⟨true, true, true⟩, ⟨true, false, true⟩, ⟨true, false, true⟩⟩

/-- Writes what has changed in a tree since an earlier state of it. -/
def FileTree.writeSince (earlier t : FileTree) : IO Unit := do
  for (path, node) in earlier.nodes.entries.reverse do
    if (t.nodes.get? path).isNone then
      match node with
      | .directory => IO.FS.removeDir path
      | .file _ _ => IO.FS.removeFile path
  for (path, node) in t.nodes.entries do
    if earlier.nodes.get? path != some node then node.write path

namespace CommandLine

/-- Waits while a file exists. -/
partial def waitWhile (flag : String) : IO Unit := do
  let path := (← IO.currentDir) / flag
  if ← path.pathExists then
    IO.sleep 200
    waitWhile flag

/-- Reads a line from a stream, with the line feed that ends it. -/
partial def readLine (input : IO.FS.Stream) (line : List UInt8) : IO (List UInt8) := do
  match (← input.read 1).toList with
  | [] => return line
  | byte :: _ =>
    let line := line ++ [byte]
    if byte = Answers.lineFeed then return line else readLine input line

/-- Runs the program with more and more input until it does not want any, or there is none. -/
partial def converse (w : Surroundings) (words : List String) (shown : Nat) : IO Outcome := do
  let o := run w words
  let output ← IO.getStdout
  output.putStr (String.ofList (o.output.toList.drop shown))
  output.flush
  match o.failure with
  | some (.run (.noAnswer .closed)) =>
    match ← readLine (← IO.getStdin) [] with
    | [] => return o
    | line => converse { w with input := w.input ++ line } words o.output.length
  | _ => return o

end CommandLine

end Sweep

open Sweep CommandLine in
def main (words : List String) : IO UInt32 := do
  match Invocation.ofWords words with
  | .ok i => (i.request.pauseFlag?).forM waitWhile
  | .error _ => pure ()
  let files ← FileTree.here
  let start := (← Std.Time.Timestamp.now).toNanosecondsSinceUnixEpoch.toInt
  let w : Surroundings := {
    files
    runsDirectory := ← IO.getEnv "EXPFLOW_RUNS_DIR"
    clock := fun n => .ofNanoseconds (start + n) }
  let outcome ← converse w words 0
  files.writeSince outcome.files
  (← IO.getStderr).putStr outcome.errors
  return outcome.code.toUInt32
