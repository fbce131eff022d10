import Sweep.Document.Reading
import Sweep.Files.Tree
import Sweep.Text.Blank
import Sweep.Yaml.Basic

/-!
# Settings

Where runs are recorded, where tasks are executed, and how many runs may go on at once. A settings
file may leave out any of them; the environment may replace the directory of the runs.
-/

namespace Sweep

structure Settings where
  /-- The directory of the records of runs. -/
  runsDirectory : String := ".expflow/runs"
  /-- The directory in which tasks are executed. -/
  workingDirectory : Option String := none
  /-- The number of runs that may go on at once; by default as many as there are processors. -/
  maxConcurrentRuns : Option Nat := none
  logLevel : String := "info"
deriving DecidableEq, Repr

/-- Why settings cannot be read. -/
inductive SettingsError where
  | unreadable (path : String) (fault : FileFault)
  | malformed (path : String)
deriving DecidableEq, Repr

def SettingsError.message : SettingsError → String
  | .unreadable path fault => s!"Failed to read settings {path}: " ++ fault.message
  | .malformed path => s!"Invalid settings file {path}"

namespace Settings

/-- The settings file that is read if none is named. -/
def defaultPath : String := ".expflow/config.yaml"

def fieldNames : List String :=
  ["runs_dir", "working_dir", "max_concurrent_runs", "log_level"]

def decode? (d : Document) : Option Settings := do
  let defaults : Settings := {}
  let fields ← Document.named? fieldNames d
  let runsDirectory ← fields.withDefault? "runs_dir" defaults.runsDirectory Document.text?
  let workingDirectory ← fields.optional? "working_dir" Document.text?
  let maxConcurrentRuns ←
    fields.withDefault? "max_concurrent_runs" none fun d => d.nat?.map some
  let logLevel ← fields.withDefault? "log_level" defaults.logLevel Document.text?
  return { runsDirectory, workingDirectory, maxConcurrentRuns, logLevel }

/-- The settings of a text; a text of white space only leaves everything at its default. -/
def parse? (text : String) : Option Settings :=
  if Text.isEmptyTrimmed text then some {} else (Yaml.parse? text).bind decode?

def ofFile (t : FileTree) (path : String) : Except SettingsError Settings :=
  match t.readText path with
  | .error fault => .error (.unreadable path fault)
  | .ok text =>
    match parse? text with
    | none => .error (.malformed path)
    | some settings => .ok settings

/-- The settings with the directory of the runs that the environment names, if it names one. -/
def withEnvironment (s : Settings) (runsDirectory : Option String) : Settings :=
  match runsDirectory with
  | some directory =>
    if Text.isEmptyTrimmed directory then s else { s with runsDirectory := directory }
  | none => s

/-- The settings file that is read: the one that is named, or the default one if there is one. -/
def sourcePath? (t : FileTree) (named : Option String) : Option String :=
  match named with
  | some path => some path
  | none => if t.leadsSomewhere defaultPath then some defaultPath else none

/-- The settings in force. -/
def load (t : FileTree) (named runsDirectory : Option String) : Except SettingsError Settings := do
  let settings ←
    match sourcePath? t named with
    | some path => ofFile t path
    | none => .ok {}
  return settings.withEnvironment runsDirectory

end Settings

end Sweep
