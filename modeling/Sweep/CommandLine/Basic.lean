import Sweep.Artifact.Codec
import Sweep.Command.Launch
import Sweep.CommandLine.Report
import Sweep.CommandLine.Request
import Sweep.Compile.Basic
import Sweep.Repository.Directory
import Sweep.Settings
import Sweep.Source.Loading

/-!
# The program

The program is a function from what it finds when it is started, and the words of its command line,
to what it leaves behind: what it printed, its exit code, and the files. What was printed before a
failure stays printed.
-/

namespace Sweep.CommandLine

/-- What the program finds when it is started. -/
structure Surroundings where
  files : FileTree
  /-- The directory of the runs that the environment names. -/
  runsDirectory : Option String := none
  /-- What can be read from the input. -/
  input : List UInt8 := []
  /-- The reading of the clock when it is read for the given time. -/
  clock : Nat → Timestamp
  /-- The resources in use at a time. -/
  usage : Timestamp → Reading := fun _ => ⟨0, 0⟩

/-- Why a request is not fulfilled. -/
inductive Failure where
  | settings (cause : SettingsError)
  | source (cause : LoadError)
  | compilation (cause : CompileFailure)
  | artifact (cause : ArtifactError)
  | repository (cause : RepositoryError)
  | run (cause : RunError)
  | unknownRun (runId : String)
  | noDirectory (path : String)
  /-- A run has visited very many spaces and still not reached the end. -/
  | unfinished (runId : String)
deriving DecidableEq, Repr

def Failure.message : Failure → String
  | .settings cause => cause.message
  | .source cause => cause.message
  | .compilation cause => cause.message
  | .artifact cause => cause.message
  | .repository cause => cause.message
  | .run cause => cause.message
  | .unknownRun runId => s!"Run not found: {runId}"
  | .noDirectory path => s!"Working directory does not exist: {path}"
  | .unfinished runId => s!"Run '{runId}' does not come to an end"

/-- What the program leaves behind. -/
structure Outcome where
  code : Nat
  output : String
  errors : String
  files : FileTree
  /-- Why the request is not fulfilled, unless it is or could not be read. -/
  failure : Option Failure := none

structure State where
  files : FileTree
  /-- How often the clock has been read. -/
  readings : Nat := 0
  output : String := ""
  errors : String := ""

/-- A part of the program, which may fail. -/
abbrev Job := ExceptT Failure (StateM State)

def banner : String := "\nExpFlow v0.1.0\n\n"

/-- The number of visits to spaces after which a run is given up. -/
def maxVisits : Nat := 1000000

def print (text : String) : Job Unit := modify fun s => { s with output := s.output ++ text }

def complain (text : String) : Job Unit := modify fun s => { s with errors := s.errors ++ text }

/-- The result of a step, whose failure is one of the program. -/
def settle (failure : ε → Failure) (result : Except ε α) : Job α :=
  match result with
  | .ok a => return a
  | .error e => throw (failure e)

/-! ## Compiling -/

/-- Compiles an experiment from its files, and tells of everything found in it. -/
def compileSources (experiment : String) (workflows : List String) : Job Compilation := do
  let files := (← get).files
  let e ← settle .source (Experiment.loadFile files experiment)
  let ws ← settle .source (Workflow.loadAll files workflows)
  match compile e ws with
  | .ok c =>
    print (unlines (c.warnings.map fun w => "warning: " ++ w.message))
    return c
  | .error f =>
    complain (unlines (f.errors.map fun e => "error: " ++ e.message))
    throw (.compilation f)

/-- Compiles an experiment into a file, which is named after that of the experiment by default. -/
def compileTo (experiment : String) (workflows : List String) (output : Option String) :
    Job Unit := do
  let a := (← compileSources experiment workflows).artifact
  let path := output.getD (Path.withExtension experiment "json")
  let files ← settle .artifact (a.save path (← get).files)
  modify fun s => { s with files }
  print s!"Wrote {path} ({toString a.spaces.length} spaces, {toString a.taskCount} tasks)\n"

def validate (experiment : String) (workflows : List String) : Job Unit := do
  let c ← compileSources experiment workflows
  print s!"OK '{c.artifact.experiment}' is valid ({toString c.warnings.length} warning(s))\n"

/-! ## Runs -/

section

variable (w : Surroundings)

def readClock : Job Timestamp := modifyGet fun s =>
  (w.clock s.readings, { s with readings := s.readings + 1 })

/-- Opens the directory of the runs, which is made unless it exists. -/
def openRuns (settings : Settings) : Job (Backend FileTree) := do
  let files ← settle .repository ((← get).files.openRepository settings.runsDirectory)
  modify fun s => { s with files }
  return .directory settings.runsDirectory

/-- Asks the repository. -/
def query (operation : RepositoryM FileTree α) : Job α := do
  let now ← readClock w
  let s ← get
  let (result, files) := operation now s.files
  set { s with files }
  settle .repository result

def conduct (runs : Backend FileTree) (a : Artifact) (options : RunOptions) : Conduct FileTree :=
  .ofArtifact { backend := runs, launch := Command.launch, clock := w.clock } a options

/-- Performs an activity in a session of its own, and prints what is printed in it. -/
def perform (answers : Answers) (activity : Activity FileTree α) :
    Job (α × Session FileTree) := do
  let s ← get
  let (result, session) :=
    activity { store := s.files, answers, readings := s.readings }
  set { s with
    files := session.store, readings := session.readings, output := s.output ++ session.printed }
  return (← settle .run result, session)

/-- The artifact of a file, and the conduct of its run as it was chosen. -/
def prepare (settings : Settings) (path : String) (choices : RunChoices) :
    Job (Conduct FileTree) := do
  let a ← settle .artifact (Artifact.load (← get).files path)
  let runs ← openRuns settings
  let directory := choices.workingDirectory.orElse fun _ => settings.workingDirectory
  match directory with
  | some d => unless (← get).files.isDirectory d do throw (.noDirectory d)
  | none => pure ()
  return conduct w runs a { dryRun := choices.dryRun, directory, artifactPath := some path }

/-- The samples of the resources in use at the ends of tasks. -/
def sampler (t : Timeline) : Sampler :=
  (t.filter fun e => e.mark != .started).foldl
    (fun s e => s.sample e.time e.key.task (w.usage e.time)) {}

/-- Carries out a run and prints its summary. -/
def carryOut (c : Conduct FileTree) (choices : RunChoices)
    (activity : Activity FileTree (Option RunSummary)) : Job Unit := do
  let answers :=
    if choices.answers.isEmpty then Answers.console w.input else .scripted choices.answers
  let start ← readClock w
  let (summary?, session) ← perform answers activity
  let finish ← readClock w
  match summary? with
  | none => throw (.unfinished c.runId)
  | some summary =>
    print (summary.report {
      duration := (finish.nanoseconds - start.nanoseconds).toNat
      chart := session.timeline.chart start finish
      resources := (sampler w session.timeline).summary })

def listRuns (settings : Settings) : Job Unit := do
  let runs ← query w (← openRuns settings).listRuns
  print (unlines (if runs.isEmpty then ["No runs recorded"] else runs.map RunRecord.listing))

def showRun (settings : Settings) (runId : String) : Job Unit := do
  let b ← openRuns settings
  match ← query w (b.run? runId) with
  | none => throw (.unknownRun runId)
  | some run =>
    let spaces ← query w (b.spaceCounts runId)
    let tasks ← query w (b.taskCounts runId none)
    print (unlines (run.details spaces tasks))

def showResults (settings : Settings) (path : String) (runId : Option String) : Job Unit := do
  let a ← settle .artifact (Artifact.load (← get).files path)
  let c := conduct w (← openRuns settings) a {}
  let (results, _) ← perform (.scripted []) { c with runId := runId.getD c.runId }.results
  print (results.encode.indented ++ "\n")

/-! ## Requests -/

def fulfil (settings : Settings) : Request → Job Unit
  | .compile experiment workflows output => compileTo experiment workflows output
  | .validate experiment workflows => validate experiment workflows
  | .run artifact choices => do
    let c ← prepare w settings artifact choices
    carryOut w c choices (c.run maxVisits)
  | .resume runId artifact choices => do
    let c := { ← prepare w settings artifact choices with runId }
    carryOut w c choices (c.resume maxVisits)
  | .status none => listRuns w settings
  | .status (some runId) => showRun w settings runId
  | .results artifact runId => showResults w settings artifact runId

/-- Does what is asked for with the settings in force. -/
def serve (i : Invocation) : Job Unit := do
  let settings ← settle .settings (Settings.load (← get).files i.config w.runsDirectory)
  print banner
  fulfil w { settings with runsDirectory := i.runsDirectory.getD settings.runsDirectory } i.request

/-- Runs the program on the words of a command line. If it fails for want of input, it does the
same with more input up to the point where it failed. -/
def run (words : List String) : Outcome :=
  match Invocation.ofWords words with
  | .error e => { code := 2, output := "", errors := s!"error: {e.message}\n", files := w.files }
  | .ok i =>
    let (result, s) := serve w i { files := w.files }
    match result with
    | .ok () => { code := 0, output := s.output, errors := s.errors, files := s.files }
    | .error f =>
      { code := 1, output := s.output, errors := s.errors ++ s!"\nError: {f.message}\n"
        files := s.files, failure := some f }

end

end Sweep.CommandLine
