import Sweep.Run.Samples
import Sweep.Run.Timeline
import Sweep.Run.Traversal

/-!
# Reports

The texts in which the program tells of runs: a line for each run, the state of one run in detail,
and the summary of a run that has just ended.
-/

namespace Sweep

/-- A length of time in the largest unit that it fills, with two decimals. -/
def showDuration (nanoseconds : Nat) : String :=
  let inUnit (unit : Nat) (name : String) : String :=
    let hundredths := (nanoseconds * 100 + unit / 2) / unit
    s!"{toString (hundredths / 100)}.{Timestamp.padded 2 (hundredths % 100)}{name}"
  if nanoseconds < 1000 then inUnit 1 "ns"
  else if nanoseconds < 1000000 then inUnit 1000 "µs"
  else if nanoseconds < 1000000000 then inUnit 1000000 "ms"
  else inUnit 1000000000 "s"

/-- Lines of text, each with a line feed at its end. -/
def unlines (lines : List String) : String := String.join (lines.map fun line => line ++ "\n")

namespace RunRecord

def listing (r : RunRecord) : String :=
  s!"{r.runId}  {r.status.name}  {r.updatedAt.display}"

def placeLine? (r : RunRecord) : Option String :=
  r.currentSpace.map fun space =>
    let index := (r.currentSet.map fun i => toString i).getD "-"
    let task := r.currentTask.getD "-"
    s!"Position:   space {space}, parameter set {index}, task {task}"

/-- The lines that tell the state of a run. -/
def details (r : RunRecord) (spaces tasks : UnitCounts) : List String :=
  [s!"Run:        {r.runId}", s!"Experiment: {r.experiment} (artifact {r.version})",
   s!"Status:     {r.status.name}", s!"Started:    {r.startedAt.display}"] ++
  (r.finishedAt.map fun t => s!"Finished:   {t.display}").toList ++
  r.placeLine?.toList ++
  [s!"Spaces:     {toString spaces.completed} completed, {toString spaces.failed} failed",
   s!"Tasks:      {toString tasks.completed} completed, {toString tasks.failed} failed"] ++
  (r.error.map fun e => s!"Error:      {e}").toList

end RunRecord

def resultLines (space : String) (values : Table String) : List String :=
  space :: values.entries.map fun (name, value) => s!"  {name} = {value}"

/-- What is known of the time and the resources that a run took. -/
structure Effort where
  /-- The length of the run in nanoseconds. -/
  duration : Nat
  chart : String
  resources : String

/-- The summary of a run. The effort is shown only if anything was carried out. -/
def RunSummary.report (s : RunSummary) (e : Effort) : String :=
  let duration := if s.executed then e.duration else 0
  unlines
    (["", s!"Run {s.runId}: {s.status.name}"] ++
     (if s.resumed then ["Resumed from stored progress"] else []) ++
     [s!"Tasks: {toString s.tasks.completed} completed, {toString s.tasks.failed} failed",
      "Total execution time: " ++ showDuration duration] ++
     (if s.executed then ["", e.chart, e.resources] else []) ++
     "" :: s.results.entries.flatMap fun (space, values) => resultLines space values)

end Sweep
