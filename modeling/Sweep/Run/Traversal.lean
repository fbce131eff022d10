import Sweep.Run.NextSpace
import Sweep.Run.Results
import Sweep.Run.SpaceVisit

/-!
# Running an artifact

A run goes from space to space until it reaches the end. The space that it is in is recorded when
it is entered, so that a run which was broken off goes on from there: if the recorded space is
completed, with the choice of the next one, else with the parameter sets that are not completed. A
space that is entered again is forgotten first and then visited from the beginning.

The number of visits is not known beforehand, as spaces can lead back to earlier ones. So a run is
carried out for a given number of visits at most; `none` says that it has not come to an end by
then.
-/

namespace Sweep

/-- How a run has ended. -/
structure RunSummary where
  runId : String
  status : RunStatus
  results : Results
  tasks : UnitCounts
  /-- Whether there was a record of the run before. -/
  resumed : Bool
  /-- Whether anything was carried out. -/
  executed : Bool
deriving DecidableEq

namespace Conduct

variable {S : Type} (c : Conduct S)

def isSpaceCompleted (space : String) : Activity S Bool := do
  match ← c.query (c.host.backend.space? c.runId space) with
  | some record => return decide (record.status = .completed)
  | none => return false

/-- Visits a space that has been entered, unless the run goes on from after an earlier visit. -/
def visitOnce (space : SpaceDefinition) (goesOn : Bool) : Activity S Unit := do
  let completed ← c.isSpaceCompleted space.spaceId
  if completed && goesOn then return
  if completed then
    c.record (c.host.backend.resetSpace c.runId space.spaceId)
  c.visit space
  c.checkTermination

/-- Goes on from a space to the end; false if that takes more than the given number of visits. -/
def traverse : Nat → String → Bool → Activity S Bool
  | visits, current, goesOn => do
    if current = endMark then
      c.record (c.host.backend.enter c.runId endMark)
      return true
    else
      match visits with
      | 0 => return false
      | visits + 1 =>
        match c.artifact.space? current with
        | none => throw (.unknownSpace current)
        | some space =>
          c.record (c.host.backend.enter c.runId current)
          c.visitOnce space goesOn
          traverse visits (← c.next current) false

/-- The space to begin with: the recorded one if the run goes on, else the start. -/
def firstSpace (resumed : Bool) : Activity S String := do
  match ← c.query (c.host.backend.control? c.runId) with
  | some state => return if resumed then state.space else c.artifact.control.start
  | none => return c.artifact.control.start

/-- What there is to say of the run. -/
def summary (resumed executed : Bool) : Activity S RunSummary := do
  match ← c.query (c.host.backend.run? c.runId) with
  | none => throw (.runNotFound c.runId)
  | some run =>
    let results ← c.results
    let tasks ← c.query (c.host.backend.taskCounts c.runId none)
    return { runId := c.runId, status := run.status, results, tasks, resumed, executed }

/-- Carries a recorded run out to its end. -/
def drive (visits : Nat) (resumed : Bool) : Activity S (Option RunSummary) := do
  let b := c.host.backend
  c.record (b.setRunStatus c.runId .running none)
  let traversal : Activity S Bool := do
    c.traverse visits (← c.firstSpace resumed) resumed
  match ← traversal.attempt with
  | .ok true =>
    c.record (b.setRunStatus c.runId .completed none)
    c.record (b.setRunPosition c.runId none none none)
    return some (← c.summary resumed true)
  | .ok false => return none
  | .error e =>
    if !e.isTermination then
      c.record (b.setRunStatus c.runId .failed (some e.message))
      c.emit (.error c.runId e.message)
    throw e

/-- Goes on with a run that is recorded, unless it belongs to another artifact. A completed run is
not carried out again. -/
def continueRun (visits : Nat) (run : RunRecord) : Activity S (Option RunSummary) := do
  let hash := c.artifact.contentHash
  if run.artifactHash ≠ hash then
    throw (.artifactMismatch run.runId run.artifactHash hash)
  else if run.status = .completed then return some (← c.summary true false)
  else c.drive visits true

/-- Resumes the run, which has to be recorded. -/
def resume (visits : Nat) : Activity S (Option RunSummary) := do
  match ← c.query (c.host.backend.run? c.runId) with
  | none => throw (.runNotFound c.runId)
  | some run => c.continueRun visits run

/-- Adds a record of the run. -/
def register : Activity S Unit :=
  c.record fun now =>
    let run := RunRecord.new c.runId c.artifact.experiment c.artifact.version
      c.artifact.contentHash now
    c.host.backend.createRun { run with artifactPath := c.options.artifactPath } now

/-- Carries the run out, or goes on with it if it is recorded. -/
def run (visits : Nat) : Activity S (Option RunSummary) := do
  match ← c.query (c.host.backend.run? c.runId) with
  | some known => c.continueRun visits known
  | none =>
    c.register
    c.drive visits false

end Conduct

def Conduct.ofArtifact {S : Type} (host : Host S) (artifact : Artifact) (options : RunOptions) :
    Conduct S :=
  { host, artifact, options, runId := artifact.runId }

end Sweep
