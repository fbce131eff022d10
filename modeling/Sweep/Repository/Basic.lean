import Sweep.Files.Tree
import Sweep.Run.Snapshot

/-!
# Repositories of runs

A repository keeps one snapshot for every run. What a backend provides is to load, store and remove
snapshots and to list the runs; every operation on records loads a snapshot, looks at it or changes
it, and stores it. An operation that fails stores nothing.
-/

namespace Sweep

/-- Why an operation of a repository fails. -/
inductive RepositoryError where
  | fileFault (path : String) (fault : FileFault)
  /-- What is stored is no snapshot. -/
  | corrupt (path : String)
  | runNotFound (runId : String)
  | runExists (runId : String)
  | recordNotFound (key : RecordKey)
deriving DecidableEq, Repr

def RepositoryError.message : RepositoryError → String
  | .fileFault path fault => s!"I/O error on {path}: " ++ fault.message
  | .corrupt path => s!"Corrupt run record {path}"
  | .runNotFound runId => s!"Run not found: {runId}"
  | .runExists runId => s!"Run already exists: {runId}"
  | .recordNotFound key => "No record for " ++ key.describe

/-- How snapshots are stored in a state of type `S`. -/
structure Backend (S : Type) where
  load : String → S → Except RepositoryError (Option RunSnapshot)
  store : RunSnapshot → S → Except RepositoryError Unit × S
  /-- Removes a snapshot; false if there was none. -/
  remove : String → S → Except RepositoryError Bool × S
  runIds : S → Except RepositoryError (List String)

/-- A repository that is a part of a larger state. -/
def Backend.within {S T : Type} (b : Backend S) (part : T → S) (replace : S → T → T) :
    Backend T where
  load runId t := b.load runId (part t)
  store snapshot t := (b.store snapshot (part t)).map id fun s => replace s t
  remove runId t := (b.remove runId (part t)).map id fun s => replace s t
  runIds t := b.runIds (part t)

/-- An operation at a point in time on a repository stored in a state of type `S`. -/
abbrev RepositoryM (S : Type) := ReaderT Timestamp (ExceptT RepositoryError (StateM S))

namespace Backend

variable {S : Type} (b : Backend S)

/-- Loads the snapshot of a run, if there is one. -/
def loadSnapshot (runId : String) : RepositoryM S (Option RunSnapshot) :=
  fun _ s => (b.load runId s, s)

def storeSnapshot (snapshot : RunSnapshot) : RepositoryM S Unit :=
  fun _ s => b.store snapshot s

/-- The snapshot of a run that has to be there. -/
def snapshot (runId : String) : RepositoryM S RunSnapshot := do
  match ← b.loadSnapshot runId with
  | some snapshot => return snapshot
  | none => throw (.runNotFound runId)

/-- Changes the snapshot of a run. -/
def modify (runId : String)
    (change : Timestamp → RunSnapshot → Except RecordKey RunSnapshot) : RepositoryM S Unit := do
  let snapshot ← b.snapshot runId
  let now ← read
  match change now snapshot with
  | .error key => throw (.recordNotFound key)
  | .ok changed => b.storeSnapshot (changed.touch now)

/-- Changes the snapshot of a run by a function that cannot fail. -/
def update (runId : String) (change : Timestamp → RunSnapshot → RunSnapshot) :
    RepositoryM S Unit :=
  b.modify runId fun now s => .ok (change now s)

/-! ## Runs -/

def runNames : RepositoryM S (List String) := fun _ s => (b.runIds s, s)

/-- Adds a run that is not there yet. -/
def createRun (run : RunRecord) : RepositoryM S Unit := do
  if (← b.loadSnapshot run.runId).isSome then throw (.runExists run.runId)
  b.storeSnapshot (.ofRun run)

def run? (runId : String) : RepositoryM S (Option RunRecord) :=
  return (← b.loadSnapshot runId).map (·.run)

/-- Replaces the record of a run as such. -/
def updateRun (run : RunRecord) : RepositoryM S Unit :=
  b.update run.runId fun _ s => { s with run }

def setRunStatus (runId : String) (status : RunStatus) (error : Option String) :
    RepositoryM S Unit :=
  b.update runId fun now s => s.setStatus now status error

def setRunPosition (runId : String) (space : Option String) (index : Option Nat)
    (task : Option String) : RepositoryM S Unit :=
  b.update runId fun _ s => s.setPosition space index task

/-- Whether a run comes before another in the list of all runs. -/
def startsNoLater (a b : RunRecord) : Bool :=
  a.startedAt.lt b.startedAt || (a.startedAt == b.startedAt && decide (a.runId ≤ b.runId))

/-- All runs, the oldest first. -/
def listRuns : RepositoryM S (List RunRecord) := do
  let snapshots ← (← b.runNames).mapM b.loadSnapshot
  return (snapshots.filterMap fun s => s.map (·.run)).mergeSort startsNoLater

def deleteRun (runId : String) : RepositoryM S Bool := fun _ s => b.remove runId s

/-! ## Spaces, parameter sets and tasks -/

def space? (runId space : String) : RepositoryM S (Option SpaceRecord) :=
  return (← b.snapshot runId).space? space

def startSpace (runId space : String) : RepositoryM S Unit :=
  b.update runId fun now s => s.startSpace now space

def setSpaceStatus (runId space : String) (status : UnitStatus) : RepositoryM S Unit :=
  b.modify runId fun now s => s.setSpaceStatus now space status

def resetSpace (runId space : String) : RepositoryM S Unit :=
  b.update runId fun _ s => s.resetSpace space

def set? (runId space : String) (index : Nat) : RepositoryM S (Option SetRecord) :=
  return (← b.snapshot runId).set? space index

def startSet (runId space : String) (index : Nat) (parameters : ParameterSet) :
    RepositoryM S Unit :=
  b.update runId fun now s => s.startSet now space index parameters

def setSetStatus (runId space : String) (index : Nat) (status : UnitStatus) :
    RepositoryM S Unit :=
  b.modify runId fun now s => s.setSetStatus now space index status

def task? (runId space : String) (index : Nat) (task : String) :
    RepositoryM S (Option TaskRecord) :=
  return (← b.snapshot runId).task? space index task

def startTask (runId space : String) (index : Nat) (task : String) : RepositoryM S Unit :=
  b.update runId fun now s => s.startTask now space index task

def setTaskStatus (runId space : String) (index : Nat) (task : String) (status : UnitStatus)
    (error : Option String) : RepositoryM S Unit :=
  b.modify runId fun now s => s.setTaskStatus now space index task status error

/-! ## Values, control and counts -/

def putMapping (runId : String) (m : DataMapping) : RepositoryM S Unit :=
  b.update runId fun _ s => s.putMapping m

def mapping? (runId space : String) (index : Nat) (name : String) :
    RepositoryM S (Option DataMapping) :=
  return (← b.snapshot runId).mapping? space index name

def mappingsOf (runId space : String) (index : Nat) : RepositoryM S (List DataMapping) :=
  return (← b.snapshot runId).mappingsOf space index

def latestMapping? (runId name : String) : RepositoryM S (Option DataMapping) :=
  return (← b.snapshot runId).latestMapping? name

def control? (runId : String) : RepositoryM S (Option ControlState) :=
  return (← b.snapshot runId).control

def enter (runId space : String) : RepositoryM S Unit :=
  b.update runId fun now s => s.enter now space

def taskCounts (runId : String) (space : Option String) : RepositoryM S UnitCounts :=
  return (← b.snapshot runId).taskCounts space

def spaceCounts (runId : String) : RepositoryM S UnitCounts :=
  return (← b.snapshot runId).spaceCounts

def setCounts (runId space : String) : RepositoryM S UnitCounts :=
  return (← b.snapshot runId).setCounts space

end Backend

end Sweep
