import Sweep.Repository.Basic

/-!
# Operations of a repository as values

Every operation that a repository offers, as a value together with its arguments, and what it
answers. A history of a repository is a list of operations.
-/

namespace Sweep

inductive Operation where
  | createRun (run : RunRecord)
  | getRun (runId : String)
  | updateRun (run : RunRecord)
  | setRunStatus (runId : String) (status : RunStatus) (error : Option String)
  | setRunPosition (runId : String) (space : Option String) (index : Option Nat)
      (task : Option String)
  | listRuns
  | runNames
  | deleteRun (runId : String)
  | getSnapshot (runId : String)
  | startSpace (runId space : String)
  | getSpace (runId space : String)
  | setSpaceStatus (runId space : String) (status : UnitStatus)
  | resetSpace (runId space : String)
  | startSet (runId space : String) (index : Nat) (parameters : ParameterSet)
  | getSet (runId space : String) (index : Nat)
  | setSetStatus (runId space : String) (index : Nat) (status : UnitStatus)
  | startTask (runId space : String) (index : Nat) (task : String)
  | getTask (runId space : String) (index : Nat) (task : String)
  | setTaskStatus (runId space : String) (index : Nat) (task : String) (status : UnitStatus)
      (error : Option String)
  | putMapping (runId : String) (mapping : DataMapping)
  | getMapping (runId space : String) (index : Nat) (name : String)
  | getMappings (runId space : String) (index : Nat)
  | latestMapping (runId name : String)
  | getControl (runId : String)
  | enter (runId space : String)
  | taskCounts (runId : String) (space : Option String)
  | spaceCounts (runId : String)
  | setCounts (runId space : String)
deriving DecidableEq

/-- What an operation answers if it succeeds. -/
inductive Reply where
  | done
  | removed (wasThere : Bool)
  | run (run : Option RunRecord)
  | runs (runs : List RunRecord)
  | names (names : List String)
  | snapshot (snapshot : RunSnapshot)
  | space (record : Option SpaceRecord)
  | set (record : Option SetRecord)
  | task (record : Option TaskRecord)
  | mapping (mapping : Option DataMapping)
  | mappings (mappings : List DataMapping)
  | control (control : Option ControlState)
  | counts (counts : UnitCounts)
deriving DecidableEq

def Backend.perform {S : Type} (b : Backend S) : Operation → RepositoryM S Reply
  | .createRun run => do b.createRun run; return .done
  | .getRun runId => return .run (← b.run? runId)
  | .updateRun run => do b.updateRun run; return .done
  | .setRunStatus runId status error => do b.setRunStatus runId status error; return .done
  | .setRunPosition runId space index task => do
    b.setRunPosition runId space index task
    return .done
  | .listRuns => return .runs (← b.listRuns)
  | .runNames => return .names (← b.runNames)
  | .deleteRun runId => return .removed (← b.deleteRun runId)
  | .getSnapshot runId => return .snapshot (← b.snapshot runId)
  | .startSpace runId space => do b.startSpace runId space; return .done
  | .getSpace runId space => return .space (← b.space? runId space)
  | .setSpaceStatus runId space status => do b.setSpaceStatus runId space status; return .done
  | .resetSpace runId space => do b.resetSpace runId space; return .done
  | .startSet runId space index parameters => do
    b.startSet runId space index parameters
    return .done
  | .getSet runId space index => return .set (← b.set? runId space index)
  | .setSetStatus runId space index status => do
    b.setSetStatus runId space index status
    return .done
  | .startTask runId space index task => do b.startTask runId space index task; return .done
  | .getTask runId space index task => return .task (← b.task? runId space index task)
  | .setTaskStatus runId space index task status error => do
    b.setTaskStatus runId space index task status error
    return .done
  | .putMapping runId mapping => do b.putMapping runId mapping; return .done
  | .getMapping runId space index name => return .mapping (← b.mapping? runId space index name)
  | .getMappings runId space index => return .mappings (← b.mappingsOf runId space index)
  | .latestMapping runId name => return .mapping (← b.latestMapping? runId name)
  | .getControl runId => return .control (← b.control? runId)
  | .enter runId space => do b.enter runId space; return .done
  | .taskCounts runId space => return .counts (← b.taskCounts runId space)
  | .spaceCounts runId => return .counts (← b.spaceCounts runId)
  | .setCounts runId space => return .counts (← b.setCounts runId space)

end Sweep
