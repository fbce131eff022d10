import Sweep.Run.Session

/-!
# Results

The results of a run are the outputs of the last task of every space, in each parameter set that is
completed. A value is known by the name of the output and the index of the set.
-/

namespace Sweep

/-- The values of each space, by their names. -/
abbrev Results := Table (Table String)

def Results.encode (r : Results) : Json := Table.encode (Table.encode Json.text) r

/-- The name of the value of an output in a parameter set. -/
def resultKey (output : String) (index : Nat) : String := s!"{output}_param{toString index}"

namespace Conduct

variable {S : Type} (c : Conduct S)

/-- Adds the values of outputs in a parameter set. -/
def collectOutputs (space : String) (index : Nat) :
    Table String → List String → Activity S (Table String)
  | values, [] => return values
  | values, output :: rest => do
    match ← c.query (c.host.backend.mapping? c.runId space index output) with
    | some m => collectOutputs space index (values.insert (resultKey output index) m.value) rest
    | none => collectOutputs space index values rest

/-- Adds the values of outputs in those of some parameter sets that are completed. -/
def collectSets (space : String) (outputs : List String) :
    Table String → List Nat → Activity S (Table String)
  | values, [] => return values
  | values, index :: rest => do
    let record ← c.query (c.host.backend.set? c.runId space index)
    if record.any fun r => r.status == .completed then
      collectSets space outputs (← c.collectOutputs space index values outputs) rest
    else collectSets space outputs values rest

def collectSpace (space : SpaceDefinition) : Activity S (Table String) := do
  match space.lastTask? with
  | none => return ∅
  | some last =>
    match c.artifact.task? last with
    | none => throw (.unknownTask space.spaceId last)
    | some t => c.collectSets space.spaceId t.outputData ∅ (List.range space.parameters.length)

/-- Adds the values of spaces. -/
def collectSpaces : Results → List SpaceDefinition → Activity S Results
  | results, [] => return results
  | results, space :: rest => do
    collectSpaces (results.insert space.spaceId (← c.collectSpace space)) rest

/-- The results of the run, complete or not. -/
def results : Activity S Results := c.collectSpaces ∅ c.artifact.spaces

end Conduct

end Sweep
