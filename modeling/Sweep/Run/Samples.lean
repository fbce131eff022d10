import Sweep.Table
import Sweep.Timestamp

/-!
# Samples of resources

The use of processor and memory is read between tasks, each reading under the name of the task that
has just ended. The first call only starts the measurement; after that a call within a given
interval of the last reading is ignored.
-/

namespace Sweep

/-- What was read at one time. -/
structure Reading where
  /-- Processor use in tenths of a percent. -/
  processor : Nat
  /-- Memory in whole megabytes. -/
  memory : Nat
deriving DecidableEq, Repr

structure Sample where
  label : String
  reading : Reading
deriving DecidableEq, Repr

/-- The samples taken so far, and when the last reading was made. -/
structure Sampler where
  /-- The least time between two readings, in nanoseconds. -/
  interval : Nat := 250000000
  last : Option Timestamp := none
  samples : List Sample := []
deriving DecidableEq, Repr

namespace Sampler

/-- Takes a reading into account, unless it is the first or comes too early. -/
def sample (s : Sampler) (now : Timestamp) (label : String) (reading : Reading) : Sampler :=
  match s.last with
  | none => { s with last := some now }
  | some last =>
    if now.nanoseconds - last.nanoseconds < s.interval then s
    else { s with last := some now, samples := s.samples ++ [⟨label, reading⟩] }

def peakMemory (s : Sampler) : Nat := (s.samples.map (·.reading.memory)).foldl max 0

def leastMemory (s : Sampler) : Nat := ((s.samples.map (·.reading.memory)).min?).getD 0

/-- The mean processor use in tenths of a percent. -/
def meanProcessor (s : Sampler) : Nat :=
  (s.samples.foldl (· + ·.reading.processor) 0) / s.samples.length

/-- The highest memory reading under each name. -/
def peaks (s : Sampler) : Table Nat :=
  s.samples.foldl (fun t x =>
    t.insert x.label (max ((t.get? x.label).getD 0) x.reading.memory)) ∅

/-- What there is to say of the samples. -/
def summary (s : Sampler) : String :=
  if s.samples.isEmpty then "No resource data collected"
  else
    let mean := s.meanProcessor
    s!"Resource Usage:\n  Average CPU: {toString (mean / 10)}.{toString (mean % 10)}%\n" ++
      s!"  Peak Memory: {toString s.peakMemory} MB\n" ++
      s!"  Min Memory: {toString s.leastMemory} MB\n" ++
      s!"  Samples: {toString s.samples.length}"

end Sampler

end Sweep
