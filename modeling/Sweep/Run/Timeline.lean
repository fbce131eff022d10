import Sweep.Run.Snapshot
import Sweep.Table

/-!
# Timelines

A timeline notes when tasks start and end. An end belongs to the task run of the same key that was
started last and is still open, as a closing bracket belongs to the last open one. From the spans
between them follow the time spent in each space and a chart of bars.
-/

namespace Sweep

/-- A task in a parameter set of a space. -/
structure TaskKey where
  space : String
  index : Nat
  task : String
deriving DecidableEq, Repr

def TaskKey.display (k : TaskKey) : String := s!"{k.space}#{toString k.index} {k.task}"

/-- What a timeline notes of a task. -/
inductive TaskMark where
  | started
  | completed
  | failed
deriving DecidableEq, Repr

structure TimelineEvent where
  key : TaskKey
  mark : TaskMark
  time : Timestamp
deriving DecidableEq, Repr

/-- The time from the start of a task to its end, if it has ended. -/
structure Span where
  key : TaskKey
  start : Timestamp
  finish : Option Timestamp := none
  failed : Bool := false
deriving DecidableEq, Repr

namespace Span

def isOpen (s : Span) : Bool := s.finish.isNone

/-- The length of a span in nanoseconds. -/
def duration? (s : Span) : Option Nat :=
  s.finish.map fun finish => (finish.nanoseconds - s.start.nanoseconds).toNat

end Span

/-- Events in the order in which they happened. -/
abbrev Timeline := List TimelineEvent

namespace Timeline

/-- Takes an event into account; the spans are given from the one started last. -/
def addEvent (spans : List Span) (e : TimelineEvent) : List Span :=
  match e.mark with
  | .started => { key := e.key, start := e.time } :: spans
  | mark =>
    let close (s : Span) := { s with finish := some e.time, failed := decide (mark = .failed) }
    (updateFirst? (fun s => s.key == e.key && s.isOpen) close spans).getD spans

/-- The spans of a timeline, in the order of their starts. -/
def spans (t : Timeline) : List Span := (t.foldl addEvent []).reverse

/-- The time spent in finished tasks of each space, in nanoseconds. -/
def spaceDurations (t : Timeline) : Table Nat :=
  t.spans.foldl (fun totals s =>
    match s.duration? with
    | some d => totals.insert s.key.space ((totals.get? s.key.space).getD 0 + d)
    | none => totals) ∅

/-- The number of columns that stand for the whole time. -/
def chartWidth : Nat := 50

/-- The number of columns of a label. -/
def labelWidth : Nat := 24

/-- A text of exactly the given number of characters: filled up with spaces, or cut with dots in
place of what is left out. -/
def fit (width : Nat) (s : String) : String :=
  let cs := s.toList
  if cs.length ≤ width then String.ofList (cs ++ List.replicate (width - cs.length) ' ')
  else String.ofList (cs.take (width - 3)) ++ "..."

def nanosecondsPerMillisecond : Nat := 1000000

/-- Whole milliseconds from one point in time to another. -/
def millisecondsBetween (a b : Timestamp) : Nat :=
  (b.nanoseconds - a.nanoseconds).toNat / nanosecondsPerMillisecond

/-- The line of a finished span, if a whole lasts the given number of milliseconds. -/
def bar? (origin : Timestamp) (total : Nat) (s : Span) : Option String :=
  s.finish.map fun finish =>
    let start := millisecondsBetween origin s.start
    let length := millisecondsBetween origin finish - start
    let before := String.ofList (List.replicate (start * chartWidth / total) ' ')
    let mark := if s.failed then 'x' else '#'
    let filled := String.ofList (List.replicate (max 1 (length * chartWidth / total)) mark)
    fit labelWidth s.key.display ++ s!" |{before}{filled}| ({toString length} ms)\n"

/-- A chart of all finished spans between two points in time. -/
def chart (t : Timeline) (origin now : Timestamp) : String :=
  let title := "\nExecution Timeline:\n\n"
  let total := millisecondsBetween origin now
  if total = 0 then title
  else title ++ String.join (t.spans.filterMap (bar? origin total)) ++
    s!"\nTotal: {toString total} ms\n"

end Timeline

end Sweep
