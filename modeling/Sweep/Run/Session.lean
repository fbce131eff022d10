import Sweep.Artifact.Codec
import Sweep.Run.Event
import Sweep.Run.Failure
import Sweep.Run.Timeline

/-!
# Sessions

A run is carried out in a session: on a store that holds the repository, with answers to its
prompts, and with a history of all that can be noticed from outside. The history is what a run is
judged by. It has a moment for every change of the repository, together with the store after it,
so a session that breaks off between two changes leaves the store of one of its moments; and it has
a moment for every event, together with the store as the listeners find it.

What a session does not decide itself comes from its host: how programs are started, what time it
is, and when someone asks the run to terminate. Such a request is noticed at a moment and stays in
force for the rest of the session.
-/

namespace Sweep

/-- Something that happens in a session, in a store of type `S`. -/
inductive Moment (S : Type) where
  /-- The repository was changed, and this is the store after it. -/
  | wrote (store : S)
  /-- Listeners were told of an event while the store was this. -/
  | told (event : ProgressEvent) (store : S)
  /-- A text was printed. -/
  | printed (text : String)
  /-- An answer was asked for. -/
  | asked (prompt : String)
  /-- A program was started, and has ended unless it did not start. -/
  | launched (command : Command)
  /-- The start or the end of a task was noted. -/
  | marked (event : TimelineEvent)

/-- What surrounds a session. -/
structure Host (S : Type) where
  /-- How the repository is kept in the store. -/
  backend : Backend S
  /-- Starts a program and waits for its end. -/
  launch : Command → S → Except LaunchFault Completion × S
  /-- The reading of the clock when it is read for the given time. -/
  clock : Nat → Timestamp
  /-- Whether termination is requested at the latest moment of a history, which comes first. -/
  terminates : List (Moment S) → Bool := fun _ => false

structure Session (S : Type) where
  store : S
  answers : Answers
  /-- How often the clock has been read. -/
  readings : Nat := 0
  /-- All that has happened, the latest first. -/
  history : List (Moment S) := []
  /-- Whether termination has been requested. -/
  terminating : Bool := false

/-- What is done in a session, which may stop the run. -/
abbrev Activity (S : Type) := ExceptT RunError (StateM (Session S))

structure RunOptions where
  /-- Whether commands are only shown. -/
  dryRun : Bool := false
  /-- The directory to start programs in. -/
  directory : Option String := none
  /-- Where the artifact comes from, which is noted in new runs. -/
  artifactPath : Option String := none
deriving DecidableEq, Repr

/-- Everything that stays the same while one run is carried out. -/
structure Conduct (S : Type) where
  host : Host S
  artifact : Artifact
  options : RunOptions
  runId : String

namespace Conduct

variable {S : Type} (c : Conduct S)

/-- Adds a moment to the history and notices whether termination is requested at it. -/
def note (m : Moment S) : Activity S Unit := modify fun s =>
  let history := m :: s.history
  { s with history, terminating := s.terminating || c.host.terminates history }

def readClock : Activity S Timestamp := modifyGet fun s =>
  (c.host.clock s.readings, { s with readings := s.readings + 1 })

/-- Asks the repository. -/
def query (operation : RepositoryM S α) : Activity S α := do
  let now ← c.readClock
  let s ← get
  let (result, store) := operation now s.store
  set { s with store }
  match result with
  | .ok a => return a
  | .error e => throw (.repository e)

/-- Changes the repository. -/
def record (operation : RepositoryM S Unit) : Activity S Unit := do
  c.query operation
  c.note (.wrote (← get).store)

/-- Tells the listeners of an event. -/
def emit (e : ProgressEvent) : Activity S Unit := do
  c.note (.told e (← get).store)

/-- Notes the start or the end of a task in the timeline. -/
def mark (key : TaskKey) (mark : TaskMark) : Activity S Unit := do
  c.note (.marked ⟨key, mark, ← c.readClock⟩)

/-- Starts a program and waits for its end. -/
def launch (command : Command) : Activity S (Except LaunchFault Completion) := do
  let result ← modifyGet fun s =>
    let (result, store) := c.host.launch command s.store
    (result, { s with store })
  c.note (.launched command)
  return result

def ask (prompt : String) : Activity S String := do
  let (shown, result) ← modifyGet fun s =>
    let (result, answers) := s.answers.next prompt
    ((s.answers.shown prompt, result), { s with answers })
  unless shown.isEmpty do c.note (.printed shown)
  c.note (.asked prompt)
  match result with
  | .ok answer => return answer
  | .error fault => throw (.noAnswer fault)

/-- Stops the run if termination has been requested. -/
def checkTermination : Activity S Unit := do
  if (← get).terminating then
    c.record (c.host.backend.setRunStatus c.runId .terminated none)
    throw (.terminated c.runId)

end Conduct

/-- An activity whose failure does not stop the run but is looked at. -/
def Activity.attempt {S α : Type} (a : Activity S α) : Activity S (Except RunError α) :=
  fun s =>
    let (result, s) := a s
    (.ok result, s)

namespace Session

variable {S : Type} (s : Session S)

/-- Everything that was printed. -/
def printed : String :=
  String.join (s.history.reverse.filterMap fun
    | .printed text => some text
    | _ => none)

/-- The events in the order in which they were told. -/
def events : List ProgressEvent :=
  s.history.reverse.filterMap fun
    | .told e _ => some e
    | _ => none

/-- The prompts in the order in which answers were asked for. -/
def prompts : List String :=
  s.history.reverse.filterMap fun
    | .asked prompt => some prompt
    | _ => none

/-- When tasks started and ended. -/
def timeline : Timeline :=
  s.history.reverse.filterMap fun
    | .marked e => some e
    | _ => none

end Session

end Sweep
