import Sweep.Json.Basic

/-!
# Progress events

While a run goes on, it tells whoever listens what it has done and what it needs. Listeners are
told in the order in which they subscribed. A channel is a listener that keeps a copy of every
event until it is closed; a closed one still counts as a listener.
-/

namespace Sweep

inductive ProgressEvent where
  | spaceStarted (runId space : String)
  | spaceCompleted (runId space : String)
  | setStarted (runId space : String) (index : Nat)
  | setCompleted (runId space : String) (index : Nat)
  | taskStarted (runId space : String) (index : Nat) (task : String)
  | taskCompleted (runId space : String) (index : Nat) (task : String)
  | inputRequired (runId space prompt : String)
  /-- Of a number of units, so many are done. -/
  | progress (runId : String) (done total : Nat) (message : String)
  | error (runId message : String)
deriving DecidableEq, Repr

namespace ProgressEvent

def name : ProgressEvent → String
  | .spaceStarted .. => "space_started"
  | .spaceCompleted .. => "space_completed"
  | .setStarted .. => "param_set_started"
  | .setCompleted .. => "param_set_completed"
  | .taskStarted .. => "task_started"
  | .taskCompleted .. => "task_completed"
  | .inputRequired .. => "input_required"
  | .progress .. => "progress"
  | .error .. => "error"

/-- How much of a whole is done, as a number. -/
def fraction (done total : Nat) : Json := .ofDouble (Binary64.ofRatio false done total)

/-- What an event says apart from the run, in a fixed order. -/
def details : ProgressEvent → List (String × Json)
  | .spaceStarted _ s | .spaceCompleted _ s => [("space", .text s)]
  | .setStarted _ s i | .setCompleted _ s i => [("space", .text s), ("index", .ofNat i)]
  | .taskStarted _ s i t | .taskCompleted _ s i t =>
    [("space", .text s), ("index", .ofNat i), ("task", .text t)]
  | .inputRequired _ s prompt => [("space", .text s), ("prompt", .text prompt)]
  | .progress _ done total message =>
    [("fraction", fraction done total), ("message", .text message)]
  | .error _ message => [("message", .text message)]

def runId : ProgressEvent → String
  | .spaceStarted r _ | .spaceCompleted r _ | .setStarted r _ _ | .setCompleted r _ _
  | .taskStarted r _ _ _ | .taskCompleted r _ _ _ | .inputRequired r _ _ | .progress r _ _ _
  | .error r _ => r

/-- An event as a document. -/
def encode (e : ProgressEvent) : Json :=
  .record ([("event", .text e.name), ("run_id", .text e.runId)] ++ e.details)

end ProgressEvent

/-- Someone who is told of events. -/
inductive Listener where
  | callback (label : Nat)
  | channel (isOpen : Bool) (received : List ProgressEvent)
deriving DecidableEq, Repr

/-- All listeners, in the order in which they subscribed. -/
structure Listeners where
  all : List Listener := []
deriving DecidableEq, Repr

namespace Listeners

def count (l : Listeners) : Nat := l.all.length

/-- Adds a callback, which is known by its label. -/
def subscribe (l : Listeners) (label : Nat) : Listeners := ⟨l.all ++ [.callback label]⟩

def openChannel (l : Listeners) : Listeners := ⟨l.all ++ [.channel true []]⟩

/-- Closes the first open channel of a list. -/
def closeFirst : List Listener → List Listener
  | [] => []
  | .channel true received :: rest => .channel false received :: rest
  | x :: rest => x :: closeFirst rest

/-- Closes the open channel that subscribed last. -/
def closeNewest (l : Listeners) : Listeners := ⟨(closeFirst l.all.reverse).reverse⟩

/-- A listener after it has been told of an event. -/
def tell (e : ProgressEvent) : Listener → Listener
  | .channel true received => .channel true (received ++ [e])
  | x => x

/-- Tells everyone of an event. -/
def emit (l : Listeners) (e : ProgressEvent) : Listeners := ⟨l.all.map (tell e)⟩

/-- The labels of the callbacks, in the order in which they are told. -/
def callbacks (l : Listeners) : List Nat :=
  l.all.filterMap fun
    | .callback label => some label
    | .channel .. => none

def received (l : Listeners) : List (List ProgressEvent) :=
  l.all.filterMap fun
    | .channel true events => some events
    | _ => none

end Listeners

end Sweep
