import Sweep.Files.Tree
import Sweep.Shell.Source

/-!
# The state of a shell

Variables, arguments, options, files, and the descriptors through which commands read and write.
Several descriptors may lead to one stream, and a stream remembers how far it has been read or
written, also for the commands that come later. Text for another command is collected in a stream
of its own.
-/

namespace Sweep.Shell

/-- What a descriptor leads to. -/
inductive Stream where
  | null
  /-- Text that is kept, the last byte first. -/
  | collected (reversed : Octets)
  /-- Text to read. -/
  | supplied (rest : Octets)
  /-- A file, given by its absolute path, from a place on. -/
  | file (path : String) (offset : Nat) (appends : Bool)
deriving DecidableEq, Inhabited

/-- Why the commands after a command are passed over. -/
inductive Leave where
  | exit
  /-- A signal has ended a shell, which is given by its number. -/
  | killed (process signal : Nat)
  | returned
  | broken (levels : Nat)
  | continued (levels : Nat)
  /-- A command has failed in a way that ends the script, unless a part of the shell that is less
  strict is at work. -/
  | failed
deriving DecidableEq, Repr

/-- A variable. One that has been declared only has no value. -/
structure Variable where
  value : Option Octets := none
  isExported : Bool := false
  isReadonly : Bool := false
  /-- The values of a list by their positions or keys, in increasing order of the positions. -/
  elements : Option (List (Octets × Octets)) := none
  isKeyed : Bool := false
deriving DecidableEq, Inhabited

structure Options where
  exitOnFailure : Bool := false
  failOnUnset : Bool := false
  tracesCommands : Bool := false
  withoutPaths : Bool := false
  keepsFiles : Bool := false
  exportsAll : Bool := false
  showsInput : Bool := false
  onlyReads : Bool := false
  /-- Whether every command of a pipe counts. -/
  pipesFail : Bool := false
deriving DecidableEq, Repr

structure State where
  files : FileTree
  dialect : Dialect := .sh
  /-- The name of the script, which precedes its messages. -/
  name : Octets
  arguments : List Octets := []
  bindings : Table Variable := ∅
  functions : List (Octets × Script) := []
  /-- The variables that functions have made their own, as they were before. -/
  frames : List (List (String × Option Variable)) := []
  status : Nat := 0
  /-- The status of the script whose output was used last. -/
  substituted : Nat := 0
  /-- The statuses of the commands of the last pipe. -/
  pipeStatuses : List Nat := [0]
  /-- The line of the command that is carried out. -/
  line : Nat := 1
  /-- The part of the shell that is at work, for its messages. -/
  atWork : Option Octets := none
  streams : Array Stream := #[.supplied [], .collected [], .collected []]
  descriptors : List (Nat × Nat) := [(0, 0), (1, 1), (2, 2)]
  options : Options := {}
  /-- What is carried out when the script ends or a signal arrives. -/
  traps : List (String × Octets) := []
  /-- How many loops are open in the function that is carried out. -/
  loops : Nat := 0
  /-- How many functions and scripts of other files are open. -/
  calls : Nat := 0
  /-- The texts that redirections name by numbers. -/
  texts : List (Nat × List Piece) := []
  nextText : Nat := 0
  /-- The status of the last command that was sent to the background. -/
  job : Option Nat := none
  /-- How many commands have been sent to the background. -/
  jobCount : Nat := 0
  /-- The numbers by which this shell and the ones that wait for it know themselves. -/
  process : Nat := 4242
  ancestors : List Nat := [4241]
  /-- The number that was given away last. -/
  lastProcess : Nat := 4242

abbrev ShellM := ExceptT Leave (StateM State)

/-! ## Variables -/

namespace State

/-- The text of a variable. -/
def value? (s : State) (name : String) : Option Octets :=
  (s.bindings.get? name).bind fun v =>
    match v.elements with
    | some elements => (elements.find? fun e => e.1 == ['0']).map (·.2)
    | none => v.value

def value (s : State) (name : String) : Octets := (s.value? name).getD []

/-- The bytes between which fields are cut. -/
def separators (s : State) : Octets := (s.value? "IFS").getD " \t\n".toList

/-- The byte that joins arguments, if there is one. -/
def joint (s : State) : Octets := s.separators.take 1

def optionLetters (s : State) : Octets :=
  let o := s.options
  (if o.exitOnFailure then ['e'] else []) ++ (if o.withoutPaths then ['f'] else []) ++
  (if o.onlyReads then ['n'] else []) ++ (if o.tracesCommands then ['x'] else []) ++
  (if o.showsInput then ['v'] else []) ++ (if o.keepsFiles then ['C'] else []) ++
  (if o.exportsAll then ['a'] else []) ++ (if o.failOnUnset then ['u'] else [])

def parameter? (s : State) (name : String) : Option Octets :=
  match name with
  | "?" => some (Octets.ofNat s.status)
  | "#" => some (Octets.ofNat s.arguments.length)
  | "$" => some (Octets.ofNat s.process)
  | "0" => some s.name
  | "@" | "*" => if s.arguments.isEmpty then none else some (s.joint.intercalate s.arguments)
  | "-" => some s.optionLetters
  | "!" => if s.jobCount = 0 then none else some (Octets.ofNat (s.process + 100 + s.jobCount))
  | "LINENO" => if s.dialect = .bash then some (Octets.ofNat s.line) else s.value? name
  | "BASH_VERSION" => if s.dialect = .bash then some "5.2.15(1)-release".toList else s.value? name
  | _ =>
    if name.toList.all Char.isDigit then s.arguments[Octets.digitsValue name.toList - 1]?
    else s.value? name

/-- The values of a list, in order. -/
def elements (s : State) (name : String) : List (Octets × Octets) :=
  match name with
  | "PIPESTATUS" => s.pipeStatuses.zipIdx.map fun (n, i) => (Octets.ofNat i, Octets.ofNat n)
  | _ =>
    match s.bindings.get? name with
    | some v =>
      match v.elements with
      | some elements => elements
      | none => (v.value.map fun value => (['0'], value)).toList
    | none => []

/-- The variables that programs get to know, as texts with their names. -/
def environment (s : State) : List (String × Octets) :=
  s.bindings.entries.filterMap fun (name, v) =>
    if v.isExported then v.value.map fun value => (name, value) else none

end State

/-! ## Streams -/

/-- The stream of a descriptor. -/
def State.streamOf? (s : State) (descriptor : Nat) : Option Nat :=
  (s.descriptors.find? fun d => d.1 == descriptor).map (·.2)

/-- Bytes put over others from a place on. -/
def overwrite (content : ByteArray) (offset : Nat) (bytes : ByteArray) : ByteArray :=
  let gap : ByteArray := ⟨(List.replicate (offset - content.size) 0).toArray⟩
  content.extract 0 offset ++ gap ++ bytes ++
    content.extract (offset + bytes.size) content.size

/-- Writes to a descriptor; false if it leads nowhere. What is written to a file that has been
removed is lost. -/
def writeTo (descriptor : Nat) (o : Octets) : ShellM Bool := do
  let s ← get
  match s.streamOf? descriptor with
  | none => return false
  | some n =>
    match s.streams[n]? with
    | some (.collected reversed) =>
      let text := o.reverse ++ reversed
      set { s with streams := s.streams.setIfInBounds n (.collected text) }
      return true
    | some (.file path offset appends) =>
      match s.files.find path with
      | .ok (.file content isExecutable) =>
        let start := if appends then content.size else offset
        let bytes := Octets.toBytes o
        let node : FileNode := .file (overwrite content start bytes) isExecutable
        set { s with
          files := { s.files with nodes := s.files.nodes.insert path node }
          streams := s.streams.setIfInBounds n (.file path (start + bytes.size) appends) }
      | _ => set s
      return true
    | some .null => return true
    | _ => return false

/-- Writes to the output. -/
def print (o : Octets) : ShellM Unit := do
  let _ ← writeTo 1 o

/-- Writes a message. -/
def tell (o : Octets) : ShellM Unit := do
  let _ ← writeTo 2 o

/-- What can be read from a descriptor. -/
def State.readable? (s : State) (descriptor : Nat) : Option Octets :=
  match (s.streamOf? descriptor).bind fun n => s.streams[n]? with
  | some (.supplied rest) => some rest
  | some (.file path offset _) =>
    match s.files.find path with
    | .ok (.file content _) => some (Octets.ofBytes (content.extract offset content.size))
    | _ => some []
  | some .null => some []
  | _ => none

/-- Moves on by a number of bytes that have been read from a descriptor. -/
def State.skipInput (s : State) (descriptor count : Nat) : State :=
  match s.streamOf? descriptor with
  | none => s
  | some n =>
    match s.streams[n]? with
    | some (.supplied rest) =>
      { s with streams := s.streams.setIfInBounds n (.supplied (rest.drop count)) }
    | some (.file path offset appends) =>
      { s with streams := s.streams.setIfInBounds n (.file path (offset + count) appends) }
    | _ => s

/-- Lets a descriptor lead to a stream. -/
def State.connect (s : State) (descriptor stream : Nat) : State :=
  { s with descriptors := (descriptor, stream) :: s.descriptors.filter fun d => d.1 != descriptor }

def State.disconnect (s : State) (descriptor : Nat) : State :=
  { s with descriptors := s.descriptors.filter fun d => d.1 != descriptor }

/-- Lets a descriptor lead to a new stream. -/
def connectTo (descriptor : Nat) (stream : Stream) : ShellM Unit := modify fun s =>
  { s with streams := s.streams.push stream }.connect descriptor s.streams.size

/-! ## Messages and endings -/

/-- What precedes a message. -/
def State.place (s : State) : Octets :=
  let line := match s.dialect with
    | .sh => s!": {toString s.line}: "
    | .bash => s!": line {toString s.line}: "
  let part := match s.atWork with
    | some part => part ++ [':', ' ']
    | none => []
  s.name ++ Octets.ofString line ++ part

/-- Writes a message of the shell. -/
def complain (message : Octets) : ShellM Unit := do
  tell ((← get).place ++ message ++ ['\n'])

def setStatus (status : Nat) : ShellM Unit := modify fun s => { s with status }

def fail {α : Type} (message : Octets) : ShellM α := do
  complain message
  setStatus (if (← get).dialect = .sh then 2 else 1)
  throw .failed

/-- Ends the script with a message. -/
def die {α : Type} (message : Octets) : ShellM α := do
  complain message
  setStatus (if (← get).dialect = .sh then 2 else 1)
  throw (if (← get).dialect = .sh then .failed else .exit)

/-! ## Assignments -/

/-- Puts a value into a list, at its place. -/
def insertElement (isKeyed : Bool) (key value : Octets) :
    List (Octets × Octets) → List (Octets × Octets)
  | [] => [(key, value)]
  | (k, v) :: rest =>
    if k == key then (key, value) :: rest
    else if !isKeyed && Octets.digitsValue key < Octets.digitsValue k then
      (key, value) :: (k, v) :: rest
    else (k, v) :: insertElement isKeyed key value rest

/-- Changes a variable, unless it may not be changed. -/
def changeVariable (name : String) (change : Variable → Variable) : ShellM Unit := do
  let s ← get
  let v := (s.bindings.get? name).getD {}
  if v.isReadonly then
    match s.dialect with
    | .sh => fail (Octets.ofString s!"{name}: is read only")
    | .bash => fail (Octets.ofString s!"{name}: readonly variable")
  let changed := change v
  let changed := { changed with isExported := changed.isExported || s.options.exportsAll }
  set { s with bindings := s.bindings.insert name changed }

/-- Sets a variable. -/
def assign (name : String) (value : Octets) : ShellM Unit :=
  changeVariable name fun v =>
    match v.elements with
    | some elements => { v with elements := some (insertElement v.isKeyed ['0'] value elements) }
    | none => { v with value := some value }

/-- Sets a value of a list. -/
def assignElement (name : String) (key value : Octets) : ShellM Unit :=
  changeVariable name fun v =>
    let elements := match v.elements with
      | some elements => elements
      | none => (v.value.map fun value => (['0'], value)).toList
    { v with value := none, elements := some (insertElement v.isKeyed key value elements) }

def unsetVariable (name : String) : ShellM Unit := do
  let s ← get
  if ((s.bindings.get? name).any fun v => v.isReadonly) then
    match s.dialect with
    | .sh => fail (Octets.ofString s!"{name}: is read only")
    | .bash => fail (Octets.ofString s!"{name}: cannot unset: readonly variable")
  set { s with bindings := s.bindings.erase name }

/-! ## Scripts within scripts -/

/-- Performs something in a shell of its own: only files, streams and the status outlive it. -/
def isolated (body : ShellM Unit) : ShellM Unit := fun s =>
  let (result, t) := body s
  let restored := { s with
    files := { t.files with current := s.files.current }
    streams := t.streams, status := t.status % 256, texts := t.texts, nextText := t.nextText
    lastProcess := t.lastProcess }
  match result with
  | .error (.killed process signal) => (.error (.killed process signal), restored)
  | _ => (.ok (), restored)

/-- What a body prints. -/
def captured (body : ShellM Unit) : ShellM Octets := do
  let before ← get
  let n := before.streams.size
  connectTo 1 (.collected [])
  body
  modify fun s => { s with descriptors := before.descriptors }
  match (← get).streams[n]? with
  | some (.collected reversed) => return reversed.reverse
  | _ => return []

end Sweep.Shell
