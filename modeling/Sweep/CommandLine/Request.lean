/-!
# Requests

A command line consists of words. Some of them are options, which start with a dash and may take
values; the first of the others says what is asked for, and which further options there are. The
words are taken one after the other, and what they have said so far is a `Usage`. From this follows
what the command line asks the program to do.
-/

namespace Sweep.CommandLine

/-! ## Words -/

/-- What an option takes. -/
inductive Arity where
  | nothing
  | value
  /-- One value at a time, as often as one likes. -/
  | values
  /-- All the words that follow up to the next option, as often as one likes. -/
  | list
deriving DecidableEq, Repr

/-- An option, which goes by its name after two dashes, or by its letter after one. -/
structure Switch where
  name : String
  arity : Arity
  letter : Option Char := none
deriving DecidableEq, Repr

/-- The options that can always be given. -/
def commonSwitches : List Switch :=
  [⟨"verbose", .nothing, some 'v'⟩, ⟨"config", .value, some 'c'⟩, ⟨"runs-dir", .value, none⟩]

def runSwitches : List Switch :=
  [⟨"dry-run", .nothing, none⟩, ⟨"working-dir", .value, none⟩, ⟨"pause-flag", .value, none⟩,
   ⟨"answer", .values, none⟩]

/-- What can be asked for, and the options that belong to it. -/
def requests : List (String × List Switch) :=
  [("compile", [⟨"workflows", .list, some 'w'⟩, ⟨"output", .value, some 'o'⟩]),
   ("validate", [⟨"workflows", .list, some 'w'⟩]),
   ("run", runSwitches),
   ("resume", runSwitches),
   ("status", []),
   ("results", [⟨"run-id", .value, none⟩])]

/-- What is wrong with the words of a command line. -/
inductive UsageError where
  | unknownOption (word : String)
  | missingValue (option : String)
  | unexpectedValue (option : String)
  | repeatedOption (option : String)
  | missingOption (option : String)
  | unknownRequest (word : String)
  | missingRequest
  | missingWord (meaning : String)
  | unexpectedWord (word : String)
deriving DecidableEq, Repr

def UsageError.message : UsageError → String
  | .unknownOption word => s!"unexpected argument '{word}' found"
  | .missingValue option => s!"a value is required for '--{option}' but none was supplied"
  | .unexpectedValue option => s!"unexpected value for '--{option}' found; no more were expected"
  | .repeatedOption option => s!"the argument '--{option}' cannot be used multiple times"
  | .missingOption option => s!"the argument '--{option}' is required"
  | .unknownRequest word => s!"unrecognized subcommand '{word}'"
  | .missingRequest =>
    "a subcommand is required, one of " ++ ", ".intercalate (requests.map (·.1))
  | .missingWord meaning => s!"the argument '<{meaning}>' is required"
  | .unexpectedWord word => s!"unexpected argument '{word}' found"

/-- What the words taken so far say. -/
structure Usage where
  request : Option String := none
  /-- The options that were given before the request, with their values. -/
  early : List (String × String) := []
  /-- The options that were given after the request, or so far if there is none yet. -/
  given : List (String × String) := []
  /-- The other words after the request. -/
  words : List String := []
  /-- The option that the next word is a value of, and whether it can do without. -/
  awaiting : Option (Switch × Bool) := none
  /-- Whether no more options are given. -/
  literal : Bool := false
deriving DecidableEq, Repr

namespace Usage

/-- The options that can be given next. -/
def switches (u : Usage) : List Switch :=
  match u.request with
  | some name => ((requests.lookup name).getD []) ++ commonSwitches
  | none => commonSwitches

/-- Whether a word is an option; a dash alone is not. -/
def isOption (word : String) : Bool :=
  match word.toList with
  | '-' :: _ :: _ => true
  | _ => false

def give (u : Usage) (s : Switch) (value : String) : Usage :=
  { u with given := u.given ++ [(s.name, value)] }

/-- Takes a word that is neither an option nor a value of one. -/
def takeWord (u : Usage) (word : String) : Except UsageError Usage :=
  match u.request with
  | some _ => .ok { u with words := u.words ++ [word] }
  | none =>
    if (requests.lookup word).isSome then
      .ok { u with request := some word, early := u.given, given := [] }
    else .error (.unknownRequest word)

def takeSwitch (u : Usage) (s : Switch) (attached : Option (List Char)) :
    Except UsageError Usage :=
  match s.arity, attached with
  | .nothing, none => .ok (u.give s "")
  | .nothing, some _ => .error (.unexpectedValue s.name)
  | _, some value => .ok (u.give s (String.ofList value))
  | _, none => .ok { u with awaiting := some (s, false) }

/-- Takes the letters after a dash: options without values, or one with the rest as its value. -/
def takeLetters (u : Usage) : List Char → Except UsageError Usage
  | [] => .ok u
  | letter :: rest =>
    match u.switches.find? fun s => s.letter == some letter with
    | none => .error (.unknownOption (String.ofList ['-', letter]))
    | some s =>
      if s.arity = .nothing then takeLetters (u.give s "") rest
      else
        match rest with
        | [] => u.takeSwitch s none
        | '=' :: value => u.takeSwitch s (some value)
        | value => u.takeSwitch s (some value)

/-- Takes what follows two dashes: a name, and perhaps a value after an equals sign. -/
def takeName (u : Usage) (word : List Char) : Except UsageError Usage :=
  let name := String.ofList (word.takeWhile fun c => c != '=')
  match u.switches.find? fun s => s.name == name with
  | none => .error (.unknownOption ("--" ++ name))
  | some s =>
    match word.dropWhile fun c => c != '=' with
    | _ :: value => u.takeSwitch s (some value)
    | [] => u.takeSwitch s none

/-- Takes a word that is not a value of an option before it. -/
def takeFree (u : Usage) (word : String) : Except UsageError Usage :=
  match word.toList with
  | ['-', '-'] => .ok { u with literal := true }
  | '-' :: '-' :: rest => u.takeName rest
  | '-' :: letter :: rest => u.takeLetters (letter :: rest)
  | _ => u.takeWord word

/-- Takes a word. -/
def take (u : Usage) (word : String) : Except UsageError Usage :=
  if u.literal then u.takeWord word
  else
    match u.awaiting with
    | none => u.takeFree word
    | some (s, satisfied) =>
      if !isOption word then
        let more := if s.arity = .list then some (s, true) else none
        .ok { u.give s word with awaiting := more }
      else if satisfied then { u with awaiting := none }.takeFree word
      else .error (.missingValue s.name)

/-- Takes the words of a whole command line. -/
def ofWords (words : List String) : Except UsageError Usage := do
  let u ← words.foldlM take {}
  match u.awaiting with
  | some (s, false) => .error (.missingValue s.name)
  | _ => return u

/-- The values of an option that may be given several times. -/
def values (u : Usage) (name : String) : List String :=
  (u.given.filter fun entry => entry.1 == name).map (·.2)

/-- The value of an option that may be given once before the request and once after it; the later
one counts. -/
def value? (u : Usage) (name : String) : Except UsageError (Option String) :=
  match u.values name, (u.early.filter fun entry => entry.1 == name).map (·.2) with
  | _ :: _ :: _, _ | _, _ :: _ :: _ => .error (.repeatedOption name)
  | [value], _ | [], [value] => .ok (some value)
  | [], [] => .ok none

end Usage

/-! ## What is asked for -/

/-- How an artifact is to be run. -/
structure RunChoices where
  /-- Whether commands are only shown. -/
  dryRun : Bool := false
  /-- The directory to carry tasks out in. -/
  workingDirectory : Option String := none
  /-- A file that holds the run back while it exists. -/
  pauseFlag : Option String := none
  /-- The answers to prompts; without any, they are read from the input. -/
  answers : List String := []
deriving DecidableEq, Repr

/-- What is asked for. -/
inductive Request where
  | compile (experiment : String) (workflows : List String) (output : Option String)
  | validate (experiment : String) (workflows : List String)
  | run (artifact : String) (choices : RunChoices)
  | resume (runId artifact : String) (choices : RunChoices)
  | status (runId : Option String)
  | results (artifact : String) (runId : Option String)
deriving DecidableEq, Repr

/-- A request, and where settings and runs are found. -/
structure Invocation where
  request : Request
  /-- The settings file. -/
  config : Option String := none
  /-- The directory of the runs, if not the one of the settings. -/
  runsDirectory : Option String := none
deriving DecidableEq, Repr

/-- The file that holds back what is asked for. -/
def Request.pauseFlag? : Request → Option String
  | .run _ choices | .resume _ _ choices => choices.pauseFlag
  | _ => none

namespace Usage

/-- The only word after the request. -/
def onlyWord (u : Usage) (meaning : String) : Except UsageError String :=
  match u.words with
  | [] => .error (.missingWord meaning)
  | [word] => .ok word
  | _ :: extra :: _ => .error (.unexpectedWord extra)

/-- The only word after the request, if there is one. -/
def optionalWord (u : Usage) : Except UsageError (Option String) :=
  match u.words with
  | [] => .ok none
  | [word] => .ok (some word)
  | _ :: extra :: _ => .error (.unexpectedWord extra)

/-- The two words after the request. -/
def twoWords (u : Usage) (first second : String) : Except UsageError (String × String) :=
  match u.words with
  | [] => .error (.missingWord first)
  | [_] => .error (.missingWord second)
  | [a, b] => .ok (a, b)
  | _ :: _ :: extra :: _ => .error (.unexpectedWord extra)

/-- The files and directories of workflows, of which there is at least one. -/
def workflows (u : Usage) : Except UsageError (List String) :=
  match u.values "workflows" with
  | [] => .error (.missingOption "workflows")
  | paths => .ok paths

def runChoices (u : Usage) : Except UsageError RunChoices := do
  let dryRun := (← u.value? "dry-run").isSome
  let workingDirectory ← u.value? "working-dir"
  let pauseFlag ← u.value? "pause-flag"
  return { dryRun, workingDirectory, pauseFlag, answers := u.values "answer" }

def toRequest (u : Usage) : Except UsageError Request := do
  match u.request with
  | some "compile" =>
    return .compile (← u.onlyWord "EXPERIMENT") (← u.workflows) (← u.value? "output")
  | some "validate" => return .validate (← u.onlyWord "EXPERIMENT") (← u.workflows)
  | some "run" => return .run (← u.onlyWord "ARTIFACT") (← u.runChoices)
  | some "resume" =>
    let (runId, artifact) ← u.twoWords "RUN_ID" "ARTIFACT"
    return .resume runId artifact (← u.runChoices)
  | some "status" => return .status (← u.optionalWord)
  | some "results" => return .results (← u.onlyWord "ARTIFACT") (← u.value? "run-id")
  | some word => .error (.unknownRequest word)
  | none => .error .missingRequest

end Usage

/-- What the words of a command line ask for. Nothing more is reported of a request if `verbose` is
given. -/
def Invocation.ofWords (words : List String) : Except UsageError Invocation := do
  let u ← Usage.ofWords words
  let _ ← u.value? "verbose"
  let config ← u.value? "config"
  let runsDirectory ← u.value? "runs-dir"
  return { request := ← u.toRequest, config, runsDirectory }

end Sweep.CommandLine
