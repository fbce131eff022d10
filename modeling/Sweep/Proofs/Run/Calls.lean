import Sweep.Proofs.Run.Resuming
import Sweep.Proofs.Run.WholeCourse

/-!
# Calling a run until it ends

A run that was terminated is called again, each time with the store, the answers and the clock that
the call before has left, until a call is not terminated. The calls end with the results of a call
that is left alone from the beginning, and none of them does anything that this call does not do,
provided that the programs only depend on their commands and the tasks of every space are in order.
-/

namespace Sweep

variable {S : Type}

def Artifact.PutsOut (a : Artifact) (tasks : List String) (name : String) : Prop :=
  ∃ id ∈ tasks, ∃ t, a.task? id = some t ∧ name ∈ t.outputData

/-- In every space, what a task takes in and a task of the space puts out is put out by a task
before it. -/
def Artifact.Ordered (a : Artifact) : Prop :=
  ∀ space ∈ a.spaces, ∀ before id after t, space.tasksOrder = before ++ id :: after →
    a.task? id = some t → ∀ name ∈ t.inputData, a.PutsOut space.tasksOrder name →
      a.PutsOut before name

def Session.afresh (s : Session S) : Session S :=
  { store := s.store, answers := s.answers, readings := s.readings }

namespace Conduct

variable (c : Conduct S)

/-- The conduct with other requests for termination. -/
def under (terminates : List (Moment S) → Bool) : Conduct S :=
  { c with host := { c.host with terminates } }

/-- The conduct without requests for termination. -/
def undisturbed : Conduct S := c.under fun _ => false

/-- The calls of a run until one of them is not terminated: each under the next of some requests
for termination, and the last one undisturbed. Each is given with its result and its session. -/
def calls (visits : Nat) : List (List (Moment S) → Bool) → Session S →
    List (Except RunError (Option RunSummary) × Session S)
  | [], s => [c.undisturbed.run visits s.afresh]
  | requests :: more, s =>
    match (c.under requests).run visits s.afresh with
    | (.error (.terminated runId), s') =>
      (.error (.terminated runId), s') :: calls visits more s'
    | call => [call]

variable {c} {kept : S → Prop} {programs : Command → Except LaunchFault Completion}

/-- The tasks of a space of an artifact in order are in order. -/
theorem ordered_of_artifact (ordered : c.artifact.Ordered) {space : SpaceDefinition}
    (mem : space ∈ c.artifact.spaces) {tasks : List TaskDefinition}
    (known : c.tasksOf space = .ok tasks) : Ordered tasks := by
  intro before t after shape name input ⟨u, inTasks, out⟩
  have self {u : TaskDefinition} (inTasks : u ∈ tasks) : c.artifact.task? u.taskId = some u :=
    task?_of_mem_tasksOf known inTasks
  have ids := tasksOf_taskIds known
  have split : space.tasksOrder =
      before.map (·.taskId) ++ t.taskId :: after.map (·.taskId) := by
    rw [← ids, shape, List.map_append, List.map_cons]
  have produced : c.artifact.PutsOut space.tasksOrder name :=
    ⟨u.taskId, ids ▸ List.mem_map_of_mem inTasks, u, self inTasks, out⟩
  obtain ⟨id, earlier, u', found, out'⟩ := ordered space mem _ _ _ t split
    (self (shape ▸ List.mem_append_right _ List.mem_cons_self)) name input produced
  obtain ⟨v, inBefore, rfl⟩ := List.mem_map.1 earlier
  have same : v = u' := Option.some.inj
    ((self (shape ▸ List.mem_append_left _ inBefore)).symm.trans found)
  exact ⟨v, inBefore, same ▸ out'⟩

/-- The results depend on what is remembered. -/
theorem resultsOn_congr {l l' : Ledger} (same : l.memory = l'.memory) :
    c.resultsOn l = c.resultsOn l' := by
  have values : l.values = l'.values := congrArg Memory.values same
  have sets (k : String × Nat) : l.sets k = some .completed ↔ l'.sets k = some .completed := by
    have at_ := congrFun (congrArg Memory.sets same) k
    simpa [Ledger.memory] using at_
  have outputs (space : String) (index : Nat) (table : Table String) (names : List String) :
      outputsOn l space index table names = outputsOn l' space index table names := by
    rw [outputsOn, outputsOn, values]
  have collected (space : String) (names : List String) (indices : List Nat) :
      setsOn l space names ∅ indices = setsOn l' space names ∅ indices := by
    simp only [setsOn, sets, outputs]
  have spaces : c.spaceOn l = c.spaceOn l' := by
    funext space
    simp only [spaceOn, collected]
  rw [resultsOn, resultsOn, spaces]

/-! ## One call -/

/-- How a call ends when its replay comes to the end: it is terminated and what is left is left to
do, or it does all and ends as the memory decides. -/
theorem DriveCourse.cases {visits : Nat} {resumed : Bool} {v w : Standing}
    {r : Except RunError (Option RunSummary)} {log : List Deed} {m : Memory} {left : Answers}
    (repeatable : ∀ command s, kept s → (c.host.launch command s).1 = programs command)
    (steady : c.host.Steady) (ordered : c.artifact.Ordered)
    (h : c.DriveCourse kept visits resumed v r w) (clean : v.deeds = [])
    (whole : c.replay programs visits (c.firstOn resumed v.ledger) resumed v.ledger.memory
      v.answers = (log, .ok (true, m, left))) :
    (r = .error (.terminated c.runId) ∧ ¬c.host.Calm ∧ w.deeds <+: log ∧
      w.ledger.status = .terminated ∧
      ∃ space log', w.ledger.control = some space ∧ log' <:+ log ∧
        c.replay programs visits space true w.ledger.memory w.answers =
          (log', .ok (true, m, left))) ∨
    w.deeds = log ∧ ∃ l : Ledger, l.memory = m ∧
      ((∃ results tasks, c.resultsOn l = .ok results ∧
        r = .ok (some ⟨c.runId, .completed, results, tasks, resumed, true⟩)) ∨
      ∃ e, c.resultsOn l = .error e ∧ r = .error e) := by
  obtain ⟨deeds, r', l, course, grown, concludes⟩ := h
  rw [clean, List.nil_append] at grown
  obtain ⟨ledger, answers, _⟩ := w
  simp only at course grown concludes ⊢
  by_cases stopped : r' = .error (.terminated c.runId)
  · subst stopped
    obtain ⟨restless, space, visits', control, le, resumes, status⟩ :=
      course.stopped_resumes repeatable steady fun space mem tasks known =>
        ordered_of_artifact ordered mem known
    rw [Ledger.memory_setStatus, whole] at resumes
    cases concludes with
    | failed notTerminated => cases notTerminated
    | terminated =>
      have outcome : c.replay programs visits' space true l.memory answers =
          ((c.replay programs visits' space true l.memory answers).1,
            .ok (true, m, left)) := Prod.ext rfl resumes.outcome
      exact .inl ⟨rfl, restless, grown ▸ resumes.done, status, space, _, control, resumes.ahead,
        replay_mono le outcome⟩
  · have same := course.eq repeatable steady stopped
    rw [Ledger.memory_setStatus, whole] at same
    cases r' with
    | error e => cases same
    | ok reached =>
      cases same
      refine .inr ⟨grown, l.setStatus .completed, rfl, ?_⟩
      cases concludes with
      | completed tasks results => exact .inl ⟨_, tasks, results, rfl⟩
      | noResults none => exact .inr ⟨_, none, rfl⟩

/-- In any session that a call starts from, it carries out what is left of a course. -/
def Due (c : Conduct S) (kept : S → Prop) (programs : Command → Except LaunchFault Completion)
    (visits : Nat) (log : List Deed) (m : Memory) (left : Answers) (s : Session S) : Prop :=
  ∀ requests, ∃ resumed v w, v.deeds = [] ∧ v.ledger.hash = c.artifact.contentHash ∧
    (c.under requests).StandsAt kept ((c.under requests).run visits s.afresh).2 w ∧
    (c.under requests).DriveCourse kept visits resumed v
      ((c.under requests).run visits s.afresh).1 w ∧
    ∃ log', log' <:+ log ∧
      c.replay programs visits (c.firstOn resumed v.ledger) resumed v.ledger.memory v.answers =
        (log', .ok (true, m, left))

/-- A host is as reliable under other requests for termination. -/
theorem reliable_under (reliable : c.host.Reliable c.runId kept)
    (requests : List (Moment S) → Bool) :
    (c.under requests).host.Reliable (c.under requests).runId kept :=
  ⟨reliable.stores, reliable.launches⟩

/-- A replay has nothing to do with requests for termination. -/
theorem replay_under (requests : List (Moment S) → Bool) (visits : Nat) (current : String)
    (goesOn : Bool) (m : Memory) (answers : Answers) :
    (c.under requests).replay programs visits current goesOn m answers =
      c.replay programs visits current goesOn m answers := by
  have tasks (space : SpaceDefinition) (index : Nat) (set : ParameterSet)
      (ts : List TaskDefinition) : (c.under requests).replayTasks programs space index set ts =
        c.replayTasks programs space index set ts := by
    induction ts with
    | nil => rfl
    | cons t rest ih =>
      funext m
      rw [replayTasks, replayTasks, ih]
      rfl
  have sets (space : SpaceDefinition) (ts : List TaskDefinition)
      (ps : List (ParameterSet × Nat)) : (c.under requests).replaySets programs space ts ps =
        c.replaySets programs space ts ps := by
    induction ps with
    | nil => rfl
    | cons p rest ih =>
      funext m
      rw [replaySets, replaySets, ih, tasks]
  have entry (space : SpaceDefinition) (goesOn : Bool) (m : Memory) :
      (c.under requests).replayEntry programs space goesOn m =
        c.replayEntry programs space goesOn m := by
    simp only [replayEntry, replayVisit, sets]
    rfl
  induction visits generalizing current goesOn m answers with
  | zero => rw [replay, replay]
  | succ visits ih =>
    simp only [replay, entry, ih]
    rfl

theorem due_of_fresh (reliable : c.host.Reliable c.runId kept) {visits : Nat} {log : List Deed}
    {m : Memory} {left : Answers} {s : Session S} (kept_ : kept s.store)
    (unknown : c.host.backend.load c.runId s.store = .ok none)
    (whole : c.replay programs visits c.artifact.control.start false
      (Ledger.blank c.artifact.contentHash).memory s.answers = (log, .ok (true, m, left))) :
    c.Due kept programs visits log m left s := by
  intro requests
  obtain ⟨w, stands, course⟩ := run_follows (c := c.under requests)
    (reliable_under reliable requests) visits (s := s.afresh) ⟨kept_, unknown, fun _ => rfl⟩
  exact ⟨false, _, w, rfl, rfl, stands, course, log, List.suffix_rfl, whole⟩

/-- A new session on what a session has left stands at the same ledger and answers. -/
theorem stands_afresh {requests requests' : List (Moment S) → Bool} {s : Session S}
    {w : Standing} (h : (c.under requests).StandsAt kept s w) :
    (c.under requests').StandsAt kept s.afresh ⟨w.ledger, w.answers, []⟩ := by
  obtain ⟨snapshot, keeps, rfl⟩ := h
  exact ⟨snapshot, ⟨keeps.kept, keeps.loads, keeps.named, keeps.ahead, fun _ => rfl⟩, rfl⟩

theorem due_of_terminated (reliable : c.host.Reliable c.runId kept) {visits : Nat}
    {log log' : List Deed} {m : Memory} {left : Answers} {s : Session S}
    {requests : List (Moment S) → Bool} {w : Standing} {space : String}
    (stands : (c.under requests).StandsAt kept s w) (status : w.ledger.status = .terminated)
    (own : w.ledger.hash = c.artifact.contentHash) (control : w.ledger.control = some space)
    (suffix_ : log' <:+ log)
    (rest : c.replay programs visits space true w.ledger.memory w.answers =
      (log', .ok (true, m, left))) :
    c.Due kept programs visits log m left s := by
  intro requests'
  let v : Standing := ⟨w.ledger, w.answers, []⟩
  have goesOn := run_continues (c := c.under requests') (reliable_under reliable requests') visits
    (v := v) own (by rw [status]; simp)
  obtain ⟨w', stands', course⟩ := goesOn s.afresh (stands_afresh stands)
  refine ⟨true, v, w', rfl, own, stands', course, log', suffix_, ?_⟩
  have first : c.firstOn true v.ledger = space := by
    simp only [firstOn, v, control, if_true]
  rw [first]
  exact rest

/-! ## All calls -/

/-- What there is to do is done by calls however they are terminated: the last one ends as the
memory decides, and no call does anything else. -/
theorem calls_of_due (reliable : c.host.Reliable c.runId kept)
    (repeatable : ∀ command s, kept s → (c.host.launch command s).1 = programs command)
    (steady : c.host.Steady) (ordered : c.artifact.Ordered) {visits : Nat} {log : List Deed}
    {m : Memory} {left : Answers} {results : Results}
    (found : ∀ l : Ledger, l.memory = m → c.resultsOn l = .ok results)
    (requests : List (List (Moment S) → Bool)) {s : Session S}
    (due : c.Due kept programs visits log m left s) :
    (∃ earlier last, c.calls visits requests s = earlier ++ [last] ∧
      (∀ call ∈ earlier, call.1 = .error (.terminated c.runId)) ∧
      ∃ summary, last.1 = .ok (some summary) ∧ summary.results = results) ∧
    ∀ call ∈ c.calls visits requests s, call.2.deeds <:+: log := by
  -- What one call does, whether it is terminated or not.
  have one (requests : List (Moment S) → Bool) {s : Session S}
      (due : c.Due kept programs visits log m left s) :
      ((c.under requests).run visits s.afresh).2.deeds <:+: log ∧
      ((((c.under requests).run visits s.afresh).1 = .error (.terminated c.runId) ∧
        ¬(c.under requests).host.Calm ∧
        c.Due kept programs visits log m left ((c.under requests).run visits s.afresh).2) ∨
      ∃ summary, ((c.under requests).run visits s.afresh).1 = .ok (some summary) ∧
        summary.results = results) := by
    obtain ⟨resumed, v, w, clean, own, stands, course, log', suffix_, whole⟩ := due requests
    have deeds : ((c.under requests).run visits s.afresh).2.deeds = w.deeds := by
      obtain ⟨snapshot, -, rfl⟩ := stands
      rfl
    rcases course.cases (c := c.under requests) repeatable steady ordered clean
      ((replay_under requests _ _ _ _ _).trans whole) with
      ⟨stopped, restless, some_, status, space, log'', control, suffix', rest⟩ |
      ⟨all, l, same, ended⟩
    · rw [replay_under] at rest
      refine ⟨?_, .inl ⟨stopped, restless, ?_⟩⟩
      · rw [deeds]
        exact some_.isInfix.trans suffix_.isInfix
      · exact due_of_terminated reliable stands status (course.hash_eq.trans own) control
          (suffix'.trans suffix_) rest
    · refine ⟨by rw [deeds, all]; exact suffix_.isInfix, .inr ?_⟩
      rcases ended with ⟨results', tasks, known, result⟩ | ⟨e, unknown, -⟩
      · have same_ : results' = results := Except.ok.inj (known.symm.trans (found l same))
        exact ⟨_, result, same_⟩
      · cases unknown.symm.trans (found l same)
  induction requests generalizing s with
  | nil =>
    obtain ⟨infix_, ⟨-, restless, -⟩ | ended⟩ := one (fun _ => false) due
    · exact absurd (fun _ => rfl) restless
    · refine ⟨⟨[], _, rfl, fun _ mem => (nomatch mem), ended⟩, ?_⟩
      intro call mem
      rw [List.mem_singleton.1 mem]
      exact infix_
  | cons first more ih =>
    obtain ⟨infix_, turn⟩ := one first due
    rw [calls]
    rcases called : (c.under first).run visits s.afresh with ⟨r, s'⟩
    rw [called] at infix_ turn
    rcases turn with ⟨stopped, -, due'⟩ | ⟨summary, ended, same⟩
    · simp only at stopped due'
      subst stopped
      obtain ⟨⟨earlier, last, shape, stopped, ended⟩, within⟩ := ih due'
      refine ⟨⟨_ :: earlier, last, by simp only [shape]; rfl, ?_, ended⟩, ?_⟩
      · intro call mem
        rcases List.mem_cons.1 mem with rfl | mem
        · rfl
        · exact stopped call mem
      · intro call mem
        rcases List.mem_cons.1 mem with rfl | mem
        · exact infix_
        · exact within call mem
    · simp only at ended
      subst ended
      refine ⟨⟨[], _, rfl, fun _ mem => (nomatch mem), summary, rfl, same⟩, ?_⟩
      intro call mem
      rw [List.mem_singleton.1 mem]
      exact infix_

/-- If a call that is left alone comes to the end of a run of which there was no record, then calls
that are terminated in any way come to the same results in the end, and none of them does anything
that the undisturbed call does not do in the same order. -/
theorem calls_results (reliable : c.host.Reliable c.runId kept)
    (repeatable : ∀ command s, kept s → (c.host.launch command s).1 = programs command)
    (steady : c.host.Steady) (ordered : c.artifact.Ordered) {visits : Nat} {s : Session S}
    (fresh : c.Fresh kept s.afresh) {summary : RunSummary}
    (completes : (c.undisturbed.run visits s.afresh).1 = .ok (some summary))
    (requests : List (List (Moment S) → Bool)) :
    (∃ earlier last, c.calls visits requests s = earlier ++ [last] ∧
      (∀ call ∈ earlier, call.1 = .error (.terminated c.runId)) ∧
      ∃ summary', last.1 = .ok (some summary') ∧ summary'.results = summary.results) ∧
    ∀ call ∈ c.calls visits requests s,
      call.2.deeds <:+: (c.undisturbed.run visits s.afresh).2.deeds := by
  obtain ⟨w, ⟨snapshot, -, stands⟩, deeds, r, l, course, grown, concludes⟩ :=
    run_follows (c := c.undisturbed) (reliable_under reliable _) visits (s := s.afresh)
      ⟨fresh.kept, fresh.unknown, fun _ => rfl⟩
  rw [completes] at concludes
  have own : (c.undisturbed.run visits s.afresh).2.deeds = deeds := by
    have same : w.deeds = (c.undisturbed.run visits s.afresh).2.deeds := by rw [stands]
    rw [← same, grown]
    exact List.nil_append deeds
  obtain ⟨ledger, answers, _⟩ := w
  simp only at course concludes
  cases concludes with
  | completed tasks results =>
    have whole := course.eq (c := c.undisturbed) repeatable steady (by simp)
    rw [undisturbed, replay_under, Ledger.memory_setStatus] at whole
    rw [own]
    exact calls_of_due reliable repeatable steady ordered
      (fun l' same => (resultsOn_congr same).trans results) requests
      (due_of_fresh reliable fresh.kept fresh.unknown whole)

/-! ## Two tasks in order, and a task that is not -/

theorem calls_terminated {visits : Nat} {requests : List (Moment S) → Bool}
    {more : List (List (Moment S) → Bool)} {s s' : Session S} {runId : String}
    (stopped : (c.under requests).run visits s.afresh = (.error (.terminated runId), s')) :
    c.calls visits (requests :: more) s =
      (.error (.terminated runId), s') :: c.calls visits more s' := by
  rw [calls, stopped]

def resultsOf? : Except RunError (Option RunSummary) → Option Results
  | .ok (some summary) => some summary.results
  | _ => none

/-- A run of some tasks in one set of one space, whose programs append their names to their last
argument. -/
def appending (tasks : List TaskDefinition) : Conduct (Table RunSnapshot) where
  host := .inMemory (fun command =>
    let input := (command.arguments.getLastD "").toList.filter (· != '"')
    .ok ⟨.exited 0, (String.ofList input ++ command.program).toUTF8, .empty⟩) fun _ => false
  artifact :=
    { experiment := "e"
      version := artifactVersion
      tasks := [tasks]
      spaces := [{
        spaceId := "s"
        tasksOrder := tasks.map (·.taskId)
        parameters := [∅]
        inputData := Table.ofList [("x", "v")] }]
      control := ⟨"s", [⟨"s", endMark, none⟩]⟩ }
  options := {}
  runId := "r"

/-- Two tasks of which the second takes in what the first puts out. -/
def handedOn : List TaskDefinition :=
  [{ taskId := "W:a", workflow := "W", implementation := "a", inputData := ["x"]
     outputData := ["y"] },
   { taskId := "W:b", workflow := "W", implementation := "b", inputData := ["y"]
     outputData := ["z"] }]

theorem calls_results_handedOn :
    let c := appending handedOn
    c.artifact.Ordered ∧ c.Fresh (fun _ => True) onEmptyTable.afresh ∧ ∃ summary,
      (c.undisturbed.run 2 onEmptyTable.afresh).1 = .ok (some summary) ∧
      summary.results = Table.ofList [("s", Table.ofList [("z_param0", "vab")])] ∧
      ∃ earlier last, c.calls 2 [fun _ => true] onEmptyTable = earlier ++ [last] ∧
        (∀ call ∈ earlier, call.1 = .error (.terminated "r")) ∧
        ∃ summary', last.1 = .ok (some summary') ∧ summary'.results = summary.results := by
  intro c
  have ordered : c.artifact.Ordered := by
    intro space mem before id after t shape found name input produced
    obtain rfl := List.mem_singleton.1 mem
    rcases before with _ | ⟨first, _ | ⟨second, rest⟩⟩
    · cases shape
      cases found
      obtain rfl := List.mem_singleton.1 input
      obtain ⟨id, mem, u, known, out⟩ := produced
      rcases List.mem_pair.1 mem with rfl | rfl <;> cases known <;> simp at out
    · cases shape
      cases found
      exact ⟨_, List.mem_cons_self, _, rfl, input⟩
    · simp [handedOn] at shape
  have fresh : c.Fresh (fun _ => True) onEmptyTable.afresh := inMemory_fresh rfl _
  have ended : resultsOf? (c.undisturbed.run 2 onEmptyTable.afresh).1 =
      some (Table.ofList [("s", Table.ofList [("z_param0", "vab")])]) := by
    decide +kernel
  cases completes : (c.undisturbed.run 2 onEmptyTable.afresh).1 with
  | error e => simp [completes, resultsOf?] at ended
  | ok reached =>
    cases reached with
    | none => simp [completes, resultsOf?] at ended
    | some summary =>
      rw [completes] at ended
      exact ⟨ordered, fresh, summary, rfl, Option.some.inj ended,
        (calls_results (Host.inMemory_reliable _ _ _) (fun _ _ _ => rfl)
          (Host.inMemory_steady _ _) ordered fresh completes [fun _ => true]).1⟩

/-- A task that puts out what it takes in. -/
def inPlace : TaskDefinition :=
  { taskId := "W:a", workflow := "W", implementation := "a", inputData := ["x"]
    outputData := ["x"] }

/-- A task that is not in order finds its own output when its set is carried out again, and the
results differ. -/
theorem calls_inPlace :
    let c := appending [inPlace]
    c.artifact.validate = .ok () ∧
      resultsOf? (c.undisturbed.run 2 onEmptyTable.afresh).1 =
        some (Table.ofList [("s", Table.ofList [("x_param0", "va")])]) ∧
      ∃ first last, c.calls 2 [fun _ => true] onEmptyTable = [first, last] ∧
        first.1 = .error (.terminated "r") ∧
        resultsOf? last.1 = some (Table.ofList [("s", Table.ofList [("x_param0", "vaa")])]) := by
  intro c
  -- What is computed of the first call and, without its hash, of the second.
  have stopped : errorOf? ((c.under fun _ => true).run 2 onEmptyTable.afresh).1 =
      some (.terminated "r") := by
    decide +kernel
  have known : (((c.under fun _ => true).run 2 onEmptyTable.afresh).2.store.get? "r").map
      (·.run.status) = some .terminated := by
    decide +kernel
  have again : ∀ readings,
      readings = ((c.under fun _ => true).run 2 onEmptyTable.afresh).2.readings + 1 →
      resultsOf? (c.undisturbed.drive 2 true
        { ((c.under fun _ => true).run 2 onEmptyTable.afresh).2.afresh with readings }).1 =
        some (Table.ofList [("s", Table.ofList [("x_param0", "vaa")])]) := by
    rintro _ rfl
    decide +kernel
  obtain ⟨w, ⟨snapshot, keeps, stands⟩, course⟩ :=
    run_follows (c := c.under fun _ => true) (s := onEmptyTable.afresh)
      (Host.inMemory_reliable _ _ _) 2 (inMemory_fresh rfl (.scripted []))
  generalize called : (c.under fun _ => true).run 2 onEmptyTable.afresh = first at *
  obtain ⟨r, s⟩ := first
  obtain rfl := errorOf?_eq_some.1 stopped
  have status : snapshot.run.status = .terminated := by
    rw [show s.store.get? "r" = some snapshot from Except.ok.inj keeps.loads] at known
    exact Option.some.inj known
  have own : snapshot.run.artifactHash = c.artifact.contentHash := by
    have same := course.hash_eq
    rw [stands] at same
    exact same
  have goesOn := run_eq_drive (c := c.undisturbed) 2 (s := s.afresh) keeps.loads own
    (by simp [status])
  refine ⟨rfl, by decide +kernel, _, _, (calls_terminated called).trans rfl, rfl, ?_⟩
  rw [goesOn]
  exact again _ rfl

end Conduct

end Sweep
