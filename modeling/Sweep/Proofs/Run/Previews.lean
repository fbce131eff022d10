import Sweep.Proofs.Run.Collecting
import Sweep.Proofs.Run.Journey
import Sweep.Proofs.Run.Provenance

/-!
# Previews among the calls of a run

A call with dry run on is recorded like any other: its parameter sets are completed, with the mark
of a preview for each output, and later calls do not carry them out again. So a value that a call
tells comes from the call that was the last to work in its set, and it is the mark if that one was a
preview. Previews of a run that was completed before change nothing.
-/

namespace Sweep

variable {S : Type}

/-- How a run is called: the calls of a run share the repository and its clock only. -/
structure Call (S : Type) where
  options : RunOptions
  visits : Nat
  answers : Answers
  launch : Command → S → Except LaunchFault Completion × S
  terminates : List (Moment S) → Bool

/-- A call that was made, with its result and the session that it has left. -/
structure Turn (S : Type) where
  call : Call S
  result : Except RunError (Option RunSummary)
  session : Session S

def Call.session (call : Call S) (s : Session S) : Session S :=
  { s.afresh with answers := call.answers }

namespace Conduct

variable (c : Conduct S) (kept : S → Prop)

def of (call : Call S) : Conduct S :=
  { c with
    options := call.options
    host := { c.host with launch := call.launch, terminates := call.terminates } }

def turn (call : Call S) (s : Session S) : Turn S :=
  let made := (c.of call).run call.visits (call.session s)
  ⟨call, made.1, made.2⟩

/-- Makes calls one after the other, each on what the one before has left. -/
def turns : List (Call S) → Session S → List (Turn S)
  | [], _ => []
  | call :: rest, s => c.turn call s :: turns rest (c.turn call s).session

/-- A value of a set comes from one of some turns: the last one that has started tasks of it. -/
def ComesFrom (turns : List (Turn S)) (space : SpaceDefinition) (index : Nat)
    (name value : String) : Prop :=
  ∃ earlier turn later, turns = earlier ++ turn :: later ∧
    (c.of turn.call).Source kept space index turn.session.deeds name value ∧
    ∀ other ∈ later, ∀ task, (⟨space.spaceId, index, task⟩, .started) ∉ other.session.marks

/-- What is recorded after some turns: in a completed set of a space, all that its tasks put out
comes from one of the turns, and no set has other values. -/
structure Attributed (done : List (Turn S)) (l : Ledger) : Prop where
  named {space : SpaceDefinition} : c.artifact.space? space.spaceId = some space →
    ∀ index name, (l.values (space.spaceId, index, name)).isSome →
      c.artifact.PutsOut space.tasksOrder name
  completed {space : SpaceDefinition} : c.artifact.space? space.spaceId = some space →
    ∀ index, l.sets (space.spaceId, index) = some .completed →
      ∀ name, c.artifact.PutsOut space.tasksOrder name → ∃ value,
        l.values (space.spaceId, index, name) = some value ∧
          c.ComesFrom kept done space index name value

/-- What some turns leave for the next one: a record of the run at which it can begin. -/
structure Ready (done : List (Turn S)) (s : Session S) (l : Ledger) : Prop where
  stands : ∀ call : Call S, (c.of call).StandsAt kept (call.session s) ⟨l, call.answers, []⟩
  own : l.hash = c.artifact.contentHash
  attributed : c.Attributed kept done l

/-- A turn leaves a record for the next one, and if it tells results, the run is completed and they
are what is recorded. -/
def Turned (done : List (Turn S)) (turn : Turn S) : Prop :=
  ∃ l, c.Ready kept (done ++ [turn]) turn.session l ∧
    ∀ summary, turn.result = .ok (some summary) →
      l.status = .completed ∧ c.resultsOn l = .ok summary.results

variable {c kept} {call : Call S} {calls : List (Call S)} {s : Session S} {done : List (Turn S)}
  {l : Ledger} {x : RunSnapshot}

/-! ## One turn -/

theorem ComesFrom.step {space : SpaceDefinition} {index : Nat} {name value : String}
    (h : c.ComesFrom kept done space index name value) {turn : Turn S}
    (unstarted : ∀ task, (⟨space.spaceId, index, task⟩, .started) ∉ turn.session.marks) :
    c.ComesFrom kept (done ++ [turn]) space index name value := by
  obtain ⟨earlier, source, later, rfl, comes, others⟩ := h
  refine ⟨earlier, source, later ++ [turn], by simp, comes, ?_⟩
  intro other mem
  obtain before | last := List.mem_append.1 mem
  · exact others other before
  · obtain rfl := List.mem_singleton.1 last
    exact unstarted

/-- A call attributes the values of the sets that it works in to itself. -/
theorem Attributed.step (h : c.Attributed kept done l) {turn : Turn S} {l' : Ledger}
    (sources : ∀ space, c.artifact.space? space.spaceId = some space →
      (c.of turn.call).Sources kept space turn.session.deeds l l') :
    c.Attributed kept (done ++ [turn]) l' where
  named {space} found index name known := by
    obtain before | out := (sources space found).named index name known
    · exact h.named found index name before
    · exact out
  completed {space} found index completed name out := by
    obtain untouched | given := (sources space found).completed index completed
    · obtain ⟨value, known, comes⟩ := h.completed found index (untouched.sets completed) name out
      refine ⟨value, (untouched.values name).trans known, ?_⟩
      apply comes.step
      intro task started
      rw [Session.marks_eq] at started
      obtain ⟨deed, mem, marks⟩ := List.mem_filterMap.1 started
      cases deed with
      | launched => cases marks
      | marked key mark =>
        cases marks
        exact untouched.unstarted task mem
    · obtain ⟨value, known, source⟩ := given name out
      exact ⟨value, known, done, turn, [], rfl, source, by simp⟩

theorem attributed_blank (hash : String) : c.Attributed kept [] (.blank hash) where
  named _ _ _ known := by cases known
  completed _ _ completed := by cases completed

/-- A session that a call has left is one to begin the next call on. -/
theorem stands_next {w : Standing} (h : (c.of call).StandsAt kept s w) (next : Call S) :
    (c.of next).StandsAt kept (next.session s) ⟨w.ledger, next.answers, []⟩ := by
  obtain ⟨x, keeps, rfl⟩ := h
  exact ⟨x, ⟨keeps.kept, keeps.loads, keeps.named, keeps.ahead, fun _ => rfl⟩, rfl⟩

/-- A call that carries the run out leaves its values for the next one. -/
theorem DriveCourse.turned {visits : Nat} {resumed : Bool} {v w : Standing} (turn : Turn S)
    (attributed : c.Attributed kept done v.ledger) (own : v.ledger.hash = c.artifact.contentHash)
    (clean : v.deeds = []) (stands : (c.of turn.call).StandsAt kept turn.session w)
    (h : (c.of turn.call).DriveCourse kept visits resumed v turn.result w) :
    c.Turned kept done turn := by
  have same : w.deeds = turn.session.deeds := by
    obtain ⟨x, -, rfl⟩ := stands
    rfl
  have sources (space : SpaceDefinition) (found : c.artifact.space? space.spaceId = some space) :
      (c.of turn.call).Sources kept space turn.session.deeds v.ledger w.ledger := by
    obtain ⟨deeds, grown, sources⟩ := DriveCourse.sources (c := c.of turn.call) found h
    rw [clean, List.nil_append, same] at grown
    rwa [grown]
  refine ⟨w.ledger, ⟨stands_next stands, h.hash_eq.trans own, attributed.step sources⟩, ?_⟩
  intro summary told
  obtain ⟨deeds, r, l, -, -, concludes⟩ := h
  rw [told] at concludes
  generalize w.ledger = l' at concludes ⊢
  cases concludes with
  | completed tasks results => exact ⟨rfl, results⟩

/-- What a call tells that finds a record of the run which is completed. -/
def told (c : Conduct S) (x : RunSnapshot) : Except RunError (Option RunSummary) :=
  (c.resultsOn x.ledger).map fun results =>
    some ⟨c.runId, x.run.status, results, x.taskCounts none, true, false⟩

theorem resultsOn_of_told {summary : RunSummary} (h : c.told x = .ok (some summary)) :
    c.resultsOn x.ledger = .ok summary.results := by
  rw [told] at h
  cases found : c.resultsOn x.ledger with
  | error e =>
    rw [found] at h
    cases h
  | ok results =>
    rw [found] at h
    cases h
    rfl

structure FindsCompleted (c : Conduct S) (kept : S → Prop) (s : Session S) (x : RunSnapshot) :
    Prop where
  finds : c.Finds kept s (some x)
  own : x.run.artifactHash = c.artifact.contentHash
  completed : x.run.status = .completed

theorem FindsCompleted.run_eq (h : c.FindsCompleted kept s x) (visits : Nat) :
    ∃ n, c.run visits s = (c.told x, { s with readings := s.readings + n }) := by
  have recorded : c.run visits s =
      c.continueRun visits x.run { s with readings := s.readings + 1 } :=
    call_recorded .run visits h.finds
  obtain ⟨n, tells⟩ := reads_summary (c := c) (x := x) true false
    { s with readings := s.readings + 1 } h.finds.loads
  refine ⟨1 + n, ?_⟩
  rw [recorded, continueRun, if_neg (not_not_intro h.own), if_pos h.completed, bind_eval, tells,
    told, ← Nat.add_assoc]
  cases c.resultsOn x.ledger <;> rfl

/-- A call that finds the run completed tells what it finds, and only reads the clock. -/
theorem FindsCompleted.turn (h : c.FindsCompleted kept s x) (call : Call S) :
    (c.turn call s).result = c.told x ∧ ∃ n, (c.turn call s).session =
      { call.session s with readings := s.readings + n } := by
  have here : (c.of call).FindsCompleted kept (call.session s) x :=
    ⟨⟨h.finds.kept, h.finds.loads, h.finds.named⟩, h.own, h.completed⟩
  obtain ⟨n, made⟩ := here.run_eq call.visits
  exact ⟨congrArg Prod.fst made, n, congrArg Prod.snd made⟩

theorem FindsCompleted.next (h : c.FindsCompleted kept s x) (call : Call S) :
    c.FindsCompleted kept (c.turn call s).session x := by
  obtain ⟨-, n, session⟩ := h.turn call
  rw [session]
  exact ⟨⟨h.finds.kept, h.finds.loads, h.finds.named⟩, h.own, h.completed⟩

theorem Ready.findsCompleted (ready : c.Ready kept done s l) (completed : l.status = .completed)
    (call : Call S) : ∃ x, x.ledger = l ∧ c.FindsCompleted kept s x := by
  obtain ⟨x, keeps, same⟩ := ready.stands call
  cases same
  refine ⟨x, rfl, ⟨keeps.kept, keeps.loads, ?_⟩, ready.own, completed⟩
  rintro _ ⟨⟩
  exact keeps.named

/-- A call on the record of a run that is not completed carries the run out. -/
theorem Ready.turn_eq_drive (ready : c.Ready kept done s l) (call : Call S)
    (loads : c.host.backend.load c.runId s.store = .ok (some x))
    (open_ : x.run.status ≠ .completed) :
    (c.turn call s).result = ((c.of call).drive call.visits true
      { call.session s with readings := s.readings + 1 }).1 := by
  obtain ⟨y, keeps, same⟩ := ready.stands call
  obtain rfl : x = y := Option.some.inj (Except.ok.inj (loads.symm.trans keeps.loads))
  have own : x.run.artifactHash = c.artifact.contentHash :=
    (congrArg (·.ledger.hash) same).symm.trans ready.own
  exact congrArg Prod.fst (run_eq_drive (c := c.of call) call.visits keeps.loads own open_)

/-- What a turn leaves that finds a record. -/
theorem Ready.turn (reliable : (c.of call).host.Reliable c.runId kept)
    (ready : c.Ready kept done s l) : c.Turned kept done (c.turn call s) := by
  by_cases completed : l.status = .completed
  · obtain ⟨x, rfl, found⟩ := ready.findsCompleted completed call
    obtain ⟨tells, n, session⟩ := found.turn call
    obtain ⟨y, keeps, same⟩ := ready.stands call
    have stands : (c.of call).StandsAt kept (c.turn call s).session
        ⟨x.ledger, call.answers, []⟩ := by
      rw [session]
      exact ⟨y, keeps.later n, same⟩
    refine ⟨x.ledger, ⟨stands_next stands, ready.own, ?_⟩, ?_⟩
    · apply ready.attributed.step
      intro space here
      rw [session]
      exact .of_untouched fun _ => .of_same rfl rfl
    · intro summary told
      exact ⟨completed, resultsOn_of_told (tells.symm.trans told)⟩
  · obtain ⟨w, stands, course⟩ := run_continues (c := c.of call) reliable call.visits
      (v := ⟨l, call.answers, []⟩) ready.own completed _ (ready.stands call)
    exact course.turned (c.turn call s) ready.attributed ready.own rfl stands

/-- The first turn finds no record, and leaves one. -/
theorem turned_first (reliable : (c.of call).host.Reliable c.runId kept) (here : kept s.store)
    (unknown : c.host.backend.load c.runId s.store = .ok none) :
    c.Turned kept [] (c.turn call s) := by
  obtain ⟨w, stands, course⟩ := run_follows (c := c.of call) reliable call.visits
    (s := call.session s) ⟨here, unknown, fun _ => rfl⟩
  exact course.turned (c.turn call s) (attributed_blank _) rfl rfl stands

/-! ## All turns -/

/-- What the first of some turns can begin on: nothing is recorded yet, or the turns before have
left a record. -/
def Opens (c : Conduct S) (kept : S → Prop) (done : List (Turn S)) (s : Session S) : Prop :=
  done = [] ∧ kept s.store ∧ c.host.backend.load c.runId s.store = .ok none ∨
    ∃ l, c.Ready kept done s l

theorem Opens.turn (reliable : (c.of call).host.Reliable c.runId kept)
    (opens : c.Opens kept done s) : c.Turned kept done (c.turn call s) := by
  obtain ⟨rfl, here, unknown⟩ | ⟨l, ready⟩ := opens
  · exact turned_first reliable here unknown
  · exact ready.turn reliable

theorem Turned.opens {turn : Turn S} (h : c.Turned kept done turn) :
    c.Opens kept (done ++ [turn]) turn.session := by
  obtain ⟨l, ready, -⟩ := h
  exact .inr ⟨l, ready⟩

/-- Every turn leaves a record, with the turns before it. -/
theorem Opens.turned (reliable : ∀ call ∈ calls, (c.of call).host.Reliable c.runId kept)
    (opens : c.Opens kept done s) {earlier later : List (Turn S)} {turn : Turn S}
    (here : c.turns calls s = earlier ++ turn :: later) : c.Turned kept (done ++ earlier) turn := by
  induction calls generalizing done s earlier with
  | nil => exact absurd here (by simp [turns])
  | cons call rest ih =>
    have first := opens.turn (reliable call List.mem_cons_self)
    cases earlier with
    | nil =>
      cases here
      rwa [List.append_nil]
    | cons made earlier =>
      rw [turns, List.cons_append] at here
      obtain ⟨rfl, rest_⟩ := List.cons.inj here
      have others := ih (fun call mem => reliable call (List.mem_cons_of_mem _ mem)) first.opens
        rest_
      rwa [List.append_assoc] at others

/-! ## What is told -/

/-- What results hold is recorded for a completed set of a space. -/
theorem recorded_of_resultsOn {results : Results} (known : c.resultsOn l = .ok results)
    {id key value : String} {values : Table String} (entry : results.get? id = some values)
    (found : values.get? key = some value) :
    ∃ space index name, c.artifact.space? id = some space ∧ key = resultKey name index ∧
      l.sets (id, index) = some .completed ∧ l.values (id, index, name) = some value := by
  obtain ⟨space, mem, rfl, here⟩ := exists_space_of_resultsOn known entry
  -- There may be several spaces of this name, and the first one is the one that is visited.
  obtain ⟨first, known⟩ : ∃ first, c.artifact.space? space.spaceId = some first :=
    Option.isSome_iff_exists.1 (List.find?_isSome.2 ⟨space, mem, beq_self_eq_true _⟩)
  obtain ⟨⟨name, index⟩, asked, same, recorded⟩ := (spaceOn_gathers here key value).1 found
  refine ⟨first, index, name, known, same, ?_, recorded⟩
  obtain ⟨i, inSet, among⟩ := List.mem_flatMap.1 asked
  obtain ⟨_, -, pair⟩ := List.mem_map.1 among
  cases pair
  exact of_decide_eq_true (List.mem_filter.1 inSet).2

/-- Results that are read off a record come from the turns before. -/
theorem Attributed.tells (h : c.Attributed kept done l) {results : Results}
    (known : c.resultsOn l = .ok results) {id key value : String} {values : Table String}
    (entry : results.get? id = some values) (found : values.get? key = some value) :
    ∃ space index name, c.artifact.space? id = some space ∧ key = resultKey name index ∧
      c.ComesFrom kept done space index name value := by
  obtain ⟨space, index, name, here, same, completed, recorded⟩ :=
    recorded_of_resultsOn known entry found
  obtain rfl := Artifact.space?_spaceId here
  have out : c.artifact.PutsOut space.tasksOrder name :=
    h.named here index name (recorded ▸ rfl)
  obtain ⟨value', recorded', comes⟩ := h.completed here index completed name out
  obtain rfl := Option.some.inj (recorded.symm.trans recorded')
  exact ⟨space, index, name, here, same, comes⟩

/-! ## Turns without previews -/

def withoutPreviews (turns : List (Turn S)) : List (Turn S) :=
  turns.filter fun turn => !turn.call.options.dryRun

theorem withoutPreviews_of_preview (dry : call.options.dryRun = true) (rest : List (Turn S)) :
    withoutPreviews (c.turn call s :: rest) = withoutPreviews rest :=
  List.filter_cons_of_neg (by simp [turn, dry])

theorem withoutPreviews_of_real (real : call.options.dryRun = false) (rest : List (Turn S)) :
    withoutPreviews (c.turn call s :: rest) = c.turn call s :: withoutPreviews rest :=
  List.filter_cons_of_pos (by simp [turn, real])

/-- Once the run is completed, all calls tell the same. -/
theorem FindsCompleted.results (h : c.FindsCompleted kept s x) (calls : List (Call S)) :
    (c.turns calls s).map (·.result) = calls.map fun _ => c.told x := by
  induction calls generalizing s with
  | nil => rfl
  | cons call rest ih =>
    rw [turns, List.map_cons, List.map_cons, (h.turn call).1, ih (h.next call)]

theorem FindsCompleted.withoutPreviews (h : c.FindsCompleted kept s x) (calls : List (Call S)) :
    (withoutPreviews (c.turns calls s)).map (·.result) =
      (calls.filter fun call => !call.options.dryRun).map fun _ => c.told x := by
  induction calls generalizing s with
  | nil => rfl
  | cons call rest ih =>
    have others := ih (h.next call)
    cases dry : call.options.dryRun with
    | true =>
      rw [turns, withoutPreviews_of_preview dry, List.filter_cons_of_neg (by simp [dry])]
      exact others
    | false =>
      rw [turns, withoutPreviews_of_real dry, List.filter_cons_of_pos (by simp [dry]),
        List.map_cons, List.map_cons, (h.turn call).1, others]

/-- Previews can be left out that come after a turn that has told results. -/
theorem Opens.withoutPreviews (reliable : ∀ call ∈ calls, (c.of call).host.Reliable c.runId kept)
    (opens : c.Opens kept done s)
    (late : ∀ earlier turn later, c.turns calls s = earlier ++ turn :: later →
      turn.call.options.dryRun = true →
      ∃ before ∈ earlier, ∃ summary, before.result = .ok (some summary)) :
    (withoutPreviews (c.turns calls s)).map (·.result) =
      (c.turns (calls.filter fun call => !call.options.dryRun) s).map (·.result) := by
  induction calls generalizing done s with
  | nil => rfl
  | cons call rest ih =>
    have first := opens.turn (reliable call List.mem_cons_self)
    have others : (Conduct.withoutPreviews (c.turns rest (c.turn call s).session)).map (·.result) =
        (c.turns (rest.filter fun call => !call.options.dryRun) (c.turn call s).session).map
          (·.result) := by
      by_cases told : ∃ summary, (c.turn call s).result = .ok (some summary)
      · obtain ⟨l, ready, tells⟩ := first
        obtain ⟨summary, told⟩ := told
        obtain ⟨x, -, found⟩ := ready.findsCompleted (tells summary told).1 call
        rw [found.withoutPreviews, found.results]
      · apply ih (fun call mem => reliable call (List.mem_cons_of_mem _ mem)) first.opens
        intro earlier turn later here dry
        obtain ⟨before, mem, tells⟩ := late (c.turn call s :: earlier) turn later
          (congrArg _ here) dry
        obtain rfl | mem := List.mem_cons.1 mem
        · exact absurd tells told
        · exact ⟨before, mem, tells⟩
    -- No turn comes before the first one, so it is no preview.
    have real : call.options.dryRun = false := by
      by_contra dry
      obtain ⟨before, none, -⟩ := late [] _ _ rfl (Bool.not_eq_false _ ▸ dry)
      cases none
    rw [turns, withoutPreviews_of_real real, List.filter_cons_of_pos (by simp [real]), turns,
      List.map_cons, List.map_cons, others]

/-- However a run is called over time, some of the calls with dry run on: each value that a call
tells comes from the last call that has worked in its set, and it is the mark of a preview only if
that one was a preview or its program has told the mark. The calls with dry run off tell the same as
without the others, if none of these comes before results were told for the first time. -/
theorem results_comeFrom (reliable : ∀ call ∈ calls, (c.of call).host.Reliable c.runId kept)
    (here : kept s.store) (unknown : c.host.backend.load c.runId s.store = .ok none) :
    (∀ earlier turn later, c.turns calls s = earlier ++ turn :: later →
      ∀ summary, turn.result = .ok (some summary) → ∀ id values key value,
        summary.results.get? id = some values → values.get? key = some value →
        ∃ space index name, c.artifact.space? id = some space ∧ key = resultKey name index ∧
          c.ComesFrom kept (earlier ++ [turn]) space index name value) ∧
    ((∀ earlier turn later, c.turns calls s = earlier ++ turn :: later →
        turn.call.options.dryRun = true →
        ∃ before ∈ earlier, ∃ summary, before.result = .ok (some summary)) →
      (withoutPreviews (c.turns calls s)).map (·.result) =
        (c.turns (calls.filter fun call => !call.options.dryRun) s).map (·.result)) := by
  have opens : c.Opens kept [] s := .inl ⟨rfl, here, unknown⟩
  constructor
  · intro earlier turn later made summary told id values key value entry found
    obtain ⟨l, ready, tells⟩ := opens.turned reliable made
    exact ready.attributed.tells (tells summary told).2 entry found
  · exact opens.withoutPreviews reliable

def inTwoSets : Conduct (Table RunSnapshot) where
  host := .inMemory (fun _ => .ok ⟨.exited 0, "v".toUTF8, .empty⟩) fun _ => false
  artifact :=
    { experiment := "e"
      version := artifactVersion
      tasks :=
        [[{ taskId := "W:t", workflow := "W", implementation := "./t.sh", outputData := ["y"] }]]
      spaces := [{ spaceId := "s", tasksOrder := ["W:t"], parameters := [∅, ∅] }]
      control := ⟨"s", [⟨"s", endMark, none⟩]⟩ }
  options := {}
  runId := "r"

/-- A call of it, with the number of moments after which it is to be terminated. -/
def request (dryRun : Bool) (moments : Nat) : Call (Table RunSnapshot) where
  options := { dryRun }
  visits := 2
  answers := .scripted []
  launch := inTwoSets.host.launch
  terminates history := decide (moments ≤ history.length)

theorem request_reliable (dryRun : Bool) (moments : Nat) :
    (inTwoSets.of (request dryRun moments)).host.Reliable "r" fun _ => True :=
  Host.inMemory_reliable _ _ _

/-- The results when the sets have these values. -/
def twoResults (first second : String) : Results :=
  Table.ofList [("s", Table.ofList [("y_param0", first), ("y_param1", second)])]

theorem exists_summary {r : Except RunError (Option RunSummary)} {results : Results}
    (told : resultsOf? r = some results) :
    ∃ summary, r = .ok (some summary) ∧ summary.results = results := by
  rcases r with e | _ | summary
  · cases told
  · cases told
  · exact ⟨summary, rfl, Option.some.inj told⟩

/-- What is computed of a preview that is terminated after the first set, and, without its hash, of
a call that completes the run. -/
theorem computed_previewed :
    let first := inTwoSets.turn (request true 18) onEmptyTable
    ((first.session.store.get? "r").map fun x => decide (x.run.status = .completed)) = some false ∧
    resultsOf? ((inTwoSets.of (request false 1000)).drive 2 true
      { (request false 1000).session first.session with
        readings := first.session.readings + 1 }).1 = some (twoResults previewValue "v") := by
  decide +kernel

/-- A call that goes on after a preview. -/
theorem result_previewed : resultsOf? (inTwoSets.turn (request false 1000)
    (inTwoSets.turn (request true 18) onEmptyTable).session).result =
      some (twoResults previewValue "v") := by
  obtain ⟨known, again⟩ := computed_previewed
  obtain ⟨x, found, open_⟩ := Option.map_eq_some_iff.1 known
  have turned : inTwoSets.Turned (fun _ => True) []
      (inTwoSets.turn (request true 18) onEmptyTable) :=
    turned_first (request_reliable true 18) trivial rfl
  obtain ⟨l, ready, -⟩ := turned
  have goesOn := ready.turn_eq_drive (request false 1000) (congrArg Except.ok found)
    (of_decide_eq_false open_)
  rw [goesOn]
  exact again

/-- The same call if it is left alone. -/
theorem result_alone : resultsOf? (inTwoSets.turn (request false 1000) onEmptyTable).result =
    some (twoResults "v" "v") := by
  decide +kernel

theorem results_comeFrom_inTwoSets :
    (∃ first last summary,
      inTwoSets.turns [request true 18, request false 1000] onEmptyTable = [first, last] ∧
      last.result = .ok (some summary) ∧ summary.results = twoResults previewValue "v" ∧
      ∃ space index name, inTwoSets.artifact.space? "s" = some space ∧
        "y_param0" = resultKey name index ∧
        inTwoSets.ComesFrom (fun _ => True) [first, last] space index name previewValue) ∧
    let calls := [request false 1000, request true 18, request false 1000]
    (withoutPreviews (inTwoSets.turns calls onEmptyTable)).map (·.result) =
      (inTwoSets.turns [request false 1000, request false 1000] onEmptyTable).map (·.result) := by
  have reliable {calls : List (Call (Table RunSnapshot))}
      (known : ∀ call ∈ calls, ∃ dryRun moments, call = request dryRun moments) :
      ∀ call ∈ calls, (inTwoSets.of call).host.Reliable "r" fun _ => True := by
    intro call mem
    obtain ⟨dryRun, moments, rfl⟩ := known call mem
    exact request_reliable dryRun moments
  constructor
  · obtain ⟨summary, ended, same⟩ := exists_summary result_previewed
    obtain ⟨comes, -⟩ := @results_comeFrom _ inTwoSets (fun _ => True)
      [request true 18, request false 1000] onEmptyTable (reliable (by simp)) trivial rfl
    refine ⟨_, _, summary, rfl, ended, same, ?_⟩
    refine comes [_] _ [] rfl summary ended "s"
      (Table.ofList [("y_param0", previewValue), ("y_param1", "v")]) "y_param0" previewValue ?_ ?_
    · rw [same]
      rfl
    · rfl
  · intro calls
    obtain ⟨summary, ended, -⟩ := exists_summary result_alone
    obtain ⟨-, without⟩ := @results_comeFrom _ inTwoSets (fun _ => True) calls onEmptyTable
      (reliable (by simp [calls])) trivial rfl
    apply without
    intro earlier turn later here dry
    cases earlier with
    | nil =>
      cases here
      cases dry
    | cons before earlier =>
      obtain ⟨rfl, -⟩ := List.cons.inj here
      exact ⟨_, List.mem_cons_self, summary, ended⟩

/-- A preview that was terminated after one set is seen in the results of a call with dry run off,
which has other results if it is left alone. -/
theorem results_previewed : ∃ first last alone,
    inTwoSets.turns [request true 18, request false 1000] onEmptyTable = [first, last] ∧
    resultsOf? last.result = some (twoResults previewValue "v") ∧
    inTwoSets.turns [request false 1000] onEmptyTable = [alone] ∧
    resultsOf? alone.result = some (twoResults "v" "v") ∧
    twoResults previewValue "v" ≠ twoResults "v" "v" := by
  have differ : twoResults previewValue "v" ≠ twoResults "v" "v" := by decide +kernel
  exact ⟨_, _, _, rfl, result_previewed, rfl, result_alone, differ⟩

end Conduct

end Sweep
