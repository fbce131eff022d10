import Sweep.Proofs.Repository.Frame
import Sweep.Proofs.Run.NestedLoops
import Sweep.Proofs.Run.Strokes
import Sweep.Proofs.Run.WholeCourse

/-!
# Engines on one table of runs

Engines with all kinds of artifacts are called one after the other, for all kinds of runs, and share
one table of records. A call only changes the record of its own run, by the steps that it makes
(`CallStep`); seen in the table, such a step keeps the hash of every run, and is only made on a
record with the hash of the artifact of the engine. So what happens over any number of calls is a
trail of such steps, whichever engine makes them.
-/

namespace Sweep

variable {S : Type}

namespace Table

variable {α : Type} {t t' : Table α} {key other : String}

def assign (t : Table α) (key : String) (value : Option α) : Table α :=
  value.elim (t.erase key) (t.insert key)

theorem get?_assign_self (value : Option α) : (t.assign key value).get? key = value := by
  cases value with
  | none => exact get?_erase_self
  | some v => exact get?_insert_self

theorem get?_assign_of_ne (value : Option α) (apart : key ≠ other) :
    (t.assign key value).get? other = t.get? other := by
  cases value with
  | none => exact get?_erase_of_ne apart
  | some v => exact get?_insert_of_ne apart

/-- A table that differs in one key at most is the table with that key assigned. -/
theorem eq_assign (same : ∀ other, other ≠ key → t'.get? other = t.get? other) :
    t' = t.assign key (t'.get? key) := by
  refine ext_get? fun other => ?_
  by_cases own : other = key
  · rw [own, get?_assign_self]
  · rw [get?_assign_of_ne _ (Ne.symm own), same other own]

end Table

/-! ## A table in the store -/

/-- The host keeps the records of runs in a table that is part of the store, and that its programs
do not reach. -/
structure Host.HoldsTable (h : Host S) (runs : S → Table RunSnapshot) : Prop where
  loads : ∀ runId s, h.backend.load runId s = .ok ((runs s).get? runId)
  stores : ∀ (x : RunSnapshot) s, ∃ s', h.backend.store x s = (.ok (), s') ∧
    runs s' = (runs s).insert x.run.runId x
  launches : ∀ command s, runs (h.launch command s).2 = runs s

namespace Host

theorem inMemory_holdsTable (programs : Command → Except LaunchFault Completion)
    (terminates : List (Moment (Table RunSnapshot)) → Bool) :
    (inMemory programs terminates).HoldsTable id where
  loads _ _ := rfl
  stores x runs := ⟨runs.insert x.run.runId x, rfl, rfl⟩
  launches _ _ := rfl

/-- In a store the records of all runs but one are those of a table. -/
def AgreesBut (runs : S → Table RunSnapshot) (runId : String) (t : Table RunSnapshot) (s : S) :
    Prop :=
  ∀ other, other ≠ runId → (runs s).get? other = t.get? other

/-- A host that holds a table keeps the record of every run, and leaves those of the others. -/
theorem HoldsTable.reliable {h : Host S} {runs : S → Table RunSnapshot} (holds : h.HoldsTable runs)
    (runId : String) (t : Table RunSnapshot) : h.Reliable runId (AgreesBut runs runId t) where
  stores x {s} agrees named := by
    obtain ⟨s', stored, after⟩ := holds.stores x s
    subst named
    refine ⟨s', stored, ?_, ?_⟩
    · intro other apart
      rw [after, Table.get?_insert_of_ne (Ne.symm apart)]
      exact agrees other apart
    · rw [holds.loads, after, Table.get?_insert_self]
  launches command {s} agrees := by
    constructor
    · intro other apart
      rw [holds.launches]
      exact agrees other apart
    · rw [holds.loads, holds.loads, holds.launches]

end Host

/-! ## Calls of engines -/

/-- A call of an engine, and what it meets apart from the store. -/
structure EngineCall (S : Type) where
  conduct : Conduct S
  request : Request
  visits : Nat
  answers : Answers
  readings : Nat := 0
  terminating : Bool := false

namespace EngineCall

variable (call : EngineCall S)

def outcome (store : S) : Except RunError (Option RunSummary) × Session S :=
  call.conduct.call call.request call.visits { call with store, history := [] }

/-- What happens in the call, in order. -/
def moments (store : S) : List (Moment S) := (call.outcome store).2.history.reverse

def storeAfter (store : S) (calls : List (EngineCall S)) : S :=
  calls.foldl (fun store call => (call.outcome store).2.store) store

/-- What happens in some calls, in order, and in which of them. -/
def happenings : S → List (EngineCall S) → List (EngineCall S × Moment S)
  | _, [] => []
  | store, call :: rest =>
    (call.moments store).map (call, ·) ++ happenings (call.outcome store).2.store rest

/-- The table of runs that something leaves which happens. -/
def tableStep (runs : S → Table RunSnapshot) (t : Table RunSnapshot) :
    EngineCall S × Moment S → Table RunSnapshot
  | (_, .wrote store) => runs store
  | _ => t

def tableAfter (runs : S → Table RunSnapshot) (t : Table RunSnapshot)
    (all : List (EngineCall S × Moment S)) : Table RunSnapshot :=
  all.foldl (tableStep runs) t

end EngineCall

/-- A step that an engine makes on a table of runs. -/
structure SharedStep (runs : S → Table RunSnapshot) (t : Table RunSnapshot)
    (i : EngineCall S × Moment S) (t' : Table RunSnapshot) : Prop where
  leaves : t' = EngineCall.tableStep runs t i
  /-- Listeners are told of something while the table is this one. -/
  shows : ∀ e store, i.2 = .told e store → runs store = t
  /-- Whatever is not a change of the table happens for a run of the artifact of the engine. -/
  own : (∀ store, i.2 ≠ .wrote store) → ∃ x, t.get? i.1.conduct.runId = some x ∧
    x.run.artifactHash = i.1.conduct.artifact.contentHash
  /-- No run is lost, or given another hash. -/
  keeps : ∀ runId x, t.get? runId = some x → ∃ y, t'.get? runId = some y ∧
    y.run.artifactHash = x.run.artifactHash

/-- What a step of a call does to the record of its run is a step on the table. -/
theorem CallStep.shared {runs : S → Table RunSnapshot} {t : Table RunSnapshot}
    {call : EngineCall S} (holds : call.conduct.host.HoldsTable runs)
    {x y : Option RunSnapshot} {m : Moment S}
    (h : CallStep call.conduct.subject (Host.AgreesBut runs call.conduct.runId t) x m y) :
    SharedStep runs (t.assign call.conduct.runId x) (call, m) (t.assign call.conduct.runId y) := by
  have recorded (store : S) :
      call.conduct.subject.recordIn store = (runs store).get? call.conduct.runId := by
    show (call.conduct.host.backend.load call.conduct.runId store).toOption.join = _
    rw [holds.loads]
    rfl
  have written {store : S} (agrees : Host.AgreesBut runs call.conduct.runId t store)
      {z : RunSnapshot} (found : call.conduct.subject.recordIn store = some z) :
      t.assign call.conduct.runId (some z) = runs store := by
    rw [← found, recorded]
    exact (Table.eq_assign agrees).symm
  -- The records of other runs are the same before and after; for the own one it is said each time.
  have keeps (same : ∀ v, x = some v → ∃ w, y = some w ∧
      w.run.artifactHash = v.run.artifactHash) : ∀ runId v,
      (t.assign call.conduct.runId x).get? runId = some v →
      ∃ w, (t.assign call.conduct.runId y).get? runId = some w ∧
        w.run.artifactHash = v.run.artifactHash := by
    intro runId v found
    by_cases its : call.conduct.runId = runId
    · subst its
      rw [Table.get?_assign_self] at found ⊢
      exact same v found
    · rw [Table.get?_assign_of_ne _ its] at found ⊢
      exact ⟨v, found, rfl⟩
  cases h with
  | @registers store y agrees found =>
    refine ⟨written agrees found, nofun, ?_, keeps ?_⟩
    · intro noChange
      exact absurd rfl (noChange store)
    · rintro _ ⟨⟩
  | @strikes x y _ own stroke =>
    refine ⟨?_, ?_, ?_, keeps ?_⟩
    · cases stroke with
      | wrote _ agrees found => exact written agrees found
      | _ => rfl
    · rintro e store ⟨⟩
      cases stroke with
      | told _ agrees found => exact (written agrees found).symm
    · intro _
      exact ⟨x, Table.get?_assign_self _, own⟩
    · rintro _ ⟨⟩
      exact ⟨y, rfl, stroke.keeps.2⟩

/-! ## Runs of other artifacts -/

/-- No artifact has an empty hash. -/
theorem Artifact.contentHash_ne_empty (a : Artifact) : a.contentHash ≠ "" := by
  intro empty
  have none := congrArg String.toList empty
  simp [contentHash, Digest.hex, Digest.hexOfBytes, Digest.bytesOf, Digest.hexByte,
    List.range_succ] at none

/-- A call for a run that is recorded with another hash is refused. -/
theorem Conduct.call_mismatch {c : Conduct S} {kept : S → Prop} (request : Request) (visits : Nat)
    {s : Session S} {x : RunSnapshot} (finds : c.Finds kept s (some x))
    (other : x.run.artifactHash ≠ c.artifact.contentHash) :
    (c.call request visits s).1 =
      .error (.artifactMismatch x.run.runId x.run.artifactHash c.artifact.contentHash) := by
  rw [call_recorded request visits finds, continueRun, if_pos other]
  rfl

/-! ## Sequences of calls -/

namespace EngineCall

variable {runs : S → Table RunSnapshot} {store : S} {call : EngineCall S}
  {calls : List (EngineCall S)}

/-- A call is a trail of steps on the table. If it is refused, it has left the store as it was. -/
theorem shares (holds : call.conduct.host.HoldsTable runs) (named : Backend.Named (runs store)) :
    Trail (SharedStep runs) (runs store) ((call.moments store).map (call, ·))
      (runs (call.outcome store).2.store) ∧
    Backend.Named (runs (call.outcome store).2.store) ∧
    ∀ e, (call.outcome store).1 = .error e → e.IsRefusal →
      (call.outcome store).2.store = store := by
  let runId := call.conduct.runId
  have finds : call.conduct.Finds (Host.AgreesBut runs runId (runs store))
      { call with store, history := [] } ((runs store).get? runId) := by
    refine ⟨?_, ?_, ?_⟩
    · exact fun _ _ => rfl
    · exact holds.loads runId store
    · exact fun x found => named runId x found
  obtain ⟨ms, y, grown, finds', trail, refused⟩ :=
    Conduct.call_steps (holds.reliable runId (runs store)) call.request call.visits finds
  have moments : call.moments store = ms := by
    rw [EngineCall.moments, outcome, grown, List.append_nil, List.reverse_reverse]
  have found : (runs (call.outcome store).2.store).get? runId = y :=
    Except.ok.inj ((holds.loads runId _).symm.trans finds'.loads)
  have after : runs (call.outcome store).2.store = (runs store).assign runId y := by
    rw [← found]
    exact Table.eq_assign finds'.kept
  have before : (runs store).assign runId ((runs store).get? runId) = runs store :=
    (Table.eq_assign fun _ _ => rfl).symm
  refine ⟨?_, ?_, ?_⟩
  · have steps := trail.map (f := (runs store).assign runId) (g := (call, ·))
      fun _ _ _ step => step.shared holds
    rw [before] at steps
    rw [moments, after]
    exact steps
  · intro other x there
    by_cases own : other = runId
    · subst own
      exact finds'.named x (found.symm.trans there)
    · exact named other x ((finds'.kept other own).symm.trans there)
  · intro e failed refusal
    obtain ⟨n, idle⟩ := refused e failed refusal
    exact congrArg Session.store idle

/-- Any number of calls is a trail of steps on the table. -/
theorem shares_all (named : Backend.Named (runs store))
    (shared : ∀ call ∈ calls, call.conduct.host.HoldsTable runs) :
    Trail (SharedStep runs) (runs store) (happenings store calls) (runs (storeAfter store calls)) ∧
      Backend.Named (runs (storeAfter store calls)) := by
  induction calls generalizing store with
  | nil => exact ⟨.nil _, named⟩
  | cons call rest ih =>
    obtain ⟨first, named', -⟩ := shares (shared call List.mem_cons_self) named
    obtain ⟨later, named''⟩ := ih named' fun call mem => shared call (List.mem_cons_of_mem _ mem)
    exact ⟨first.append later, named''⟩

section Steps

variable {t t' : Table RunSnapshot} {all : List (EngineCall S × Moment S)}

/-- Steps lead to the table that they leave. -/
theorem tableAfter_of_shared (trail : Trail (SharedStep runs) t all t') :
    tableAfter runs t all = t' := by
  induction trail with
  | nil => rfl
  | cons step _ ih =>
    rw [← ih, step.leaves]
    rfl

/-- No steps lose a run, or give it another hash. -/
theorem keeps_of_shared (trail : Trail (SharedStep runs) t all t') {runId : String}
    {x : RunSnapshot} (found : t.get? runId = some x) :
    ∃ y, t'.get? runId = some y ∧ y.run.artifactHash = x.run.artifactHash := by
  refine trail.invariant (P := fun t => ∃ y, t.get? runId = some y ∧
    y.run.artifactHash = x.run.artifactHash) ?_ ⟨x, found, rfl⟩
  rintro t i t' ⟨y, there, same⟩ step
  obtain ⟨z, there', same'⟩ := step.keeps runId y there
  exact ⟨z, there', same'.trans same⟩

end Steps

/-- In a table of runs artifacts are not mixed by some calls. -/
structure Unmixed (runs : S → Table RunSnapshot) (start : S) (calls : List (EngineCall S)) :
    Prop where
  /-- What happens for a run, be it that a task is executed, happens while the run is recorded with
  the hash of the artifact of the engine. -/
  own : ∀ before call m after, happenings start calls = before ++ (call, m) :: after →
    (∀ store, m ≠ .wrote store) →
    ∃ x, (tableAfter runs (runs start) before).get? call.conduct.runId = some x ∧
      x.run.artifactHash = call.conduct.artifact.contentHash
  /-- A recorded hash stays the same. -/
  keeps : ∀ before between after, happenings start calls = before ++ between ++ after →
    ∀ runId x, (tableAfter runs (runs start) before).get? runId = some x →
    ∃ y, (tableAfter runs (runs start) (before ++ between)).get? runId = some y ∧
      y.run.artifactHash = x.run.artifactHash
  /-- A call that is refused leaves everything as it was. -/
  refuses : ∀ before call after e, calls = before ++ call :: after →
    (call.outcome (storeAfter start before)).1 = .error e → e.IsRefusal →
    storeAfter start (before ++ [call]) = storeAfter start before
  /-- The table is changed by nothing but what happens: so it is found by those who are told of an
  event, and after all calls. -/
  shows : ∀ before call e store after,
    happenings start calls = before ++ (call, .told e store) :: after →
    runs store = tableAfter runs (runs start) before
  ends : runs (storeAfter start calls) = tableAfter runs (runs start) (happenings start calls)

/-- Whichever engines are called on one table, with whatever artifacts, for whichever runs: a task
is only executed for a run that is recorded with the hash of the artifact, the hash recorded of a
run does not change, and a call that is refused leaves the table as it was. -/
theorem runs_never_mix {start : S} (named : Backend.Named (runs start))
    {calls : List (EngineCall S)} (shared : ∀ call ∈ calls, call.conduct.host.HoldsTable runs) :
    Unmixed runs start calls := by
  obtain ⟨trail, -⟩ := shares_all named shared
  constructor
  case own =>
    intro before call m after all noChange
    rw [all] at trail
    obtain ⟨t, t', first, step⟩ := trail.step_at
    rw [tableAfter_of_shared first]
    exact step.own noChange
  case keeps =>
    intro before between after all runId x found
    rw [all] at trail
    obtain ⟨t', both, -⟩ := trail.split
    rw [tableAfter_of_shared both]
    obtain ⟨t, first, second⟩ := both.split
    rw [tableAfter_of_shared first] at found
    exact keeps_of_shared second found
  case refuses =>
    intro before call after e all failed refusal
    subst all
    obtain ⟨-, named'⟩ := shares_all named fun call mem =>
      shared call (List.mem_append_left _ mem)
    have holds := shared call (List.mem_append_right _ List.mem_cons_self)
    obtain ⟨-, -, refused⟩ := shares holds named'
    rw [storeAfter, List.foldl_append]
    exact refused e failed refusal
  case shows =>
    intro before call e store after all
    rw [all] at trail
    obtain ⟨t, t', first, step⟩ := trail.step_at
    rw [tableAfter_of_shared first]
    exact step.shows e store rfl
  case ends => exact (tableAfter_of_shared trail).symm

/-- One engine carries a run out, and another one is called for a run of another artifact. -/
theorem runs_never_mix_unhashed :
    let start := (∅ : Table RunSnapshot).insert "q" (.ofRun (.new "q" "e" "1" "" ⟨0, 0⟩))
    let call (c : Conduct (Table RunSnapshot)) (request : Request) : EngineCall _ :=
      { conduct := c, request, visits := 2, answers := .scripted [] }
    let works := call .twoSets .run
    let fails := call { Conduct.twoSets with runId := "q" } .resume
    Backend.Named (id start) ∧
      (∀ call ∈ [works, fails], call.conduct.host.HoldsTable id) ∧
      ((happenings start [works]).filterMap fun i => i.2.mark?).length = 4 ∧
      (fails.outcome (storeAfter start [works])).1 =
        .error (.artifactMismatch "q" "" Conduct.twoSets.artifact.contentHash) ∧
      Unmixed id start [works, fails] := by
  intro start call works fails
  have named : Backend.Named (id start) := Backend.named_empty.insert rfl
  have shared : ∀ call ∈ [works, fails], call.conduct.host.HoldsTable id := by
    simp only [List.mem_cons, List.not_mem_nil, or_false, forall_eq_or_imp, forall_eq]
    exact ⟨Host.inMemory_holdsTable _ _, Host.inMemory_holdsTable _ _⟩
  have unmixed : Unmixed id start [works, fails] := runs_never_mix named shared
  refine ⟨named, shared, by decide +kernel, ?_, unmixed⟩
  have found : (storeAfter start [works]).get? "q" =
      some (.ofRun (.new "q" "e" "1" "" ⟨0, 0⟩)) := by
    decide +kernel
  have finds : fails.conduct.Finds (fun _ => True)
      { fails with store := storeAfter start [works], history := [] }
      (some (.ofRun (.new "q" "e" "1" "" ⟨0, 0⟩))) := by
    refine ⟨trivial, congrArg Except.ok found, ?_⟩
    rintro _ ⟨⟩
    rfl
  exact Conduct.call_mismatch .resume 2 finds (Artifact.contentHash_ne_empty _).symm

end EngineCall

end Sweep
