import Sweep.Proofs.Run.Journey
import Sweep.Proofs.Run.WholeCourse

/-!
# Events are told after they are recorded

A call may start or resume the run on any record, also on one that other calls could not have left.
Whatever it tells its listeners, the repository shows it at that moment: each event is a step, and
steps are only taken when the record bears the event out.
-/

namespace Sweep

variable {S : Type}

theorem Opening.not_told {u : Subject S} {x : Option RunSnapshot} {first : List (LogItem S)}
    {y : RunSnapshot} (h : Opening u x first y) {e : ProgressEvent} {store : S} :
    .told e store ∉ momentsIn first := by
  cases h <;> simp [momentsIn, LogItem.moment?]

/-- An event in the log of a trail is borne out by the record in its store. -/
theorem Stride.told_of_trail {u : Subject S} {a b : Stage} {log : List (LogItem S)}
    (h : Trail (Stride u) a log b) {e : ProgressEvent} {store : S}
    (told : .told e store ∈ momentsIn log) :
    ∃ y, u.recordIn store = some y ∧ e.runId = u.runId ∧ y.BearsOut u.artifact e := by
  obtain ⟨i, mem, moment⟩ := List.mem_filterMap.1 told
  obtain ⟨x, y, stride⟩ := h.exists_step mem
  cases stride with
  | step _ moves =>
    obtain rfl := Option.some.inj moment
    cases moves with
    | told recorded own shown => exact ⟨_, recorded, own, shown⟩
  | forgot | entered | returned | left | arrived => cases moment

namespace Conduct

variable {c : Conduct S} {kept : S → Prop}

/-- The record of the run in a store is the one that loading gives. -/
theorem loads_of_recordIn {store : S} {y : RunSnapshot}
    (recorded : c.subject.recordIn store = some y) :
    c.host.backend.load c.runId store = .ok (some y) := by
  have join : (c.host.backend.load c.runId store).toOption.join = some y := recorded
  rcases h : c.host.backend.load c.runId store with e | _ | z <;> rw [h] at join <;> cases join
  rfl

/-- At the moment at which a call tells of an event, the repository shows what the event says. -/
theorem call_announces (reliable : c.host.Reliable c.runId kept)
    (valid : c.artifact.validate = .ok ()) (request : Request) (visits : Nat) {s : Session S}
    {x : Option RunSnapshot} (finds : c.Finds kept s x) :
    ∃ ms : List (Moment S), (c.call request visits s).2.history = ms.reverse ++ s.history ∧
      ∀ e store, .told e store ∈ ms → e.runId = c.runId ∧
        ∃ y, c.host.backend.load c.runId store = .ok (some y) ∧ y.BearsOut c.artifact e := by
  refine ⟨_, call_history reliable valid request visits finds, fun e store told => ?_⟩
  rcases call_trail reliable valid request visits finds with
    none | ⟨first, y, rest, b, all, opening, trail⟩
  · rw [none] at told
    cases told
  · rw [all, momentsIn_append] at told
    obtain ⟨y, recorded, own, shown⟩ :=
      Stride.told_of_trail trail ((List.mem_append.1 told).resolve_left opening.not_told)
    exact ⟨own, y, loads_of_recordIn recorded, shown⟩

theorem call_announces_twoSets :
    twoSets.artifact.validate = .ok () ∧ twoSets.Finds (fun _ => True) onEmptyTable none ∧
      .taskCompleted "r" "s" 1 "W:t" ∈ (twoSets.call .run 2 onEmptyTable).2.events ∧
      ∃ ms : List (Moment (Table RunSnapshot)),
        (twoSets.call .run 2 onEmptyTable).2.history = ms.reverse ∧
        ∀ e store, .told e store ∈ ms → e.runId = "r" ∧
          ∃ y, store.get? "r" = some y ∧ y.BearsOut twoSets.artifact e := by
  have valid : twoSets.artifact.validate = .ok () := by rfl
  have finds : twoSets.Finds (fun _ => True) onEmptyTable none :=
    ⟨trivial, rfl, fun _ h => nomatch h⟩
  obtain ⟨ms, history, borneOut⟩ := call_announces (Host.inMemory_reliable _ _ _) valid .run 2 finds
  refine ⟨valid, finds, by decide +kernel, ms, by simpa [onEmptyTable] using history, ?_⟩
  intro e store told
  obtain ⟨own, y, loads, shown⟩ := borneOut e store told
  exact ⟨own, y, Except.ok.inj loads, shown⟩

end Conduct

end Sweep
