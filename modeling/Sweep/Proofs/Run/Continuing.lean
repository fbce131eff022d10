import Sweep.Proofs.Run.Calls
import Sweep.Proofs.Run.Journey

/-!
# What a run that is gone on with does

Whatever calls came before, and wherever they were broken off, a run decides by its record what is
left to do: nothing if it is recorded as completed; else, in the space that is recorded, the
parameter sets that are not completed, unless the space is completed itself, and after that all of
each space that it comes to. This is so because the record is in order between any two calls: of a
space that the run is not in, either all is completed or no set is.
-/

namespace Sweep

variable {S : Type}

/-- What is recorded of a run, which is nothing if there is no record. -/
def Subject.ledgerOf (u : Subject S) (x : Option RunSnapshot) : Ledger :=
  x.elim (.blank u.artifact.contentHash) (·.ledger)

/-- The tasks that are left to do by what is recorded: those of the sets that are not completed in
the space to go on with, and after that all tasks of each space that is entered. -/
def Conduct.agenda (c : Conduct S) (visits : Nat) (l : Ledger) (s : Session S) : List TaskKey :=
  dueThrough true l (c.itinerary visits (c.firstOn true l) s)

theorem InOrder.mem_of_started {plan : List TaskKey} {marks : List (TaskKey × TaskMark)}
    {failed : Option TaskKey} (h : InOrder plan marks failed) {key : TaskKey}
    (started : (key, .started) ∈ marks) : key ∈ plan := by
  obtain ⟨count, same, -⟩ := h.started_eq
  have mem : key ∈ startedIn marks := by simpa [startedIn] using started
  rw [same] at mem
  exact List.mem_of_mem_take mem

namespace CarriedOut

variable {α : Type} {plan : List TaskKey} {marks : List (TaskKey × TaskMark)}
  {r : Except RunError α} {key : TaskKey}

/-- As far as it was carried out, the plan was carried out in order. -/
theorem exists_inOrder (h : CarriedOut plan marks r) :
    ∃ count failed, InOrder (plan.take count) marks failed := by
  by_cases stopped : ∃ runId, r = .error (.terminated runId)
  · obtain ⟨runId, stopped⟩ := stopped
    obtain ⟨count, ordered⟩ := h.stopped runId stopped
    exact ⟨count, none, ordered⟩
  · have ordered := h.otherwise fun runId stops => stopped ⟨runId, stops⟩
    exact ⟨plan.length, _, by rwa [List.take_length]⟩

theorem mem_of_started (h : CarriedOut plan marks r) (started : (key, .started) ∈ marks) :
    key ∈ plan := by
  obtain ⟨count, failed, ordered⟩ := h.exists_inOrder
  exact List.mem_of_mem_take (ordered.mem_of_started started)

theorem getLast?_ne (h : CarriedOut plan marks r) (key : TaskKey) :
    marks.getLast? ≠ some (key, .started) := by
  obtain ⟨count, failed, ordered⟩ := h.exists_inOrder
  exact ordered.getLast?_ne key

end CarriedOut

namespace SpaceDefinition

variable {space : SpaceDefinition} {key : TaskKey}

theorem space_of_mem_starts (h : key ∈ space.starts) : key.space = space.spaceId := by
  obtain ⟨index, -, mem⟩ := List.mem_flatMap.1 h
  obtain ⟨task, -, rfl⟩ := List.mem_map.1 mem
  rfl

/-- No task of a set that is recorded as completed is due where a run goes on. -/
theorem open_of_mem_due {l : Ledger} (h : key ∈ space.due true l) :
    l.sets (key.space, key.index) ≠ some .completed := by
  rw [due] at h
  split at h
  · simp at h
  · obtain ⟨index, mem, of⟩ := List.mem_flatMap.1 h
    obtain ⟨task, -, rfl⟩ := List.mem_map.1 of
    simpa using (List.mem_filter.1 mem).2

end SpaceDefinition

namespace Conduct

variable {c : Conduct S} {kept : S → Prop}

theorem agendaOn_true (visits : Nat) (l : Ledger) (s : Session S) :
    c.agendaOn visits (c.firstOn true l) true l s.answers = c.agenda visits l s := by
  rw [agendaOn, agenda, itinerary_eq]

/-- Nothing is recorded yet, so it does not matter whether a run goes on or begins. -/
theorem agendaOn_blank (visits : Nat) (hash : String) (s : Session S) :
    c.agendaOn visits (c.firstOn false (.blank hash)) false (.blank hash) s.answers =
      c.agenda visits (.blank hash) s := by
  rw [← agendaOn_true]
  rfl

/-- A task of a completed set is only on the agenda of a space that is entered again. -/
theorem mem_itinerary_of_agenda {visits : Nat} {l : Ledger} {s : Session S} {key : TaskKey}
    (mem : key ∈ c.agenda visits l s)
    (completed : l.sets (key.space, key.index) = some .completed) :
    key.space ∈ (c.itinerary visits (c.firstOn true l) s).tail.map (·.spaceId) := by
  rw [agenda] at mem
  cases spaces : c.itinerary visits (c.firstOn true l) s with
  | nil => simp [spaces, dueThrough] at mem
  | cons space rest =>
    rw [spaces, dueThrough] at mem
    rcases List.mem_append.1 mem with due | later
    · exact absurd completed (SpaceDefinition.open_of_mem_due due)
    · obtain ⟨space', among, starts⟩ := List.mem_flatMap.1 later
      exact List.mem_map.2 ⟨space', among, (SpaceDefinition.space_of_mem_starts starts).symm⟩

theorem marks_of_history {s s' : Session S} {log : List (LogItem S)}
    (grown : s'.history = (momentsIn log).reverse ++ s.history) :
    s'.marks = s.marks ++ marksIn log := by
  have marks (s : Session S) : s.marks = s.history.reverse.filterMap Moment.mark? := by
    rw [Session.marks, Session.timeline, List.map_filterMap]
    congr 1
    funext m
    cases m <;> rfl
  rw [marks, marks, grown, List.reverse_append, List.reverse_reverse, List.filterMap_append]
  rfl

/-- A run goes on from the record that any calls before it have left: a completed one does nothing,
and any other carries its agenda out as far as a failure or a request for termination lets it. So
the tasks of a completed set are only started again in a space that is entered again. Programs are
only started by the tasks that are carried out. -/
theorem run_continues_agenda (valid : c.artifact.validate = .ok ()) {log : List (LogItem S)}
    {x : Option RunSnapshot} (journey : Journey c.subject kept log x)
    (reliable : c.host.Reliable c.runId kept) (visits : Nat) {s : Session S}
    (finds : c.Finds kept s x) :
    let l := c.subject.ledgerOf x
    (l.status = .completed →
      (c.run visits s).2.store = s.store ∧ (c.run visits s).2.history = s.history) ∧
    (l.status ≠ .completed → ∃ marks, (c.run visits s).2.marks = s.marks ++ marks ∧
      CarriedOut (c.agenda visits l s) marks (c.run visits s).1 ∧
      (∀ key, (key, .started) ∈ marks → l.sets (key.space, key.index) = some .completed →
        key.space ∈ (c.itinerary visits (c.firstOn true l) s).tail.map (·.spaceId)) ∧
      ∃ deeds, (c.run visits s).2.deeds = s.deeds ++ deeds ∧
        deeds.filterMap Deed.mark? = marks ∧ c.Works deeds) := by
  intro l
  have sound : Sound c.artifact l := by
    cases x with
    | none => exact .blank
    | some y => exact journey.sound valid y rfl
  refine ⟨fun completed => ?_, fun notDone => ?_⟩
  · have rests : Request.run.Rests c.artifact x := by
      cases x with
      | none => cases completed
      | some y => exact fun _ => completed
    obtain ⟨-, ⟨n, same⟩, -⟩ := call_rests valid visits finds rests
    rw [show c.run visits s = c.call .run visits s from rfl, same]
    exact ⟨rfl, rfl⟩
  · have active : ¬Request.run.Rests c.artifact x := by
      cases x with
      | none => exact nofun
      | some y => exact fun rests => notDone (rests sound.own)
    obtain ⟨first, y, s', opening, grown, answers, sees, drives, log⟩ :=
      call_drives reliable .run visits finds active
    obtain ⟨⟨b, tours⟩, -, carried⟩ :=
      drive_tours reliable valid visits x.isSome sees opening.nowhere
    obtain ⟨same, silent, agenda⟩ : y.ledger = l ∧ marksIn first = [] ∧
        c.agendaOn visits (c.firstOn x.isSome y.ledger) x.isSome y.ledger s'.answers =
          c.agenda visits l s := by
      rw [answers]
      cases opening with
      | recorded => exact ⟨rfl, rfl, agendaOn_true visits y.ledger s⟩
      | registered _ blank =>
        rw [blank]
        exact ⟨rfl, rfl, agendaOn_blank visits _ s⟩
    rw [agenda] at carried
    have carried := carried (same ▸ sound)
    have runs : c.run visits s = c.drive visits x.isSome s' := drives
    have marks : (c.run visits s).2.marks =
        s.marks ++ marksIn (c.driveLog visits x.isSome s') := by
      rw [runs, marks_of_history tours.history, marks_of_history grown, silent, List.append_nil]
    refine ⟨_, marks, runs.symm ▸ carried, fun key started completed => ?_,
      run_works visits marks carried.getLast?_ne⟩
    exact mem_itinerary_of_agenda (carried.mem_of_started started) completed

/-- Whether the latest moment of a history told that a parameter set is completed. -/
def completesSet : List (Moment S) → Bool
  | .told (.setCompleted ..) _ :: _ => true
  | _ => false

/-- A run of two sets that is terminated after the first one goes on with the second. -/
theorem run_continues_twoSets :
    let first := twoSets.under completesSet
    let s := (first.run 2 onEmptyTable).2.afresh
    ∃ log y, Journey twoSets.subject (fun _ => True) log (some y) ∧
      twoSets.Finds (fun _ => True) s (some y) ∧ y.ledger.status = .terminated ∧
      twoSets.agenda 2 y.ledger s = [⟨"s", 1, "W:t"⟩] ∧
      ∃ marks, (twoSets.run 2 s).2.marks = marks ∧
        CarriedOut [⟨"s", 1, "W:t"⟩] marks (twoSets.run 2 s).1 ∧
        ∃ deeds, (twoSets.run 2 s).2.deeds = deeds ∧ deeds.filterMap Deed.mark? = marks ∧
          twoSets.Works deeds := by
  intro first s
  have valid : twoSets.artifact.validate = .ok () := by rfl
  have reliable : first.host.Reliable first.runId fun _ => True := Host.inMemory_reliable _ _ _
  have empty : first.Finds (fun _ => True) onEmptyTable none :=
    ⟨trivial, rfl, fun _ h => nomatch h⟩
  have finds := call_finds (c := first) reliable valid .run 2 empty
  have journey := Journey.start.whole first .run 2 onEmptyTable rfl reliable empty
  have recorded : ((first.call .run 2 onEmptyTable).2.store.get? "r").map
      (fun y => (y.ledger.status, twoSets.agenda 2 y.ledger s)) =
        some (.terminated, [⟨"s", 1, "W:t"⟩]) := by
    decide +kernel
  generalize first.subject.recordAfter none (first.callLog .run 2 onEmptyTable) = x at *
  rw [show (first.call .run 2 onEmptyTable).2.store.get? "r" = x from
    Except.ok.inj finds.loads] at recorded
  obtain ⟨y, rfl, same⟩ := Option.map_eq_some_iff.1 recorded
  obtain ⟨status, agenda⟩ := Prod.mk.inj same
  have here : twoSets.Finds (fun _ => True) s (some y) := ⟨trivial, finds.loads, finds.named⟩
  obtain ⟨-, goesOn⟩ := run_continues_agenda (c := twoSets) valid journey
    (Host.inMemory_reliable _ _ _) 2 here
  obtain ⟨marks, grown, carried, -, works⟩ := goesOn (by simp [Subject.ledgerOf, status])
  exact ⟨_, y, journey, here, status, agenda, marks, grown, agenda ▸ carried, works⟩

end Conduct

end Sweep
