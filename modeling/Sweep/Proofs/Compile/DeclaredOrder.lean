import Mathlib.Data.List.TakeWhile
import Sweep.Proofs.Compile.Validity
import Sweep.Proofs.Run.Collecting
import Sweep.Proofs.Run.Route
import Sweep.Proofs.Run.WholeCourse

/-!
# Spaces in the order of their declaration

An experiment without transitions runs its spaces in the order in which they are declared: its graph
is a chain, in which no choice depends on an answer. A run follows the chain up to the first node
with the name of the end, and that need not be the end of the chain, as a space may bear this name.
The walk that looks for what can be reached goes through such a space, so the experiment is
compiled, but a run of it visits neither this space nor any that is declared after it.
-/

namespace Sweep

namespace ControlGraph

/-! ## The chain -/

/-- From each node of a chain there is one transition, to the node after it or to the end. -/
theorem filter_chainTransitions (before : List String) (name : String) (rest : List String)
    (distinct : (before ++ name :: rest).Nodup) :
    (chainTransitions (before ++ name :: rest)).filter (fun t => t.source == name) =
      [⟨name, rest.headD endMark, none⟩] := by
  induction before with
  | nil =>
    cases rest with
    | nil => simp [chainTransitions]
    | cons next rest =>
      have later (t : Transition) (mem : t ∈ chainTransitions (next :: rest)) :
          (t.source == name) = false := by
        have source := (proper_of_mem_chainTransitions (List.Subset.refl _) mem).source
        rw [beq_eq_false_iff_ne]
        rintro rfl
        exact (List.nodup_cons.1 distinct).1 source
      rw [List.nil_append, chainTransitions, List.filter_cons_of_pos (by simp),
        List.filter_eq_nil_iff.2 fun t mem => by simp [later t mem]]
      rfl
  | cons first before ih =>
    obtain ⟨apart, distinct⟩ := List.nodup_cons.1 distinct
    have other : first ≠ name := by
      rintro rfl
      exact apart (List.mem_append_right _ List.mem_cons_self)
    obtain ⟨next, others, shape⟩ : ∃ next others, before ++ name :: rest = next :: others :=
      List.exists_cons_of_ne_nil (by simp)
    have chain : chainTransitions (first :: (before ++ name :: rest)) =
        ⟨first, next, none⟩ :: chainTransitions (before ++ name :: rest) := by
      rw [shape]
      rfl
    rw [List.cons_append, chain, List.filter_cons_of_neg (by simpa using other), ih distinct]

/-- Without transitions the graph that is built is the chain. -/
theorem eq_sequential_of_build {spaces : List String} {control : Option (List Transition)}
    {g : ControlGraph} (built : build spaces control = .ok g) (plain : control.getD [] = []) :
    g = sequential spaces ∧ spaces ≠ [] := by
  obtain ⟨some, chain, -⟩ := build_eq_ok_iff.1 built
  exact ⟨chain plain, some⟩

end ControlGraph

namespace Conduct

variable {S : Type} {c : Conduct S}

/-- In a chain the way from a space goes through the spaces after it, up to one with the name of the
end. -/
theorem route_of_sequential (distinct : (c.artifact.spaces.map (·.spaceId)).Nodup)
    (chain : c.artifact.control = .sequential (c.artifact.spaces.map (·.spaceId)))
    (before spaces : List SpaceDefinition) (shape : c.artifact.spaces = before ++ spaces) :
    c.Route ((spaces.map (·.spaceId)).headD endMark)
      (spaces.takeWhile fun space => space.spaceId ≠ endMark) := by
  induction spaces generalizing before with
  | nil => exact .ends
  | cons space rest ih =>
    rw [List.map_cons, List.headD_cons]
    by_cases atEnd : space.spaceId = endMark
    · rw [List.takeWhile_cons_of_neg (by simpa using atEnd), atEnd]
      exact .ends
    · rw [List.takeWhile_cons_of_pos (by simpa using atEnd)]
      have found : c.artifact.space? space.spaceId = some space :=
        Artifact.space?_of_mem distinct (by simp [shape])
      have names : c.artifact.spaces.map (·.spaceId) =
          before.map (·.spaceId) ++ space.spaceId :: rest.map (·.spaceId) := by
        rw [shape, List.map_append, List.map_cons]
      have only : c.artifact.control.outgoing space.spaceId =
          [⟨space.spaceId, (rest.map (·.spaceId)).headD endMark, none⟩] := by
        rw [names] at chain distinct
        rw [chain]
        exact ControlGraph.filter_chainTransitions _ _ _ distinct
      have leads (answers : Answers) : c.nextOn space.spaceId answers =
          (.ok ((rest.map (·.spaceId)).headD endMark), answers) := by
        rw [nextOn, only]
        rfl
      exact .goes atEnd found leads (ih (before ++ [space]) (by simp [shape]))

end Conduct

namespace Compile

variable {S : Type} {e : Experiment} {workflows : List Workflow} {plans : List SpacePlan}
  {a : Artifact} {out : Compilation}

/-- The spaces of the artifact stand in the order of their declaration. -/
theorem Stages.map_spaceId (h : Stages e workflows plans a) :
    a.spaces.map (·.spaceId) = e.spaces.map (·.name) := by
  rw [h.plans_follow.map_name]
  obtain ⟨control, rfl⟩ := h.assembled
  rw [assemble, List.map_map]
  rfl

/-- The way of a run of a compiled experiment without transitions. -/
theorem route_of_compile (compiled : compile e workflows = .ok out)
    (plain : e.control.getD [] = []) {c : Conduct S} (own : c.artifact = out.artifact) :
    c.Route c.artifact.control.start
      (c.artifact.spaces.takeWhile fun space => space.spaceId ≠ endMark) := by
  obtain ⟨plans, warnings, planned⟩ := exists_plans compiled
  have h : Stages e workflows plans c.artifact := own ▸ stages compiled planned
  have names := h.map_spaceId
  have distinct := nodup_spaces h.spaces
  obtain ⟨chain, some⟩ := ControlGraph.eq_sequential_of_build (built_of_compile compiled) plain
  rw [← own, ← names] at chain
  rw [← names] at distinct some
  have route := Conduct.route_of_sequential distinct chain [] c.artifact.spaces rfl
  have start : c.artifact.control.start =
      (c.artifact.spaces.map (·.spaceId)).headD endMark := by
    rw [chain]
    obtain ⟨first, rest, shape⟩ := List.exists_cons_of_ne_nil some
    rw [shape]
    rfl
  exact start ▸ route

/-- A run of a compiled experiment without transitions, from the beginning, in which all tasks
succeed and no termination is requested, visits the declared spaces up to the first one with the
name of the end, each once, in the order of their declaration, before it is recorded as completed.
So it visits all of them if and only if none has this name. -/
theorem run_visits_declared (compiled : compile e workflows = .ok out)
    (plain : e.control.getD [] = []) {c : Conduct S} {kept : S → Prop}
    (own : c.artifact = out.artifact) (reliable : c.host.Reliable c.runId kept)
    (calm : c.host.Calm) {s : Session S} (fresh : c.Fresh kept s) {visits : Nat}
    (enough : e.spaces.length ≤ visits)
    (succeeds : ∀ key, (key, .failed) ∉ (s.since (c.run visits s).2).filterMap Moment.mark?) :
    ∃ ms first second x summary, (c.run visits s).1 = .ok (some summary) ∧
      summary.status = .completed ∧
      s.since (c.run visits s).2 = ms ++ [.wrote first, .wrote second] ∧
      c.subject.recordIn first = some x ∧ x.run.status = .completed ∧
      c.Executes (c.artifact.spaces.takeWhile fun space => space.spaceId ≠ endMark) ms ∧
      c.artifact.spaces.map (·.spaceId) = e.spaces.map (·.name) ∧
      (e.spaces.map (·.name)).Nodup ∧
      (c.Executes c.artifact.spaces ms ↔ endMark ∉ e.spaces.map (·.name)) := by
  obtain ⟨plans, warnings, planned⟩ := exists_plans compiled
  have h : Stages e workflows plans c.artifact := own ▸ stages compiled planned
  have names := h.map_spaceId
  have valid : c.artifact.validate = .ok () := own ▸ validate_of_compile compiled
  have within : (c.artifact.spaces.takeWhile fun space => space.spaceId ≠ endMark).length ≤
      visits := by
    refine (List.takeWhile_sublist _).length_le.trans (le_trans (le_of_eq ?_) enough)
    simpa using congrArg List.length names
  obtain ⟨ms, first, second, x, summary, completed, status, moments, executes, recorded, done⟩ :=
    (route_of_compile compiled plain own).run_executes reliable calm valid within fresh succeeds
  refine ⟨ms, first, second, x, summary, completed, status, moments, recorded, done, executes,
    names, nodup_spaces h.spaces, ⟨fun all => ?_, fun none => ?_⟩⟩
  · have lengths := congrArg List.length (executes.told.symm.trans all.told)
    simp only [SpaceNotice.length_ofVisits, List.length_map] at lengths
    have whole :=
      (List.takeWhile_sublist _).eq_of_length (Nat.eq_of_mul_eq_mul_left two_pos lengths)
    rw [← names, List.mem_map]
    rintro ⟨space, mem, same⟩
    rw [← whole] at mem
    have proper := List.mem_takeWhile_imp mem
    simp [same] at proper
  · have whole : (c.artifact.spaces.takeWhile fun space => space.spaceId ≠ endMark) =
        c.artifact.spaces := by
      refine List.takeWhile_eq_self_iff.2 fun space mem => decide_eq_true fun same => none ?_
      rw [← names]
      exact List.mem_map.2 ⟨space, mem, same⟩
    exact whole ▸ executes

/-- Three spaces over one workflow, of which the second bears the name of the end. -/
def passing : Experiment :=
  { name := "E"
    spaces := [{ name := "A", workflow := "W" }, { name := endMark, workflow := "W" },
      { name := "B", workflow := "W" }] }

def twoInOrder : Experiment :=
  { name := "E", spaces := [{ name := "A", workflow := "W" }, { name := "B", workflow := "W" }] }

def oneTask : List Workflow :=
  [{ name := "W"
     tasks := [{ name := "t", workflow := "W", implementation := some "./t.sh" }] }]

def runOf (a : Artifact) : Conduct (Table RunSnapshot) where
  host := .inMemory (fun _ => .ok ⟨.exited 0, .empty, .empty⟩) fun _ => false
  artifact := a
  options := {}
  runId := "r"

/-- What a run of an artifact on an empty table adds to the history. -/
def momentsOf (a : Artifact) (visits : Nat) : List (Moment (Table RunSnapshot)) :=
  Conduct.onEmptyTable.since ((runOf a).run visits Conduct.onEmptyTable).2

open Conduct in
/-- Two spaces are visited one after the other. -/
theorem run_visits_declared_twoInOrder : ∃ out ms,
    compile twoInOrder oneTask = .ok out ∧ twoInOrder.control.getD [] = [] ∧
      (runOf out.artifact).Fresh (fun _ => True) onEmptyTable ∧
      (∀ key, (key, .failed) ∉ (momentsOf out.artifact 2).filterMap Moment.mark?) ∧
      ms <+: momentsOf out.artifact 2 ∧ (runOf out.artifact).Executes out.artifact.spaces ms := by
  obtain ⟨out, compiled, succeeds⟩ := exists_ok (r := compile twoInOrder oneTask)
    (p := fun out => ((momentsOf out.artifact 2).filterMap Moment.mark?).all
      (fun m => m.2 ≠ .failed) = true)
    (by decide +kernel)
  have succeeds (key : TaskKey) :
      (key, .failed) ∉ (momentsOf out.artifact 2).filterMap Moment.mark? := fun mem => by
    simpa using List.all_eq_true.1 succeeds _ mem
  have fresh : (runOf out.artifact).Fresh (fun _ => True) onEmptyTable := inMemory_fresh rfl _
  obtain ⟨ms, first, second, x, summary, -, -, moments, -, -, -, -, -, all⟩ :=
    run_visits_declared (c := runOf out.artifact) compiled rfl rfl
      (Host.inMemory_reliable _ _ _) (Host.inMemory_calm _) fresh
      (show twoInOrder.spaces.length ≤ 2 from le_refl 2) succeeds
  exact ⟨out, ms, compiled, rfl, fresh, succeeds, ⟨_, moments.symm⟩, all.2 (by decide)⟩

open Conduct in
/-- Of three spaces a run visits the first one only, as the second one bears the name of the end. -/
theorem run_passes_over_end : ∃ out,
    compile passing oneTask = .ok out ∧ passing.control = none ∧
      out.artifact.spaces.map (·.spaceId) = ["A", endMark, "B"] ∧
      (runOf out.artifact).host.Calm ∧
      (runOf out.artifact).Fresh (fun _ => True) onEmptyTable ∧
      ((runOf out.artifact).run 4 onEmptyTable).1.toOption.join.map (·.status) =
        some .completed ∧
      (momentsOf out.artifact 4).filterMap Moment.mark? =
        [(⟨"A", 0, "W:t"⟩, .started), (⟨"A", 0, "W:t"⟩, .completed)] ∧
      (momentsOf out.artifact 4).filterMap Moment.notice? = SpaceNotice.ofVisits ["A"] := by
  obtain ⟨out, compiled, names, ended, marked, told⟩ := exists_ok (r := compile passing oneTask)
    (p := fun out => out.artifact.spaces.map (·.spaceId) = ["A", endMark, "B"] ∧
      ((runOf out.artifact).run 4 onEmptyTable).1.toOption.join.map (·.status) =
        some .completed ∧
      (momentsOf out.artifact 4).filterMap Moment.mark? =
        [(⟨"A", 0, "W:t"⟩, .started), (⟨"A", 0, "W:t"⟩, .completed)] ∧
      (momentsOf out.artifact 4).filterMap Moment.notice? = SpaceNotice.ofVisits ["A"])
    (by decide +kernel)
  exact ⟨out, compiled, rfl, names, Host.inMemory_calm _, inMemory_fresh rfl _, ended, marked,
    told⟩

end Compile

end Sweep
