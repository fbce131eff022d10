import Sweep.Artifact.Codec
import Sweep.Proofs.Experiment.RoundTrip
import Sweep.Proofs.Files.Writing

/-!
# Artifacts are read as they were written

The text of an artifact is read as the artifact, whether it was compiled or read from any other
text before: every part is decoded to what it was encoded from, entries of tables keep their order,
and what is left out because it is empty is taken to be empty. So an artifact that is saved and
loaded keeps its text, and with it its digest and the name of its runs.

Two things are asked of the values of the parameters: their numbers are read back as they were
written, and they are not nested deeper than the reader of documents goes.
-/

namespace Sweep

open Document (ofJson ofItems ofFields list? text? json? fields? named? knownFields? fieldName?)

namespace Document

theorem table?_encode {α : Type} {encode : α → Json} {read? : Document → Option α} {t : Table α}
    (each : ∀ v ∈ t.values, read? (ofJson (encode v)) = some v) :
    table? read? (ofJson (t.encode encode)) = some t := by
  rw [Table.encode, ofJson, table?, ofFields_eq_map, List.map_map, mapM_map_eq_some (f := id)]
  · simp [Table.ofList_entries]
  · intro entry mem
    simp [each entry.2 (List.mem_map_of_mem mem)]

theorem exists_of_table? {α : Type} {read? : Document → Option α} {d : Document} {t : Table α}
    (h : table? read? d = some t) : ∀ v ∈ t.values, ∃ d, read? d = some v := by
  intro v mem
  rw [table?.eq_def] at h
  split at h
  · simp only [Option.bind_eq_bind, Option.bind_eq_some_iff] at h
    obtain ⟨entries, read, same⟩ := h
    cases same
    obtain ⟨key, among⟩ := Table.mem_of_mem_values_ofList mem
    obtain ⟨⟨name, value⟩, -, found⟩ := exists_of_mapM_eq_some read _ among
    simp only at found
    split at found
    · simp only [Option.bind_some, Option.bind_eq_some_iff] at found
      obtain ⟨w, held, same⟩ := found
      cases same
      exact ⟨value, held⟩
    · cases found
  · cases h

end Document

open Document (list?_ofItems list?_ofStrings table?_encode exists_of_table? exists_of_list?)

namespace ParameterSet

theorem decode?_encode {p : ParameterSet} (proper : ∀ v ∈ p.values, v.Proper) :
    decode? (ofJson p.encode) = some p :=
  table?_encode fun v mem => Document.json?_ofJson (proper v mem)

theorem proper_of_decode? {d : Document} {p : ParameterSet} (h : decode? d = some p) :
    ∀ v ∈ p.values, v.Proper := by
  intro v mem
  obtain ⟨d, held⟩ := exists_of_table? h v mem
  exact Document.proper_of_json? held

end ParameterSet

namespace TaskDefinition

theorem decode?_encode {t : TaskDefinition} (proper : ∀ v ∈ t.staticParameters.values, v.Proper) :
    decode? (ofJson t.encode) = some t := by
  simp [decode?, encode, fields?, named?, knownFields?, fieldName?, fieldNames, ofJson, ofFields,
    Document.Fields.required?, Document.Fields.withDefault?, Document.Fields.get?, text?,
    list?_ofStrings, ParameterSet.decode?_encode proper]

theorem proper_of_decode? {d : Document} {t : TaskDefinition} (h : decode? d = some t) :
    ∀ v ∈ t.staticParameters.values, v.Proper := by
  simp only [decode?, Option.bind_eq_bind, Option.bind_eq_some_iff] at h
  obtain ⟨fields, -, taskId, -, workflow, -, implementation, -, dynamic, -, static, read, inputs, -,
    outputs, -, same⟩ := h
  cases same
  rcases Document.Fields.eq_or_exists_of_withDefault? read with rfl | ⟨d, decoded⟩
  · rintro _ ⟨⟩
  · exact ParameterSet.proper_of_decode? decoded

end TaskDefinition

namespace SpaceDefinition

theorem decode?_encode {s : SpaceDefinition}
    (proper : ∀ p ∈ s.parameters, ∀ v ∈ p.values, v.Proper) :
    decode? (ofJson s.encode) = some s := by
  obtain ⟨spaceId, tasksOrder, parameters, inputData⟩ := s
  have sets : list? ParameterSet.decode? (.list (ofItems (parameters.map ParameterSet.encode))) =
      some parameters :=
    list?_ofItems fun p mem => ParameterSet.decode?_encode (proper p mem)
  have inputs : Document.table? text? (ofJson (inputData.encode .text)) = some inputData :=
    table?_encode fun _ _ => rfl
  cases empty : inputData.isEmpty
  · simp [decode?, encode, fields?, named?, knownFields?, fieldName?, fieldNames, ofJson, ofFields,
      Document.Fields.required?, Document.Fields.withDefault?, Document.Fields.get?, text?,
      list?_ofStrings, sets, inputs, empty]
  · obtain rfl : inputData = ∅ := Table.ext_entries (List.isEmpty_iff.1 empty)
    simp [decode?, encode, fields?, named?, knownFields?, fieldName?, fieldNames, ofJson, ofFields,
      Document.Fields.required?, Document.Fields.withDefault?, Document.Fields.get?, text?,
      list?_ofStrings, sets, empty]

theorem proper_of_decode? {d : Document} {s : SpaceDefinition} (h : decode? d = some s) :
    ∀ p ∈ s.parameters, ∀ v ∈ p.values, v.Proper := by
  simp only [decode?, Option.bind_eq_bind, Option.bind_eq_some_iff] at h
  obtain ⟨fields, -, spaceId, -, order, -, parameters, read, inputs, -, same⟩ := h
  cases same
  intro p mem
  obtain ⟨d, list⟩ := Document.Fields.exists_of_required? read
  obtain ⟨d, decoded⟩ := exists_of_list? list p mem
  exact ParameterSet.proper_of_decode? decoded

end SpaceDefinition

namespace ControlGraph

theorem decode?_encode (g : ControlGraph) : decode? (ofJson g.encode) = some g := by
  have transitions : list? Transition.decode? (.list (ofItems (g.transitions.map
      Transition.encode))) = some g.transitions :=
    list?_ofItems fun t _ => t.decode?_encode
  simp [decode?, decode?.read?, encode, fields?, named?, knownFields?, fieldName?, ofJson, ofFields,
    Document.Fields.required?, Document.Fields.withDefault?, Document.Fields.get?, text?,
    startMark, transitions]

end ControlGraph

namespace Artifact

def values (a : Artifact) : List Json :=
  (a.tasks.flatten.flatMap fun t => t.staticParameters.values) ++
    a.spaces.flatMap fun s => s.parameters.flatMap Table.values

variable {a : Artifact}

theorem mem_values_iff {v : Json} : v ∈ a.values ↔
    (∃ group ∈ a.tasks, ∃ t ∈ group, v ∈ t.staticParameters.values) ∨
      ∃ s ∈ a.spaces, ∃ p ∈ s.parameters, v ∈ p.values := by
  simp only [values, List.mem_append, List.mem_flatMap, List.mem_flatten]
  grind

theorem decode?_encode (proper : ∀ v ∈ a.values, v.Proper) :
    decode? (ofJson a.encode) = some a := by
  have tasks : list? (list? TaskDefinition.decode?) (.list (ofItems (a.tasks.map fun group =>
      .list (group.map TaskDefinition.encode)))) = some a.tasks := by
    refine list?_ofItems fun group among => ?_
    rw [ofJson]
    exact list?_ofItems fun t mem => TaskDefinition.decode?_encode fun v value =>
      proper v (mem_values_iff.2 (.inl ⟨group, among, t, mem, value⟩))
  have spaces : list? SpaceDefinition.decode? (.list (ofItems (a.spaces.map
      SpaceDefinition.encode))) = some a.spaces :=
    list?_ofItems fun s mem => SpaceDefinition.decode?_encode fun p set v value =>
      proper v (mem_values_iff.2 (.inr ⟨s, mem, p, set, value⟩))
  simp [decode?, encode, fields?, named?, knownFields?, fieldName?, fieldNames, ofJson, ofFields,
    Document.Fields.required?, Document.Fields.get?, text?, tasks, spaces,
    ControlGraph.decode?_encode]

theorem proper_of_decode? {d : Document} (h : decode? d = some a) : ∀ v ∈ a.values, v.Proper := by
  simp only [decode?, Option.bind_eq_bind, Option.bind_eq_some_iff] at h
  obtain ⟨fields, -, experiment, -, version, -, tasks, readTasks, spaces, readSpaces, control, -,
    same⟩ := h
  cases same
  intro v mem
  rcases mem_values_iff.1 mem with ⟨group, among, t, task, value⟩ | ⟨s, space, p, set, value⟩
  · obtain ⟨d, groups⟩ := Document.Fields.exists_of_required? readTasks
    obtain ⟨d, list⟩ := exists_of_list? groups group among
    obtain ⟨d, decoded⟩ := exists_of_list? list t task
    exact TaskDefinition.proper_of_decode? decoded v value
  · obtain ⟨d, list⟩ := Document.Fields.exists_of_required? readSpaces
    obtain ⟨d, decoded⟩ := exists_of_list? list s space
    exact SpaceDefinition.proper_of_decode? decoded p set v value

end Artifact

/-! ## Texts -/

section Legible

open Json (LegibleWithin)

variable {levels : Nat}

theorem Table.legibleWithin_encode {α : Type} {encode : α → Json} {t : Table α}
    (each : ∀ v ∈ t.values, (encode v).LegibleWithin levels) :
    (t.encode encode).LegibleWithin (levels + 1) := by
  refine LegibleWithin.record fun field mem => ?_
  obtain ⟨entry, among, rfl⟩ := List.mem_map.1 mem
  exact each entry.2 (List.mem_map_of_mem among)

theorem TaskDefinition.legibleWithin_encode {t : TaskDefinition}
    (legible : ∀ v ∈ t.staticParameters.values, v.LegibleWithin levels) :
    t.encode.LegibleWithin (levels + 2) := by
  have static : (ParameterSet.encode t.staticParameters).LegibleWithin (levels + 1) :=
    Table.legibleWithin_encode legible
  refine LegibleWithin.record ?_
  simp only [List.forall_mem_cons]
  exact ⟨.text _, .text _, .text _, .ofStrings _, static, .ofStrings _, .ofStrings _, nofun⟩

theorem SpaceDefinition.legibleWithin_encode {s : SpaceDefinition}
    (legible : ∀ p ∈ s.parameters, ∀ v ∈ p.values, v.LegibleWithin levels) :
    s.encode.LegibleWithin (levels + 3) := by
  have parameters : (Json.list (s.parameters.map ParameterSet.encode)).LegibleWithin
      (levels + 2) := by
    refine LegibleWithin.list fun item mem => ?_
    obtain ⟨p, among, rfl⟩ := List.mem_map.1 mem
    exact Table.legibleWithin_encode (legible p among)
  have inputs : (s.inputData.encode .text).LegibleWithin (levels + 2) :=
    Table.legibleWithin_encode fun _ _ => .text _
  refine LegibleWithin.record ?_
  simp only [List.forall_mem_append, List.forall_mem_cons]
  refine ⟨⟨.text _, .ofStrings _, parameters, nofun⟩, ?_⟩
  split
  · nofun
  · simpa using inputs

theorem ControlGraph.legibleWithin_encode (g : ControlGraph) :
    g.encode.LegibleWithin (levels + 3) := by
  have transitions : (Json.list (g.transitions.map Transition.encode)).LegibleWithin
      (levels + 2) := by
    refine LegibleWithin.list fun item mem => ?_
    obtain ⟨⟨source, target, condition⟩, -, rfl⟩ := List.mem_map.1 mem
    refine LegibleWithin.record ?_
    cases condition <;>
      simp [Json.optionalField, LegibleWithin.text]
  refine LegibleWithin.record ?_
  simp only [List.forall_mem_cons]
  exact ⟨.text _, transitions, List.forall_mem_nil _⟩

namespace Artifact

variable {a : Artifact}

/-- The values of an artifact stand five levels deep in it. -/
theorem legibleWithin_encode (legible : ∀ v ∈ a.values, v.LegibleWithin levels) :
    a.encode.LegibleWithin (levels + 5) := by
  have tasks : (Json.list (a.tasks.map fun group =>
      .list (group.map TaskDefinition.encode))).LegibleWithin (levels + 4) := by
    refine LegibleWithin.list fun item mem => ?_
    obtain ⟨group, among, rfl⟩ := List.mem_map.1 mem
    refine LegibleWithin.list fun item mem => ?_
    obtain ⟨t, task, rfl⟩ := List.mem_map.1 mem
    exact TaskDefinition.legibleWithin_encode fun v value =>
      legible v (mem_values_iff.2 (.inl ⟨group, among, t, task, value⟩))
  have spaces : (Json.list (a.spaces.map SpaceDefinition.encode)).LegibleWithin (levels + 4) := by
    refine LegibleWithin.list fun item mem => ?_
    obtain ⟨s, space, rfl⟩ := List.mem_map.1 mem
    exact SpaceDefinition.legibleWithin_encode fun p set v value =>
      legible v (mem_values_iff.2 (.inr ⟨s, space, p, set, value⟩))
  refine LegibleWithin.record ?_
  simp only [List.forall_mem_cons]
  exact ⟨.text _, .text _, tasks, spaces, a.control.legibleWithin_encode, nofun⟩

/-- How deep a value of a parameter may be nested, to be read inside of an artifact. -/
def maxValueDepth : Nat := Json.maxDepth - 5

/-- The text of an artifact is read as the artifact. -/
theorem read?_write (proper : ∀ v ∈ a.values, v.Proper)
    (legible : ∀ v ∈ a.values, v.LegibleWithin maxValueDepth) : read? a.write = some a := by
  rw [read?, write, Json.document?_indented (legibleWithin_encode legible), Option.bind_some,
    decode?_encode proper]

/-- What is saved is loaded again, and the file holds the bytes of its text. -/
theorem load_of_save (valid : a.validate = .ok ()) (proper : ∀ v ∈ a.values, v.Proper)
    (legible : ∀ v ∈ a.values, v.LegibleWithin maxValueDepth) {path : String} {t t' : FileTree}
    (saved : a.save path t = .ok t') :
    load t' path = .ok a ∧ t'.readBytes path = .ok (Text.toBytes a.write) := by
  obtain ⟨between, written⟩ : ∃ between, FileTree.writeText between path a.write = .ok t' := by
    rw [save] at saved
    split at saved
    · exact ⟨t, ok_of_mapError_ok saved⟩
    · obtain ⟨between, -, written⟩ := exists_of_bind_ok saved
      exact ⟨between, ok_of_mapError_ok written⟩
  refine ⟨?_, FileTree.readBytes_of_writeBytes written⟩
  have text := FileTree.readText_of_writeText written
  have parsed : parse a.write path = .ok a := by
    rw [parse, read?_write proper legible]
    simp only [valid, Except.mapError, Except.map]
  simp only [load, text, Except.mapError, bind, Except.bind, parsed]

/-- What is loaded is valid, and its values are proper. -/
theorem valid_of_load {path : String} {t : FileTree} (loaded : load t path = .ok a) :
    a.validate = .ok () ∧ ∀ v ∈ a.values, v.Proper := by
  obtain ⟨text, -, parsed⟩ := exists_of_bind_ok loaded
  rw [parse] at parsed
  split at parsed
  · cases parsed
  · next read =>
    obtain ⟨_, checked, rfl⟩ := exists_of_map_ok parsed
    obtain ⟨d, -, decoded⟩ := Option.bind_eq_some_iff.1 read
    exact ⟨ok_of_mapError_ok checked, proper_of_decode? decoded⟩

/-- A valid artifact is the same after it was saved and loaded, and so is an artifact that was read
from any text; the file of it holds the bytes of its written form. -/
theorem load_save (a : Artifact) (legible : ∀ v ∈ a.values, v.LegibleWithin maxValueDepth) :
    (a.validate = .ok () → (∀ v ∈ a.values, v.Proper) → ∀ path t t', a.save path t = .ok t' →
      load t' path = .ok a) ∧
    ∀ path t, load t path = .ok a → ∀ path' between t', a.save path' between = .ok t' →
      load t' path' = .ok a ∧ t'.readBytes path' = .ok (Text.toBytes a.write) := by
  refine ⟨fun valid proper path t t' saved => (load_of_save valid proper legible saved).1,
    fun path t loaded path' between t' saved => ?_⟩
  obtain ⟨valid, proper⟩ := valid_of_load loaded
  exact load_of_save valid proper legible saved

def nestedValues : Artifact where
  experiment := "e"
  version := artifactVersion
  tasks := [[{
    taskId := "W:t"
    workflow := "W"
    implementation := "./t.sh"
    dynamicParameters := ["p"]
    staticParameters := .ofList [("seed", .ofNat 7)]
    outputData := ["y"] }]]
  spaces := [{
    spaceId := "s"
    tasksOrder := ["W:t"]
    parameters := [.ofList [("p", .record [("label", .text "a\n\"b\""), ("sizes",
      .list [.ofInt (-1), .null, .ofDouble (Binary64.ofInt 2)])])]]
    inputData := .ofList [("x", "0")] }]
  control := ⟨"s", [⟨"s", endMark, some "y > 1"⟩]⟩

theorem load_save_nestedValues : nestedValues.validate = .ok () ∧
    (∀ v ∈ nestedValues.values, v.Proper ∧ v.LegibleWithin maxValueDepth) ∧
    ∃ t t', nestedValues.save "out/a.json" (.withCurrent ["w"]) = .ok t ∧
      load t "out/a.json" = .ok nestedValues ∧ nestedValues.save "b.json" t = .ok t' ∧
      load t' "b.json" = .ok nestedValues ∧
      t'.readBytes "b.json" = .ok (Text.toBytes nestedValues.write) := by
  have valid : nestedValues.validate = .ok () := by
    decide +kernel
  have held : ∀ v ∈ nestedValues.values, (ofJson v).value? = some v := by
    decide +kernel
  have readable : ∀ v ∈ nestedValues.values, v.depth ≤ maxValueDepth ∧ ∀ n ∈ v.numbers,
      Json.number? (Json.numberChars n) = some (some n, []) := by
    decide +kernel
  have saved : (do
      let t ← nestedValues.save "out/a.json" (.withCurrent ["w"])
      nestedValues.save "b.json" t).toOption.any (fun _ => True) = true := by
    decide +kernel
  have proper : ∀ v ∈ nestedValues.values, v.Proper := fun v mem =>
    Document.proper_of_value? (held v mem)
  have legible : ∀ v ∈ nestedValues.values, v.LegibleWithin maxValueDepth := fun v mem =>
    ⟨(readable v mem).1, (readable v mem).2⟩
  obtain ⟨t', both, -⟩ := exists_ok saved
  obtain ⟨t, first, second⟩ := exists_of_bind_ok both
  obtain ⟨compiled, read⟩ := load_save nestedValues legible
  have loaded := compiled valid proper _ _ _ first
  obtain ⟨again, bytes⟩ := read _ _ loaded _ _ _ second
  exact ⟨valid, fun v mem => ⟨proper v mem, legible v mem⟩, t, t', first, loaded, second, again,
    bytes⟩

end Artifact

end Legible

end Sweep
