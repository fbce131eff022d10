import Sweep.Experiment.Codec
import Sweep.Proofs.Workflow.RoundTrip

/-!
# Experiments are read as they were printed

The parameter of a space keeps the domain of its first kind, the numbers of a range are doubles
also where integers were given, and what is missing is printed as what stands for it. So every model
that is read from a value is printed in a way that is read as the same model.
-/

namespace Sweep

open Document (ofJson ofFields text? json? double? list? fields? knownFields? fields?_record
  text?_text list?_ofItems list?_single within_of_fields? within_of_list? of_json?
  isFinite_of_double?)

open Document.Fields (required?_ofRecord withDefault?_ofRecord withDefault?_listField
  optional?_ofRecord optional?_text)

open Json (depth_list_le depth_record_le names_optionalField names_listField
  forall_mem_optionalField forall_mem_listField)

open List (forall_mem_nil)

namespace RangeSpec

/-- The numbers of a range that is read from a value are finite. -/
structure Finite (s : RangeSpec) : Prop where
  min : s.min.isFinite = true
  max : s.max.isFinite = true
  step : s.step.isFinite = true

theorem double?_ofDouble {x : Binary64} (finite : x.isFinite = true) :
    double? (ofJson (.ofDouble x)) = some x := by
  rw [Json.ofDouble, if_pos finite, ofJson, double?]

theorem decode?_encode {s : RangeSpec} (finite : s.Finite) :
    decode? (ofJson s.encode) = some s := by
  rw [encode, decode?]
  refine Option.bind_eq_some_iff.2 ⟨_, fields?_record (.refl fieldNames) (by decide), ?_⟩
  refine Option.bind_eq_some_iff.2
    ⟨s.min, required?_ofRecord (by simp) (double?_ofDouble finite.min), ?_⟩
  refine Option.bind_eq_some_iff.2
    ⟨s.max, required?_ofRecord (by simp) (double?_ofDouble finite.max), ?_⟩
  refine Option.bind_eq_some_iff.2
    ⟨s.step, withDefault?_ofRecord (by simp) (double?_ofDouble finite.step), ?_⟩
  rfl

theorem matches_decode? : Matches decode? encode 1 fun _ => Finite where
  sound := by
    intro levels v s within read
    simp only [decode?, Option.bind_eq_bind, Option.bind_eq_some_iff] at read
    obtain ⟨fields, known, min, low, max, high, step, width, same⟩ := read
    cases same
    have parts := within_of_fields? within known
    obtain ⟨_, part, low⟩ := parts.of_required? low
    obtain ⟨_, part', high⟩ := parts.of_required? high
    refine ⟨isFinite_of_double? part low, isFinite_of_double? part' high, ?_⟩
    rcases parts.of_withDefault? width with rfl | ⟨_, part'', width⟩
    · exact Binary64.isFinite_ofInt (by decide)
    · exact isFinite_of_double? part'' width
  restored := decode?_encode
  shallow := by
    intro levels s _
    have flat (x : Binary64) : (Json.ofDouble x).depth ≤ levels := by
      rw [Json.ofDouble]
      split <;> exact Nat.zero_le _
    exact depth_record_le (by simp [flat])

end RangeSpec

namespace Domain

/-- A domain of values of a document. -/
def Sound (levels : Nat) : Domain → Prop
  | .enumeration values => ∀ v ∈ values, v.Proper ∧ v.depth ≤ levels
  | .range s => s.Finite
  | .expression _ => True

theorem sound_of_ofKind? {levels : Nat} {kind : String} {v : Json} {d : Domain}
    (within : v.Within (levels + 1)) (read : ofKind? kind (ofJson v) = some (some d)) :
    d.Sound levels := by
  rw [ofKind?.eq_def] at read
  split at read
  · obtain ⟨values, listed, rfl⟩ := Option.map_eq_some_iff.1 (Option.some.inj read)
    intro w mem
    obtain ⟨u, part, held⟩ := within_of_list? within listed w mem
    exact ⟨(of_json? part held).1, (of_json? part held).2.1⟩
  · obtain ⟨s, spec, rfl⟩ := Option.map_eq_some_iff.1 (Option.some.inj read)
    exact RangeSpec.matches_decode?.sound within spec
  · obtain ⟨text, -, rfl⟩ := Option.map_eq_some_iff.1 (Option.some.inj read)
    trivial
  · cases read

/-- The field of a domain is read as the domain. -/
theorem ofKind?_field {levels : Nat} {d : Domain} (sound : d.Sound levels) :
    ofKind? d.field.1 (ofJson d.field.2) = some (some d) := by
  cases d with
  | enumeration values =>
    have read : list? json? (ofJson (.list (values.map id))) = some values :=
      list?_ofItems fun v mem => Document.json?_ofJson (sound v mem).1
    rw [List.map_id] at read
    rw [field, ofKind?, read]
    rfl
  | range s =>
    rw [field, ofKind?, RangeSpec.decode?_encode sound]
    rfl
  | expression => rfl

theorem depth_field_le {levels : Nat} {d : Domain} (sound : d.Sound levels) :
    d.field.2.depth ≤ levels + 1 := by
  cases d with
  | enumeration => exact depth_list_le fun v mem => (sound v mem).2
  | range s => exact RangeSpec.matches_decode?.shallow sound
  | expression => exact Nat.zero_le _

theorem field_ne_name (d : Domain) : d.field.1 ≠ "name" := by
  cases d <;> simp [field]

end Domain

namespace SpaceParameter

def Sound (levels : Nat) (p : SpaceParameter) : Prop := p.domain.Sound levels

/-- The fields but the name mean what they are. -/
theorem resolveOthers?_ofFields (fields : List (String × Json)) :
    resolveOthers? (ofFields fields) = some (ofFields (fields.filter fun f => f.1 ≠ "name")) := by
  induction fields with
  | nil => rfl
  | cons f rest ih =>
    obtain ⟨name, value⟩ := f
    rw [ofFields, resolveOthers?, ih]
    by_cases same : name = "name" <;> simp [same, text?, Document.resolve?_ofJson, ofFields]

/-- The domain is that of one of the fields. -/
theorem exists_of_domain? {fields : List (String × Json)} {d : Domain}
    (read : domain? (ofFields fields) = some d) :
    ∃ f ∈ fields, Domain.ofKind? f.1 (ofJson f.2) = some (some d) := by
  induction fields with
  | nil => cases read
  | cons f rest ih =>
    obtain ⟨kind, value⟩ := f
    rw [ofFields, domain?, text?, Option.bind_some] at read
    split at read
    · next found =>
      subst read
      exact ⟨_, List.mem_cons_self, found⟩
    · obtain ⟨f, mem, found⟩ := ih read
      exact ⟨f, List.mem_cons_of_mem _ mem, found⟩

theorem matches_decode? : Matches decode? encode 2 Sound where
  sound := by
    intro levels v p within read
    cases v with
    | record given =>
      simp only [ofJson, decode?, Option.bind_eq_bind, Option.bind_eq_some_iff] at read
      obtain ⟨fields, -, name, -, others, resolved, domain, found, same⟩ := read
      cases same
      rw [resolveOthers?_ofFields] at resolved
      cases resolved
      obtain ⟨f, mem, held⟩ := exists_of_domain? found
      exact Domain.sound_of_ofKind? (within.field f (List.mem_of_mem_filter mem)) held
    | _ => cases read
  restored := by
    intro levels p sound
    obtain ⟨name, domain⟩ := p
    have known : knownFields? ["name"] (ofFields [("name", .text name), domain.field]) [] =
        some ⟨[("name", ofJson (.text name))]⟩ := by
      simp [ofFields, knownFields?, Document.fieldName?, domain.field_ne_name]
    have others : resolveOthers? (ofFields [("name", .text name), domain.field]) =
        some (ofFields [domain.field]) := by
      rw [resolveOthers?_ofFields]
      simp [domain.field_ne_name]
    have held : domain? (ofFields [domain.field]) = some domain := by
      rw [ofFields, domain?, text?, Option.bind_some, Domain.ofKind?_field sound]
    rw [encode, ofJson, decode?]
    refine Option.bind_eq_some_iff.2 ⟨_, known, ?_⟩
    refine Option.bind_eq_some_iff.2 ⟨name, rfl, ?_⟩
    refine Option.bind_eq_some_iff.2 ⟨_, others, ?_⟩
    exact Option.bind_eq_some_iff.2 ⟨domain, held, rfl⟩
  shallow := by
    intro levels p sound
    refine depth_record_le ?_
    simp only [List.forall_mem_cons]
    exact ⟨Nat.zero_le _, Domain.depth_field_le sound, forall_mem_nil _⟩

end SpaceParameter

namespace Space

def Sound (levels : Nat) (s : Space) : Prop :=
  (∀ p ∈ s.parameters, p.Sound (levels + 1)) ∧ ∀ c ∈ s.configurations, c.Sound levels

variable {s : Space}

theorem names_encode {fields : List (String × Json)} (shape : s.encode = .record fields) :
    (fields.map (·.1)).Sublist fieldNames := by
  cases shape
  simp only [List.map_append]
  have front := (List.Sublist.refl ["name", "workflow", "strategy", "parameters"]).append
    (names_listField "taskConfigurations" (s.configurations.map Configuration.encode))
  exact front.append (names_listField "data" (s.data.map DataSlot.encode))

theorem matches_decode? : Matches decode? encode 5 Sound where
  sound := by
    intro levels v s within read
    simp only [decode?, Option.bind_eq_bind, Option.bind_eq_some_iff] at read
    obtain ⟨fields, known, name, -, workflow, -, strategy, -, parameters, declared,
      configurations, given, data, -, same⟩ := read
    cases same
    have parts : fields.Within (levels + 1 + 2 + 1) := within_of_fields? within known
    exact ⟨SpaceParameter.matches_decode?.sound_default parts declared,
      Configuration.matches_decode?.sound_default parts given⟩
  restored := by
    intro levels s sound
    rw [encode, decode?]
    refine Option.bind_eq_some_iff.2 ⟨_, fields?_record (names_encode rfl) (by decide), ?_⟩
    refine Option.bind_eq_some_iff.2 ⟨s.name, required?_ofRecord (by simp) (text?_text _), ?_⟩
    refine Option.bind_eq_some_iff.2 ⟨s.workflow, required?_ofRecord (by simp) (text?_text _), ?_⟩
    refine Option.bind_eq_some_iff.2
      ⟨s.strategy, withDefault?_ofRecord (by simp) (text?_text _), ?_⟩
    refine Option.bind_eq_some_iff.2 ⟨s.parameters,
      withDefault?_ofRecord (by simp) (SpaceParameter.matches_decode?.restored_list sound.1), ?_⟩
    refine Option.bind_eq_some_iff.2 ⟨s.configurations, withDefault?_listField (by simp)
      fun c mem => Configuration.matches_decode?.restored (sound.2 c mem), ?_⟩
    refine Option.bind_eq_some_iff.2 ⟨s.data, withDefault?_listField (by simp)
      fun d _ => d.decode?_encode, ?_⟩
    rfl
  shallow := by
    intro levels s sound
    have parameters : (Json.list (s.parameters.map SpaceParameter.encode)).depth ≤ levels + 4 :=
      SpaceParameter.matches_decode?.shallow_list sound.1
    refine depth_record_le ?_
    simp only [List.forall_mem_append, List.forall_mem_cons]
    exact ⟨⟨⟨Nat.zero_le _, Nat.zero_le _, Nat.zero_le _, parameters, forall_mem_nil _⟩,
      forall_mem_listField (Configuration.matches_decode?.shallow_list sound.2)⟩,
      forall_mem_listField (DataSlot.matches_decode?.shallow_list fun _ _ => trivial)⟩

end Space

namespace Transition

variable {t : Transition}

theorem names_encode {fields : List (String × Json)} (shape : t.encode = .record fields) :
    (fields.map (·.1)).Sublist fieldNames := by
  cases shape
  rw [List.map_append]
  exact (List.Sublist.refl ["from", "to"]).append (names_optionalField "condition" _)

theorem decode?_encode (t : Transition) : decode? (ofJson t.encode) = some t := by
  rw [encode, decode?]
  refine Option.bind_eq_some_iff.2 ⟨_, fields?_record (names_encode rfl) (by decide), ?_⟩
  refine Option.bind_eq_some_iff.2 ⟨t.source, required?_ofRecord (by simp) (text?_text _), ?_⟩
  refine Option.bind_eq_some_iff.2 ⟨t.target, required?_ofRecord (by simp) (text?_text _), ?_⟩
  refine Option.bind_eq_some_iff.2 ⟨t.condition, optional?_text (by simp), ?_⟩
  rfl

theorem matches_decode? : Matches decode? encode 1 fun _ _ => True where
  sound _ _ := trivial
  restored _ := decode?_encode _
  shallow _ := by
    refine depth_record_le ?_
    simp only [List.forall_mem_append, List.forall_mem_cons, forall_mem_optionalField]
    refine ⟨⟨Nat.zero_le _, Nat.zero_le _, forall_mem_nil _⟩, fun v mem => ?_⟩
    obtain ⟨text, -, rfl⟩ := Option.mem_map.1 mem
    exact Nat.zero_le _

end Transition

namespace Experiment

def Sound (levels : Nat) (e : Experiment) : Prop := ∀ s ∈ e.spaces, s.Sound levels

variable {e : Experiment}

theorem names_encode {fields : List (String × Json)} (shape : e.encode = .record fields) :
    (fields.map (·.1)).Sublist fieldNames := by
  cases shape
  rw [List.map_append]
  exact (List.Sublist.refl ["name", "spaces", "data"]).append (names_optionalField "control" _)

/-- Transitions that are given are printed as a list, and so not as null. -/
theorem optional?_control {fields : List (String × Json)} {control : Option (List Transition)}
    (found : Json.lookUp "control" fields =
      control.map fun ts => .list (ts.map Transition.encode)) :
    (Document.Fields.ofRecord fields).optional? "control" (list? Transition.decode?) =
      some control :=
  optional?_ofRecord found (fun _ _ => nofun) fun _ _ =>
    list?_ofItems fun t _ => t.decode?_encode

theorem matches_decode? : Matches decode? encode 7 Sound where
  sound := by
    intro levels v e within read
    simp only [decode?, Option.bind_eq_bind, Option.bind_eq_some_iff] at read
    obtain ⟨fields, known, name, -, spaces, declared, data, -, control, -, same⟩ := read
    cases same
    exact Space.matches_decode?.sound_default (within_of_fields? within known) declared
  restored := by
    intro levels e sound
    rw [encode, decode?]
    refine Option.bind_eq_some_iff.2 ⟨_, fields?_record (names_encode rfl) (by decide), ?_⟩
    refine Option.bind_eq_some_iff.2 ⟨e.name, required?_ofRecord (by simp) (text?_text _), ?_⟩
    refine Option.bind_eq_some_iff.2 ⟨e.spaces,
      withDefault?_ofRecord (by simp) (Space.matches_decode?.restored_list sound), ?_⟩
    refine Option.bind_eq_some_iff.2 ⟨e.data,
      withDefault?_ofRecord (by simp) (DataSlot.list?_encode _), ?_⟩
    refine Option.bind_eq_some_iff.2 ⟨e.control, optional?_control (by simp), ?_⟩
    rfl
  shallow := by
    intro levels e sound
    have data : (Json.list (e.data.map DataSlot.encode)).depth ≤ levels + 6 :=
      DataSlot.matches_decode?.shallow_list fun _ _ => trivial
    refine depth_record_le ?_
    simp only [List.forall_mem_append, List.forall_mem_cons, forall_mem_optionalField]
    refine ⟨⟨Nat.zero_le _, Space.matches_decode?.shallow_list sound, data, forall_mem_nil _⟩,
      fun v mem => ?_⟩
    obtain ⟨ts, -, rfl⟩ := Option.mem_map.1 mem
    exact Transition.matches_decode?.shallow_list fun _ _ => trivial

end Experiment

/-- All that is read of workflows and experiments is printed in a way that is read as the same. -/
theorem restores_models : Restores Parameter.decode? Parameter.encode ∧
    Restores DataSlot.decode? DataSlot.encode ∧ Restores Task.decode? Task.encode ∧
    Restores Configuration.decode? Configuration.encode ∧
    Restores Workflow.decode? Workflow.encode ∧
    Restores SpaceParameter.decode? SpaceParameter.encode ∧ Restores Space.decode? Space.encode ∧
    Restores Transition.decode? Transition.encode ∧
    Restores Experiment.decode? Experiment.encode :=
  ⟨Parameter.matches_decode?.restores (by decide), DataSlot.matches_decode?.restores (by decide),
    Task.matches_decode?.restores (by decide), Configuration.matches_decode?.restores (by decide),
    Workflow.matches_decode?.restores (by decide),
    SpaceParameter.matches_decode?.restores (by decide), Space.matches_decode?.restores (by decide),
    Transition.matches_decode?.restores (by decide),
    Experiment.matches_decode?.restores (by decide)⟩

/-! ## An experiment in short forms -/

/-- The range stands beside the name and has no step. -/
def briefParameter : Json := .record [("name", .text "p"),
  ("range", .record [("min", .number (.integer 0)), ("max", .number (.integer 1))])]

/-- The inputs are null, the output is no list, and the parameter has no value. -/
def briefConfiguration : Json := .record [("task", .text "t"), ("inputs", .null),
  ("outputs", .text "y"), ("parameters", .list [.text "q"])]

def briefSpace : Json := .record [("name", .text "S"), ("workflow", .text "W"),
  ("parameters", .list [briefParameter]), ("taskConfigurations", .list [briefConfiguration]),
  ("data", .list [.text "x"])]

def briefExperiment : Json := .record [("name", .text "E"), ("spaces", .list [briefSpace])]

def plainSpace : Space where
  name := "S"
  workflow := "W"
  parameters := [⟨"p", .range ⟨.ofInt 0, .ofInt 1, .ofInt 1⟩⟩]
  configurations := [{
    task := "t", parameters := [⟨"q", none⟩], inputs := some [], outputs := some ["y"] }]
  data := [⟨"x", none⟩]

def plainExperiment : Experiment := { name := "E", spaces := [plainSpace] }

theorem decode?_briefSpace : Space.decode? (ofJson briefSpace) = some plainSpace := by
  have parameter : SpaceParameter.decode? (ofJson briefParameter) =
      some ⟨"p", .range ⟨.ofInt 0, .ofInt 1, .ofInt 1⟩⟩ := by
    cbv
  have configuration : Configuration.decode? (ofJson briefConfiguration) = some {
      task := "t", parameters := [⟨"q", none⟩], inputs := some [], outputs := some ["y"] } := by
    cbv
  have slot : DataSlot.decode? (ofJson (.text "x")) = some ⟨"x", none⟩ := by cbv
  rw [briefSpace, Space.decode?, fields?_record (by decide) (by decide)]
  refine Option.bind_eq_some_iff.2 ⟨_, rfl, ?_⟩
  refine Option.bind_eq_some_iff.2 ⟨"S", required?_ofRecord rfl (text?_text _), ?_⟩
  refine Option.bind_eq_some_iff.2 ⟨"W", required?_ofRecord rfl (text?_text _), ?_⟩
  refine Option.bind_eq_some_iff.2 ⟨defaultStrategy, rfl, ?_⟩
  refine Option.bind_eq_some_iff.2 ⟨_, withDefault?_ofRecord rfl (list?_single parameter), ?_⟩
  refine Option.bind_eq_some_iff.2 ⟨_, withDefault?_ofRecord rfl (list?_single configuration), ?_⟩
  exact Option.bind_eq_some_iff.2 ⟨_, withDefault?_ofRecord rfl (list?_single slot), rfl⟩

theorem decode?_briefExperiment :
    Experiment.decode? (ofJson briefExperiment) = some plainExperiment := by
  rw [briefExperiment, Experiment.decode?, fields?_record (by decide) (by decide)]
  refine Option.bind_eq_some_iff.2 ⟨_, rfl, ?_⟩
  refine Option.bind_eq_some_iff.2 ⟨"E", required?_ofRecord rfl (text?_text _), ?_⟩
  exact Option.bind_eq_some_iff.2
    ⟨_, withDefault?_ofRecord rfl (list?_single decode?_briefSpace), rfl⟩

theorem fits_briefExperiment : ∀ n ∈ briefExperiment.numbers, n.Fits := by
  have numbers : briefExperiment.numbers = [.integer 0, .integer 1] := by decide
  rw [numbers]
  simp [JsonNumber.Fits]

theorem readsBack_plainExperiment : ∀ n ∈ plainExperiment.encode.numbers, Json.ReadsBack n := by
  have numbers : plainExperiment.encode.numbers =
      [.double (.ofInt 0), .double (.ofInt 1), .double (.ofInt 1)] := by
    decide
  have zero : Json.ReadsBack (.double (.ofInt 0)) := by
    rw [Json.ReadsBack]
    decide +kernel
  have one : Json.ReadsBack (.double (.ofInt 1)) := by
    rw [Json.ReadsBack]
    decide +kernel
  rw [numbers]
  simp [zero, one]

/-- The short forms are printed at length, and then read as what they were read as. -/
theorem restores_models_brief :
    Experiment.decode? (ofJson briefExperiment) = some plainExperiment ∧
      plainExperiment.encode ≠ briefExperiment ∧
      Experiment.decode? (ofJson plainExperiment.encode) = some plainExperiment ∧
      (Json.document? plainExperiment.encode.indented).bind Experiment.decode? =
        some plainExperiment := by
  obtain ⟨-, -, -, -, -, -, -, -, restored⟩ := restores_models
  exact ⟨decode?_briefExperiment, by decide,
    restored.value fits_briefExperiment decode?_briefExperiment,
    restored.text fits_briefExperiment (by decide) decode?_briefExperiment
      readsBack_plainExperiment⟩

end Sweep
