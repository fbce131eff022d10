import Sweep.Proofs.Document.Reading

/-!
# Workflows are read as they were printed

A workflow and its parts can be written in several ways: a parameter by its name alone, a single
input without a list, a list of fields instead of a record. All of these are printed in one way, and
what is printed is read as the model that was printed. What is left out when it is absent or empty
stays apart from what was given and is empty.

A reader and a printer of models match if all that is read from a value is sound, and all that is
sound is read as it was printed. The printed form is not nested deeper than the value was, nor
deeper than its own records and lists.
-/

namespace Sweep

open Document (ofJson text? json? list? fields? named? fields?_record text?_text list?_ofItems
  list?_ofStrings within_of_fields? within_of_named? within_of_list? of_json?)

open Document.Fields (required?_ofRecord withDefault?_ofRecord withDefault?_ofRecord_or
  withDefault?_listField optional?_ofRecord optional?_text)

open Json (depth_list_le depth_record_le depth_ofStrings_le names_optionalField names_listField
  forall_mem_optionalField forall_mem_listField)

open List (forall_mem_nil)

/-- A reader and a printer of models that match. The values in a sound model have some levels at
most; in the printed form they stand below some more. -/
structure Matches {α : Type} (decode? : Document → Option α) (encode : α → Json) (height : Nat)
    (Sound : Nat → α → Prop) : Prop where
  sound {levels : Nat} {v : Json} {m : α} :
    v.Within (levels + height) → decode? (ofJson v) = some m → Sound levels m
  restored {levels : Nat} {m : α} : Sound levels m → decode? (ofJson (encode m)) = some m
  shallow {levels : Nat} {m : α} : Sound levels m → (encode m).depth ≤ levels + height

namespace Matches

variable {α : Type} {decode? : Document → Option α} {encode : α → Json} {height levels : Nat}
  {Sound : Nat → α → Prop} {ms : List α}

theorem sound_list (h : Matches decode? encode height Sound) {v : Json}
    (within : v.Within (levels + height + 1)) (read : list? decode? (ofJson v) = some ms) :
    ∀ m ∈ ms, Sound levels m := by
  intro m mem
  obtain ⟨u, part, read⟩ := within_of_list? within read m mem
  exact h.sound part read

/-- A list that may be missing holds only what was read. -/
theorem sound_default (h : Matches decode? encode height Sound) {fields : Document.Fields}
    {name : String} (within : fields.Within (levels + height + 1))
    (read : fields.withDefault? name [] (list? decode?) = some ms) : ∀ m ∈ ms, Sound levels m := by
  rcases within.of_withDefault? read with rfl | ⟨v, part, read⟩
  · nofun
  · exact h.sound_list part read

theorem restored_list (h : Matches decode? encode height Sound) (sound : ∀ m ∈ ms, Sound levels m) :
    list? decode? (ofJson (.list (ms.map encode))) = some ms :=
  list?_ofItems fun m mem => h.restored (sound m mem)

theorem shallow_list (h : Matches decode? encode height Sound) (sound : ∀ m ∈ ms, Sound levels m) :
    (Json.list (ms.map encode)).depth ≤ levels + height + 1 := by
  refine depth_list_le fun v mem => ?_
  obtain ⟨m, among, rfl⟩ := List.mem_map.1 mem
  exact h.shallow (sound m among)

end Matches

/-- Every model that is read from a value whose numbers a document can have is printed as a value
that is read as the model, and so are all that are printed of it. The same goes for its text, if the
value could stand in a text and the numbers that are printed are read back. -/
structure Restores {α : Type} (decode? : Document → Option α) (encode : α → Json) : Prop where
  value {v : Json} {m : α} : (∀ n ∈ v.numbers, n.Fits) → decode? (ofJson v) = some m →
    decode? (ofJson (encode m)) = some m
  again {v w : Json} : (∀ n ∈ v.numbers, n.Fits) → (decode? (ofJson v)).map encode = some w →
    (decode? (ofJson w)).map encode = some w
  text {v : Json} {m : α} : (∀ n ∈ v.numbers, n.Fits) → v.depth ≤ Json.maxDepth →
    decode? (ofJson v) = some m → (∀ n ∈ (encode m).numbers, Json.ReadsBack n) →
      (Json.document? (encode m).indented).bind decode? = some m

theorem Matches.restores {α : Type} {decode? : Document → Option α} {encode : α → Json}
    {height : Nat} {Sound : Nat → α → Prop} (h : Matches decode? encode height Sound)
    (low : height ≤ Json.maxDepth) : Restores decode? encode := by
  have value {v : Json} {m : α} (fits : ∀ n ∈ v.numbers, n.Fits)
      (read : decode? (ofJson v) = some m) : decode? (ofJson (encode m)) = some m := by
    have within : v.Within (v.depth + height) := ⟨Nat.le_add_right _ _, fits⟩
    exact h.restored (h.sound within read)
  refine ⟨value, fun {v w} fits printed => ?_, fun {v m} fits shallow read back => ?_⟩
  · obtain ⟨m, read, rfl⟩ := Option.map_eq_some_iff.1 printed
    rw [value fits read]
    rfl
  · have room : Json.maxDepth - height + height = Json.maxDepth := Nat.sub_add_cancel low
    have sound : Sound (Json.maxDepth - height) m := h.sound ⟨room.symm ▸ shallow, fits⟩ read
    have legible : (encode m).LegibleWithin Json.maxDepth := ⟨room ▸ h.shallow sound, back⟩
    rw [Json.document?_indented legible, Option.bind_some, value fits read]

/-! ## Names with values -/

namespace Document

variable {v : Json} {name : String} {value : Option Json} {levels : Nat}

/-- A value that is given with a name is that of a part which is not null. -/
theorem exists_of_nameAndValue? (within : v.Within (levels + 1))
    (read : (ofJson v).nameAndValue? = some (name, value)) :
    ∀ w ∈ value, w.Proper ∧ w ≠ .null ∧ w.depth ≤ levels := by
  rw [nameAndValue?, resolve?_ofJson] at read
  cases v with
  | text =>
    cases read
    nofun
  | record given =>
    simp only [ofJson, Option.bind_eq_bind, Option.bind_eq_some_iff] at read
    obtain ⟨fields, named, name, -, value, held, same⟩ := read
    cases same
    intro w mem
    obtain ⟨u, part, some, read⟩ := (within_of_named? within named).of_optional? held w mem
    obtain ⟨proper, shallow, present⟩ := of_json? part read
    exact ⟨proper, present some, shallow⟩
  | _ => cases read

theorem nameAndValue?_record (sound : ∀ w ∈ value, w.Proper ∧ w ≠ .null) :
    (ofJson (.record (("name", .text name) :: Json.optionalField "value" value))).nameAndValue? =
      some (name, value) := by
  have names : ((("name", Json.text name) :: Json.optionalField "value" value).map (·.1)).Sublist
      ["name", "value"] :=
    (names_optionalField "value" value).cons_cons "name"
  rw [nameAndValue?, resolve?_ofJson]
  simp only [ofJson]
  refine Option.bind_eq_some_iff.2 ⟨_, named?_record names (by decide), ?_⟩
  refine Option.bind_eq_some_iff.2 ⟨name, required?_ofRecord (by simp) (text?_text _), ?_⟩
  refine Option.bind_eq_some_iff.2 ⟨value, ?_, rfl⟩
  refine @optional?_ofRecord _ _ _ _ id value (by simp) (fun w mem => (sound w mem).2) ?_
  exact fun w mem => json?_ofJson (sound w mem).1

theorem depth_nameAndValue_le (sound : ∀ w ∈ value, w.depth ≤ levels) :
    (Json.record (("name", .text name) :: Json.optionalField "value" value)).depth ≤
      levels + 1 := by
  refine depth_record_le (List.forall_mem_cons.2 ⟨Nat.zero_le _, ?_⟩)
  exact forall_mem_optionalField.2 sound

/-! ## Lists of names -/

theorem names?_ofStrings (names : List String) :
    (ofJson (.ofStrings names)).names? = some names := by
  rw [names?, resolve?_ofJson]
  simp only [Json.ofStrings, ofJson, ofItems_eq_map, List.map_map]
  induction names with
  | nil => rfl
  | cons name rest ih =>
    rw [List.map_cons, List.mapM_cons, ih]
    rfl

end Document

/-! ## Parts of tasks -/

namespace Parameter

/-- A parameter of which the value is that of a document, and not null. -/
def Sound (levels : Nat) (p : Parameter) : Prop :=
  ∀ v ∈ p.value, v.Proper ∧ v ≠ .null ∧ v.depth ≤ levels

theorem matches_decode? : Matches decode? encode 1 Sound where
  sound := by
    intro levels v m within read
    obtain ⟨⟨name, value⟩, given, rfl⟩ := Option.map_eq_some_iff.1 read
    exact Document.exists_of_nameAndValue? within given
  restored := by
    intro levels p sound
    rw [decode?, encode, Document.nameAndValue?_record fun v mem =>
      ⟨(sound v mem).1, (sound v mem).2.1⟩]
    rfl
  shallow sound := Document.depth_nameAndValue_le fun v mem => (sound v mem).2.2

end Parameter

namespace DataSlot

theorem decode?_encode (s : DataSlot) : decode? (ofJson s.encode) = some s := by
  obtain ⟨name, value⟩ := s
  have sound : ∀ v ∈ value.map Json.text, v.Proper ∧ v ≠ .null := by
    intro v mem
    obtain ⟨text, -, rfl⟩ := Option.mem_map.1 mem
    exact ⟨trivial, nofun⟩
  rw [decode?, encode, Document.nameAndValue?_record sound]
  cases value <;> rfl

theorem list?_encode (slots : List DataSlot) :
    list? decode? (ofJson (.list (slots.map encode))) = some slots :=
  list?_ofItems fun s _ => s.decode?_encode

theorem matches_decode? : Matches decode? encode 1 fun _ _ => True where
  sound _ _ := trivial
  restored _ := decode?_encode _
  shallow _ := by
    refine Document.depth_nameAndValue_le fun v mem => ?_
    obtain ⟨text, -, rfl⟩ := Option.mem_map.1 mem
    exact Nat.zero_le _

end DataSlot

namespace Configuration

def Sound (levels : Nat) (c : Configuration) : Prop := ∀ p ∈ c.parameters, p.Sound levels

variable {levels : Nat} {c : Configuration}

theorem names_encode {fields : List (String × Json)} (shape : c.encode = .record fields) :
    (fields.map (·.1)).Sublist fieldNames := by
  cases shape
  simp only [List.map_append]
  have front := (List.Sublist.refl ["task"]).append
    (names_optionalField "implementation" (c.implementation.map .text))
  have parameters := front.append
    (names_listField "parameters" (c.parameters.map Parameter.encode))
  have lists := parameters.append (names_optionalField "inputs" (c.inputs.map Json.ofStrings))
  exact lists.append (names_optionalField "outputs" (c.outputs.map Json.ofStrings))

/-- Lists that are given stay apart from lists that are absent, even if they are empty. -/
theorem withDefault?_names {fields : List (String × Json)} {name : String}
    {names : Option (List String)} (found : Json.lookUp name fields = names.map Json.ofStrings) :
    (Document.Fields.ofRecord fields).withDefault? name none (fun d => d.names?.map some) =
      some names := by
  cases names with
  | none =>
    rw [Document.Fields.withDefault?, Document.Fields.get?_ofRecord, found]
    rfl
  | some names =>
    refine withDefault?_ofRecord found ?_
    rw [Document.names?_ofStrings]
    rfl

theorem matches_decode? : Matches decode? encode 3 Sound where
  sound := by
    intro levels v c within read
    simp only [decode?, Option.bind_eq_bind, Option.bind_eq_some_iff] at read
    obtain ⟨fields, known, task, -, implementation, -, parameters, given, inputs, -, outputs, -,
      same⟩ := read
    cases same
    exact Parameter.matches_decode?.sound_default (within_of_fields? within known) given
  restored := by
    intro levels c sound
    rw [encode, decode?]
    refine Option.bind_eq_some_iff.2 ⟨_, fields?_record (names_encode rfl) (by decide), ?_⟩
    refine Option.bind_eq_some_iff.2 ⟨c.task, required?_ofRecord (by simp) (text?_text _), ?_⟩
    refine Option.bind_eq_some_iff.2 ⟨c.implementation, optional?_text (by simp), ?_⟩
    refine Option.bind_eq_some_iff.2 ⟨c.parameters, withDefault?_listField (by simp) fun p mem =>
      Parameter.matches_decode?.restored (sound p mem), ?_⟩
    refine Option.bind_eq_some_iff.2 ⟨c.inputs, withDefault?_names (by simp), ?_⟩
    refine Option.bind_eq_some_iff.2 ⟨c.outputs, withDefault?_names (by simp), ?_⟩
    rfl
  shallow := by
    intro levels c sound
    have names (given : Option (List String)) :
        ∀ v ∈ given.map Json.ofStrings, v.depth ≤ levels + 2 := by
      intro v mem
      obtain ⟨names, -, rfl⟩ := Option.mem_map.1 mem
      exact (depth_ofStrings_le names).trans (by omega)
    refine depth_record_le ?_
    simp only [List.forall_mem_append, List.forall_mem_singleton, forall_mem_optionalField]
    refine ⟨⟨⟨⟨Nat.zero_le _, ?_⟩, forall_mem_listField ?_⟩, names _⟩, names _⟩
    · intro v mem
      obtain ⟨text, -, rfl⟩ := Option.mem_map.1 mem
      exact Nat.zero_le _
    · exact Parameter.matches_decode?.shallow_list sound

end Configuration

namespace Task

def Sound (levels : Nat) (t : Task) : Prop := ∀ p ∈ t.parameters, p.Sound levels

variable {t : Task}

theorem names_encode {fields : List (String × Json)} (shape : t.encode = .record fields) :
    (fields.map (·.1)).Sublist fieldNames := by
  cases shape
  simp only [List.map_append]
  have owner : ((if t.workflow.isEmpty then [] else [("workflow", Json.text t.workflow)]).map
      (·.1)).Sublist ["workflow"] := by
    split
    · exact List.nil_sublist _
    · exact List.Sublist.refl _
  exact (((List.Sublist.refl ["name"]).append owner).append (names_optionalField "implementation"
    (t.implementation.map .text))).append (.refl ["parameters", "inputs", "outputs"])

theorem matches_decode? : Matches decode? encode 3 Sound where
  sound := by
    intro levels v t within read
    simp only [decode?, Option.bind_eq_bind, Option.bind_eq_some_iff] at read
    obtain ⟨fields, known, name, -, workflow, -, implementation, -, parameters, given, inputs, -,
      outputs, -, same⟩ := read
    cases same
    exact Parameter.matches_decode?.sound_default (within_of_fields? within known) given
  restored := by
    intro levels t sound
    have owner : (if t.workflow.isEmpty then none else some (Json.text t.workflow)) =
          some (.text t.workflow) ∨
        (if t.workflow.isEmpty then none else some (Json.text t.workflow)) = none ∧
          t.workflow = "" := by
      split
      · next empty => exact .inr ⟨rfl, String.isEmpty_iff.1 empty⟩
      · exact .inl rfl
    rw [encode, decode?]
    refine Option.bind_eq_some_iff.2 ⟨_, fields?_record (names_encode rfl) (by decide), ?_⟩
    refine Option.bind_eq_some_iff.2 ⟨t.name, required?_ofRecord (by simp) (text?_text _), ?_⟩
    refine Option.bind_eq_some_iff.2
      ⟨t.workflow, withDefault?_ofRecord_or (by simpa using owner) (text?_text _), ?_⟩
    refine Option.bind_eq_some_iff.2 ⟨t.implementation, optional?_text (by simp), ?_⟩
    refine Option.bind_eq_some_iff.2 ⟨t.parameters,
      withDefault?_ofRecord (by simp) (Parameter.matches_decode?.restored_list sound), ?_⟩
    refine Option.bind_eq_some_iff.2
      ⟨t.inputs, withDefault?_ofRecord (by simp) (Document.names?_ofStrings _), ?_⟩
    refine Option.bind_eq_some_iff.2
      ⟨t.outputs, withDefault?_ofRecord (by simp) (Document.names?_ofStrings _), ?_⟩
    rfl
  shallow := by
    intro levels t sound
    refine depth_record_le ?_
    simp only [List.forall_mem_append, List.forall_mem_cons, forall_mem_optionalField]
    refine ⟨⟨⟨⟨Nat.zero_le _, forall_mem_nil _⟩, ?_⟩, ?_⟩,
      Parameter.matches_decode?.shallow_list sound, (depth_ofStrings_le _).trans (by omega),
      (depth_ofStrings_le _).trans (by omega), forall_mem_nil _⟩
    · split
      · exact forall_mem_nil _
      · simp [Json.depth]
    · intro v mem
      obtain ⟨text, -, rfl⟩ := Option.mem_map.1 mem
      exact Nat.zero_le _

end Task

namespace Chain

theorem decode?_encode (c : Chain) : decode? (ofJson c.encode) = some c := by
  rw [decode?, encode, list?_ofStrings]
  rfl

end Chain

namespace Workflow

def Sound (levels : Nat) (w : Workflow) : Prop :=
  (∀ t ∈ w.tasks, t.Sound levels) ∧ ∀ c ∈ w.configurations, c.Sound levels

variable {w : Workflow}

theorem names_encode {fields : List (String × Json)} (shape : w.encode = .record fields) :
    (fields.map (·.1)).Sublist fieldNames := by
  cases shape
  simp only [List.map_append]
  have front := ((List.Sublist.refl ["name"]).append (names_optionalField "parent"
    (w.parent.map .text))).append (.refl ["tasks", "data"])
  exact (front.append (names_optionalField "chain" (w.chain.map Chain.encode))).append
    (names_listField "taskConfigurations" (w.configurations.map Configuration.encode))

theorem matches_decode? : Matches decode? encode 5 Sound where
  sound := by
    intro levels v w within read
    simp only [decode?, Option.bind_eq_bind, Option.bind_eq_some_iff] at read
    obtain ⟨fields, known, name, -, parent, -, tasks, declared, data, -, chain, -, configurations,
      given, same⟩ := read
    cases same
    have parts := within_of_fields? within known
    exact ⟨Task.matches_decode?.sound_default parts declared,
      Configuration.matches_decode?.sound_default parts given⟩
  restored := by
    intro levels w sound
    have listed : ∀ c ∈ w.chain, c.encode ≠ Json.null := by
      intro c _ same
      cases same
    rw [encode, decode?]
    refine Option.bind_eq_some_iff.2 ⟨_, fields?_record (names_encode rfl) (by decide), ?_⟩
    refine Option.bind_eq_some_iff.2 ⟨w.name, required?_ofRecord (by simp) (text?_text _), ?_⟩
    refine Option.bind_eq_some_iff.2 ⟨w.parent, optional?_text (by simp), ?_⟩
    refine Option.bind_eq_some_iff.2 ⟨w.tasks,
      withDefault?_ofRecord (by simp) (Task.matches_decode?.restored_list sound.1), ?_⟩
    refine Option.bind_eq_some_iff.2 ⟨w.data,
      withDefault?_ofRecord (by simp) (DataSlot.list?_encode _), ?_⟩
    refine Option.bind_eq_some_iff.2 ⟨w.chain,
      optional?_ofRecord (by simp) listed fun c _ => c.decode?_encode, ?_⟩
    refine Option.bind_eq_some_iff.2 ⟨w.configurations, withDefault?_listField (by simp)
      fun c mem => Configuration.matches_decode?.restored (sound.2 c mem), ?_⟩
    rfl
  shallow := by
    intro levels w sound
    refine depth_record_le ?_
    simp only [List.forall_mem_append, List.forall_mem_cons, forall_mem_optionalField]
    refine ⟨⟨⟨⟨⟨Nat.zero_le _, forall_mem_nil _⟩, ?_⟩,
      Task.matches_decode?.shallow_list sound.1, ?_, forall_mem_nil _⟩, ?_⟩,
      forall_mem_listField (Configuration.matches_decode?.shallow_list sound.2)⟩
    · intro v mem
      obtain ⟨text, -, rfl⟩ := Option.mem_map.1 mem
      exact Nat.zero_le _
    · exact DataSlot.matches_decode?.shallow_list fun _ _ => trivial
    · intro v mem
      obtain ⟨c, -, rfl⟩ := Option.mem_map.1 mem
      exact (depth_ofStrings_le _).trans (by omega)

end Workflow

end Sweep
