import Sweep.Proofs.Artifact.RoundTrip
import Sweep.Proofs.Timestamp
import Sweep.Run.Codec

/-!
# Snapshots are read as they were written

Every record of a run lists its fields in one order and leaves out those that are absent, so what is
found under the name of a field is what was written there, or nothing. A snapshot that can be stored
is read from its text as it is: its times are points in time that can be written, its numbers have
64 bits, and the values of its parameters are read back as they were written and not nested deeper
than the reader of documents goes.
-/

namespace Sweep

open Document (ofJson text? nat? list? list?_ofItems timestamp? runStatus? unitStatus? alternative?)

/-! ## Fields of records -/

namespace Json

variable {name other : String}

@[simp] theorem lookUp_optionalText {text : Option String} :
    lookUp name (optionalText other text) = if other = name then text.map .text else none :=
  lookUp_optionalField

@[simp] theorem lookUp_finishField {finishedAt : Option Timestamp} :
    lookUp name (finishField finishedAt) =
      if "finished_at" = name then finishedAt.map Timestamp.encode else none :=
  lookUp_optionalField

end Json

namespace Document

/-! ## Parts of records -/

theorem timestamp?_encode {t : Timestamp} (proper : t.Proper) :
    timestamp? (ofJson t.encode) = some t := by
  rw [Timestamp.encode, timestamp?, text?_text, Option.bind_some, Timestamp.read?_write proper]

theorem nat?_ofNat {n : Nat} (fits : n ≤ Json.maxUnsigned) : nat? (ofJson (.ofNat n)) = some n := by
  have lt : (n : Int) < (1 <<< 64 : Nat) := by
    rw [Json.maxUnsigned] at fits
    omega
  rw [Json.ofNat, Json.ofInt, ofJson, nat?, if_pos ⟨Int.natCast_nonneg n, lt⟩, Int.toNat_natCast]

@[simp] theorem runStatus?_name (s : RunStatus) : runStatus? (ofJson (.text s.name)) = some s := by
  rw [ofJson, runStatus?, alternative?, text?]
  · cases s <;> rfl
  · intro name same
    cases same

@[simp] theorem unitStatus?_name (s : UnitStatus) :
    unitStatus? (ofJson (.text s.name)) = some s := by
  rw [ofJson, unitStatus?, alternative?, text?]
  · cases s <;> rfl
  · intro name same
    cases same

namespace Fields

variable {name : String} {fields : List (String × Json)}

theorem optional?_timestamp {x : Option Timestamp} (proper : ∀ t ∈ x, t.Proper)
    (found : Json.lookUp name fields = x.map Timestamp.encode) :
    (ofRecord fields).optional? name timestamp? = some x :=
  optional?_ofRecord found (fun _ _ => nofun) fun t mem => timestamp?_encode (proper t mem)

theorem optional?_nat {x : Option Nat} (fits : ∀ n ∈ x, n ≤ Json.maxUnsigned)
    (found : Json.lookUp name fields = x.map .ofNat) :
    (ofRecord fields).optional? name nat? = some x :=
  optional?_ofRecord found (fun _ _ => nofun) fun n mem => nat?_ofNat (fits n mem)

end Fields

end Document

open Document (fields?_record timestamp?_encode nat?_ofNat text?_text)
open Json (LegibleWithin names_optionalField)

open Document.Fields (required?_ofRecord withDefault?_ofRecord optional?_ofRecord optional?_text
  optional?_timestamp optional?_nat)

/-! ## Records -/

namespace RunRecord

/-- A record of a run that can be stored. -/
structure Storable (r : RunRecord) : Prop where
  startedAt : r.startedAt.Proper
  updatedAt : r.updatedAt.Proper
  finishedAt : ∀ t ∈ r.finishedAt, t.Proper
  currentSet : ∀ n ∈ r.currentSet, n ≤ Json.maxUnsigned

variable {r : RunRecord}

theorem names_encode {fields : List (String × Json)} (shape : r.encode = .record fields) :
    (fields.map (·.1)).Sublist fieldNames := by
  cases shape
  simp only [List.map_append]
  have path := (List.Sublist.refl ["run_id", "experiment", "version"]).append
    (names_optionalField "artifact_path" (r.artifactPath.map .text))
  have times := (path.append (.refl ["artifact_hash", "status", "started_at", "updated_at"])).append
    (names_optionalField "finished_at" (r.finishedAt.map Timestamp.encode))
  exact (((times.append (names_optionalField "current_space" _)).append
    (names_optionalField "current_param_set" _)).append
      (names_optionalField "current_task" _)).append (names_optionalField "error" _)

theorem decode?_encode (storable : r.Storable) : decode? (ofJson r.encode) = some r := by
  rw [encode, decode?]
  refine Option.bind_eq_some_iff.2 ⟨_, fields?_record (names_encode rfl) (by decide), ?_⟩
  refine Option.bind_eq_some_iff.2 ⟨r.runId, required?_ofRecord (by simp) (text?_text _), ?_⟩
  refine Option.bind_eq_some_iff.2 ⟨r.experiment, required?_ofRecord (by simp) (text?_text _), ?_⟩
  refine Option.bind_eq_some_iff.2 ⟨r.version, required?_ofRecord (by simp) (text?_text _), ?_⟩
  refine Option.bind_eq_some_iff.2 ⟨r.artifactPath, optional?_text (by simp), ?_⟩
  refine Option.bind_eq_some_iff.2 ⟨r.artifactHash, required?_ofRecord (by simp) (text?_text _), ?_⟩
  refine Option.bind_eq_some_iff.2
    ⟨r.status, required?_ofRecord (by simp) (Document.runStatus?_name _), ?_⟩
  refine Option.bind_eq_some_iff.2
    ⟨r.startedAt, required?_ofRecord (by simp) (timestamp?_encode storable.startedAt), ?_⟩
  refine Option.bind_eq_some_iff.2
    ⟨r.updatedAt, required?_ofRecord (by simp) (timestamp?_encode storable.updatedAt), ?_⟩
  refine Option.bind_eq_some_iff.2
    ⟨r.finishedAt, optional?_timestamp storable.finishedAt (by simp), ?_⟩
  refine Option.bind_eq_some_iff.2 ⟨r.currentSpace, optional?_text (by simp), ?_⟩
  refine Option.bind_eq_some_iff.2 ⟨r.currentSet, optional?_nat storable.currentSet (by simp), ?_⟩
  refine Option.bind_eq_some_iff.2 ⟨r.currentTask, optional?_text (by simp), ?_⟩
  refine Option.bind_eq_some_iff.2 ⟨r.error, optional?_text (by simp), ?_⟩
  rfl

end RunRecord

namespace SpaceRecord

structure Storable (r : SpaceRecord) : Prop where
  startedAt : r.startedAt.Proper
  finishedAt : ∀ t ∈ r.finishedAt, t.Proper

variable {r : SpaceRecord}

theorem names_encode {fields : List (String × Json)} (shape : r.encode = .record fields) :
    (fields.map (·.1)).Sublist fieldNames := by
  cases shape
  rw [List.map_append]
  exact (List.Sublist.refl ["space_id", "status", "started_at"]).append (names_optionalField _ _)

theorem decode?_encode (storable : r.Storable) : decode? (ofJson r.encode) = some r := by
  rw [encode, decode?]
  refine Option.bind_eq_some_iff.2 ⟨_, fields?_record (names_encode rfl) (by decide), ?_⟩
  refine Option.bind_eq_some_iff.2 ⟨r.spaceId, required?_ofRecord (by simp) (text?_text _), ?_⟩
  refine Option.bind_eq_some_iff.2
    ⟨r.status, required?_ofRecord (by simp) (Document.unitStatus?_name _), ?_⟩
  refine Option.bind_eq_some_iff.2
    ⟨r.startedAt, required?_ofRecord (by simp) (timestamp?_encode storable.startedAt), ?_⟩
  refine Option.bind_eq_some_iff.2
    ⟨r.finishedAt, optional?_timestamp storable.finishedAt (by simp), ?_⟩
  rfl

end SpaceRecord

namespace SetRecord

/-- How deep a value of a parameter may be nested, to be read inside of a snapshot. -/
def maxValueDepth : Nat := Json.maxDepth - 4

structure Storable (r : SetRecord) : Prop where
  index : r.index ≤ Json.maxUnsigned
  proper : ∀ v ∈ r.parameters.values, v.Proper
  legible : ∀ v ∈ r.parameters.values, v.LegibleWithin maxValueDepth
  startedAt : r.startedAt.Proper
  finishedAt : ∀ t ∈ r.finishedAt, t.Proper

variable {r : SetRecord}

theorem names_encode {fields : List (String × Json)} (shape : r.encode = .record fields) :
    (fields.map (·.1)).Sublist fieldNames := by
  cases shape
  rw [List.map_append]
  exact (List.Sublist.refl ["space_id", "param_set_index", "parameters", "status",
    "started_at"]).append (names_optionalField _ _)

theorem decode?_encode (storable : r.Storable) : decode? (ofJson r.encode) = some r := by
  rw [encode, decode?]
  refine Option.bind_eq_some_iff.2 ⟨_, fields?_record (names_encode rfl) (by decide), ?_⟩
  refine Option.bind_eq_some_iff.2 ⟨r.spaceId, required?_ofRecord (by simp) (text?_text _), ?_⟩
  refine Option.bind_eq_some_iff.2
    ⟨r.index, required?_ofRecord (by simp) (nat?_ofNat storable.index), ?_⟩
  refine Option.bind_eq_some_iff.2 ⟨r.parameters,
    withDefault?_ofRecord (by simp) (ParameterSet.decode?_encode storable.proper), ?_⟩
  refine Option.bind_eq_some_iff.2
    ⟨r.status, required?_ofRecord (by simp) (Document.unitStatus?_name _), ?_⟩
  refine Option.bind_eq_some_iff.2
    ⟨r.startedAt, required?_ofRecord (by simp) (timestamp?_encode storable.startedAt), ?_⟩
  refine Option.bind_eq_some_iff.2
    ⟨r.finishedAt, optional?_timestamp storable.finishedAt (by simp), ?_⟩
  rfl

end SetRecord

namespace TaskRecord

structure Storable (r : TaskRecord) : Prop where
  index : r.index ≤ Json.maxUnsigned
  startedAt : r.startedAt.Proper
  finishedAt : ∀ t ∈ r.finishedAt, t.Proper

variable {r : TaskRecord}

theorem names_encode {fields : List (String × Json)} (shape : r.encode = .record fields) :
    (fields.map (·.1)).Sublist fieldNames := by
  cases shape
  rw [List.map_append, List.map_append]
  exact ((List.Sublist.refl ["space_id", "param_set_index", "task_id", "status",
    "started_at"]).append (names_optionalField _ _)).append (names_optionalField _ _)

theorem decode?_encode (storable : r.Storable) : decode? (ofJson r.encode) = some r := by
  rw [encode, decode?]
  refine Option.bind_eq_some_iff.2 ⟨_, fields?_record (names_encode rfl) (by decide), ?_⟩
  refine Option.bind_eq_some_iff.2 ⟨r.spaceId, required?_ofRecord (by simp) (text?_text _), ?_⟩
  refine Option.bind_eq_some_iff.2
    ⟨r.index, required?_ofRecord (by simp) (nat?_ofNat storable.index), ?_⟩
  refine Option.bind_eq_some_iff.2 ⟨r.taskId, required?_ofRecord (by simp) (text?_text _), ?_⟩
  refine Option.bind_eq_some_iff.2
    ⟨r.status, required?_ofRecord (by simp) (Document.unitStatus?_name _), ?_⟩
  refine Option.bind_eq_some_iff.2
    ⟨r.startedAt, required?_ofRecord (by simp) (timestamp?_encode storable.startedAt), ?_⟩
  refine Option.bind_eq_some_iff.2
    ⟨r.finishedAt, optional?_timestamp storable.finishedAt (by simp), ?_⟩
  refine Option.bind_eq_some_iff.2 ⟨r.error, optional?_text (by simp), ?_⟩
  rfl

end TaskRecord

namespace DataMapping

structure Storable (m : DataMapping) : Prop where
  index : m.index ≤ Json.maxUnsigned
  recordedAt : m.recordedAt.Proper

variable {m : DataMapping}

theorem names_encode {fields : List (String × Json)} (shape : m.encode = .record fields) :
    (fields.map (·.1)).Sublist fieldNames := by
  cases shape
  rw [List.map_append, List.map_append]
  exact ((List.Sublist.refl ["space_id", "param_set_index", "data_name", "value"]).append
    (names_optionalField _ _)).append (.refl ["recorded_at"])

theorem decode?_encode (storable : m.Storable) : decode? (ofJson m.encode) = some m := by
  rw [encode, decode?]
  refine Option.bind_eq_some_iff.2 ⟨_, fields?_record (names_encode rfl) (by decide), ?_⟩
  refine Option.bind_eq_some_iff.2 ⟨m.spaceId, required?_ofRecord (by simp) (text?_text _), ?_⟩
  refine Option.bind_eq_some_iff.2
    ⟨m.index, required?_ofRecord (by simp) (nat?_ofNat storable.index), ?_⟩
  refine Option.bind_eq_some_iff.2 ⟨m.name, required?_ofRecord (by simp) (text?_text _), ?_⟩
  refine Option.bind_eq_some_iff.2 ⟨m.value, required?_ofRecord (by simp) (text?_text _), ?_⟩
  refine Option.bind_eq_some_iff.2 ⟨m.taskId, optional?_text (by simp), ?_⟩
  refine Option.bind_eq_some_iff.2
    ⟨m.recordedAt, required?_ofRecord (by simp) (timestamp?_encode storable.recordedAt), ?_⟩
  rfl

end DataMapping

namespace ControlState

variable {c : ControlState}

theorem names_encode {fields : List (String × Json)} (shape : c.encode = .record fields) :
    (fields.map (·.1)).Sublist fieldNames := by
  cases shape
  exact List.Sublist.refl ["current_space", "updated_at"]

theorem decode?_encode (proper : c.updatedAt.Proper) : decode? (ofJson c.encode) = some c := by
  rw [encode, decode?]
  refine Option.bind_eq_some_iff.2 ⟨_, fields?_record (names_encode rfl) (by decide), ?_⟩
  refine Option.bind_eq_some_iff.2 ⟨c.space, required?_ofRecord (by simp) (text?_text _), ?_⟩
  refine Option.bind_eq_some_iff.2
    ⟨c.updatedAt, required?_ofRecord (by simp) (timestamp?_encode proper), ?_⟩
  rfl

end ControlState

/-! ## Snapshots -/

namespace RunSnapshot

/-- A snapshot that can be stored: all of its records can. -/
structure Storable (x : RunSnapshot) : Prop where
  run : x.run.Storable
  spaces : ∀ r ∈ x.spaces, r.Storable
  sets : ∀ r ∈ x.sets, r.Storable
  tasks : ∀ r ∈ x.tasks, r.Storable
  mappings : ∀ m ∈ x.mappings, m.Storable
  control : ∀ c ∈ x.control, c.updatedAt.Proper

variable {x : RunSnapshot}

theorem names_encode {fields : List (String × Json)} (shape : x.encode = .record fields) :
    (fields.map (·.1)).Sublist fieldNames := by
  cases shape
  rw [List.map_append]
  exact (List.Sublist.refl ["run", "spaces", "param_sets", "tasks", "data_mappings"]).append
    (names_optionalField _ _)

theorem decode?_encode (storable : x.Storable) : decode? (ofJson x.encode) = some x := by
  have list {α : Type} {encode : α → Json} {read? : Document → Option α} {rs : List α}
      (each : ∀ r ∈ rs, read? (ofJson (encode r)) = some r) :
      list? read? (ofJson (.list (rs.map encode))) = some rs := by
    rw [ofJson]
    exact list?_ofItems each
  have present (c : ControlState) : c.encode ≠ .null := by
    rw [ControlState.encode]
    nofun
  rw [encode, decode?]
  refine Option.bind_eq_some_iff.2 ⟨_, fields?_record (names_encode rfl) (by decide), ?_⟩
  refine Option.bind_eq_some_iff.2
    ⟨x.run, required?_ofRecord (by simp) (RunRecord.decode?_encode storable.run), ?_⟩
  refine Option.bind_eq_some_iff.2 ⟨x.spaces, withDefault?_ofRecord (by simp)
    (list fun r mem => SpaceRecord.decode?_encode (storable.spaces r mem)), ?_⟩
  refine Option.bind_eq_some_iff.2 ⟨x.sets, withDefault?_ofRecord (by simp)
    (list fun r mem => SetRecord.decode?_encode (storable.sets r mem)), ?_⟩
  refine Option.bind_eq_some_iff.2 ⟨x.tasks, withDefault?_ofRecord (by simp)
    (list fun r mem => TaskRecord.decode?_encode (storable.tasks r mem)), ?_⟩
  refine Option.bind_eq_some_iff.2 ⟨x.mappings, withDefault?_ofRecord (by simp)
    (list fun m mem => DataMapping.decode?_encode (storable.mappings m mem)), ?_⟩
  refine Option.bind_eq_some_iff.2 ⟨x.control, optional?_ofRecord (by simp) (fun c _ => present c)
    fun c mem => ControlState.decode?_encode (storable.control c mem), ?_⟩
  rfl

end RunSnapshot

/-! ## Texts -/

section Legible

variable {levels : Nat}

theorem Timestamp.legibleWithin_encode (t : Timestamp) : t.encode.LegibleWithin levels := .text _

theorem Json.legibleWithin_optionalText (name : String) (text : Option String) :
    ∀ f ∈ optionalText name text, f.2.LegibleWithin levels := by
  rw [optionalText, forall_mem_optionalField]
  intro value mem
  obtain ⟨s, -, rfl⟩ := Option.map_eq_some_iff.1 mem
  exact .text s

theorem Json.legibleWithin_finishField (finishedAt : Option Timestamp) :
    ∀ f ∈ finishField finishedAt, f.2.LegibleWithin levels := by
  rw [finishField, forall_mem_optionalField]
  intro value mem
  obtain ⟨t, -, rfl⟩ := Option.map_eq_some_iff.1 mem
  exact t.legibleWithin_encode

open Json (legibleWithin_optionalText legibleWithin_finishField)

theorem RunRecord.legibleWithin_encode {r : RunRecord} (storable : r.Storable) :
    r.encode.LegibleWithin (levels + 1) := by
  have set : ∀ f ∈ Json.optionalField "current_param_set" (r.currentSet.map .ofNat),
      f.2.LegibleWithin levels := by
    rw [Json.forall_mem_optionalField]
    intro value mem
    obtain ⟨n, held, rfl⟩ := Option.map_eq_some_iff.1 mem
    exact .ofNat (storable.currentSet n held)
  refine LegibleWithin.record ?_
  simp only [List.forall_mem_append, List.forall_mem_cons]
  refine ⟨⟨⟨⟨⟨⟨⟨⟨.text _, .text _, .text _, nofun⟩, legibleWithin_optionalText _ _⟩,
    .text _, .text _, .text _, .text _, nofun⟩, legibleWithin_finishField _⟩,
    legibleWithin_optionalText _ _⟩, set⟩, legibleWithin_optionalText _ _⟩,
    legibleWithin_optionalText _ _⟩

theorem SpaceRecord.legibleWithin_encode (r : SpaceRecord) :
    r.encode.LegibleWithin (levels + 1) := by
  refine LegibleWithin.record ?_
  simp only [List.forall_mem_append, List.forall_mem_cons]
  exact ⟨⟨.text _, .text _, .text _, nofun⟩, legibleWithin_finishField _⟩

theorem SetRecord.legibleWithin_encode {r : SetRecord} (index : r.index ≤ Json.maxUnsigned)
    (legible : ∀ v ∈ r.parameters.values, v.LegibleWithin levels) :
    r.encode.LegibleWithin (levels + 2) := by
  have parameters : (ParameterSet.encode r.parameters).LegibleWithin (levels + 1) :=
    Table.legibleWithin_encode legible
  refine LegibleWithin.record ?_
  simp only [List.forall_mem_append, List.forall_mem_cons]
  exact ⟨⟨.text _, .ofNat index, parameters, .text _, .text _, nofun⟩, legibleWithin_finishField _⟩

theorem TaskRecord.legibleWithin_encode {r : TaskRecord} (storable : r.Storable) :
    r.encode.LegibleWithin (levels + 1) := by
  refine LegibleWithin.record ?_
  simp only [List.forall_mem_append, List.forall_mem_cons]
  exact ⟨⟨⟨.text _, .ofNat storable.index, .text _, .text _, .text _, nofun⟩,
    legibleWithin_finishField _⟩, legibleWithin_optionalText _ _⟩

theorem DataMapping.legibleWithin_encode {m : DataMapping} (storable : m.Storable) :
    m.encode.LegibleWithin (levels + 1) := by
  refine LegibleWithin.record ?_
  simp only [List.forall_mem_append, List.forall_mem_cons]
  exact ⟨
    ⟨⟨.text _, .ofNat storable.index, .text _, .text _, nofun⟩, legibleWithin_optionalText _ _⟩,
    .text _, nofun⟩

theorem ControlState.legibleWithin_encode (c : ControlState) :
    c.encode.LegibleWithin (levels + 1) := by
  refine LegibleWithin.record ?_
  simp only [List.forall_mem_cons]
  exact ⟨.text _, .text _, nofun⟩

namespace RunSnapshot

variable {x : RunSnapshot}

theorem legibleWithin_encode (storable : x.Storable) : x.encode.LegibleWithin Json.maxDepth := by
  have list {α : Type} {encode : α → Json} {rs : List α}
      (each : ∀ r ∈ rs, (encode r).LegibleWithin (SetRecord.maxValueDepth + 2)) :
      (Json.list (rs.map encode)).LegibleWithin (SetRecord.maxValueDepth + 3) := by
    refine LegibleWithin.list fun item mem => ?_
    obtain ⟨r, among, rfl⟩ := List.mem_map.1 mem
    exact each r among
  have control : ∀ f ∈ Json.optionalField "control" (x.control.map ControlState.encode),
      f.2.LegibleWithin (SetRecord.maxValueDepth + 3) := by
    rw [Json.forall_mem_optionalField]
    intro value mem
    obtain ⟨c, -, rfl⟩ := Option.map_eq_some_iff.1 mem
    exact c.legibleWithin_encode
  refine @LegibleWithin.record (SetRecord.maxValueDepth + 3) _ ?_
  simp only [List.forall_mem_append, List.forall_mem_cons]
  exact ⟨⟨RunRecord.legibleWithin_encode storable.run,
    list fun r _ => r.legibleWithin_encode,
    list fun r mem =>
      SetRecord.legibleWithin_encode (storable.sets r mem).index (storable.sets r mem).legible,
    list fun r mem => TaskRecord.legibleWithin_encode (storable.tasks r mem),
    list fun m mem => DataMapping.legibleWithin_encode (storable.mappings m mem), nofun⟩, control⟩

/-- A snapshot that can be stored is read from its text as it is. -/
theorem read?_write (storable : x.Storable) : read? x.write = some x := by
  rw [read?, write, Json.document?_indented (legibleWithin_encode storable), Option.bind_some,
    decode?_encode storable]

end RunSnapshot

end Legible

end Sweep
