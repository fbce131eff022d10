import Sweep.Experiment.Basic
import Sweep.Workflow.Codec

/-!
# Experiments in documents

The parameter of a space is one record that holds its name and, under the name of its kind, its
domain. The kind is the first field with such a name; all fields but the name are read by their
meaning, so that an expression has to be a text.
-/

namespace Sweep

open Document (text? json? double? list? fields? nullable?)

namespace RangeSpec

def fieldNames : List String := ["min", "max", "step"]

/-- A range without step has the step one. -/
def decode? (d : Document) : Option RangeSpec := do
  let fields ← fields? fieldNames d
  let min ← fields.required? "min" double?
  let max ← fields.required? "max" double?
  let step ← fields.withDefault? "step" (Binary64.ofInt 1) double?
  return { min, max, step }

def encode (r : RangeSpec) : Json :=
  .record [("min", .ofDouble r.min), ("max", .ofDouble r.max), ("step", .ofDouble r.step)]

end RangeSpec

namespace Domain

/-- The name of a domain's kind. -/
def kind : Domain → String
  | .enumeration _ => "enum"
  | .range _ => "range"
  | .expression _ => "expression"

/-- Reads a domain of a given kind. -/
def ofKind? (kind : String) (d : Document) : Option (Option Domain) :=
  match kind with
  | "enum" => some ((list? json? d).map .enumeration)
  | "range" => some ((RangeSpec.decode? d).map .range)
  | "expression" => some ((text? d).map .expression)
  | _ => none

/-- Reads a domain that stands alone, as a record of one field. -/
def decode? : Document → Option Domain
  | .record [(.text kind, value)] => (ofKind? kind value).join
  | _ => none

def field : Domain → String × Json
  | .enumeration values => ("enum", .list values)
  | .range spec => ("range", spec.encode)
  | .expression text => ("expression", .text text)

end Domain

namespace SpaceParameter

/-- The domain that the first field with the name of a kind holds. -/
def domain? : List (Document × Document) → Option Domain
  | [] => none
  | (name, value) :: rest =>
    match (text? name).bind fun kind => Domain.ofKind? kind value with
    | some domain => domain
    | none => domain? rest

/-- The fields but the name, with every spelling replaced by its meaning. -/
def resolveOthers? : List (Document × Document) → Option (List (Document × Document))
  | [] => some []
  | (name, value) :: rest => do
    let others ← resolveOthers? rest
    if text? name = some "name" then return others
    else
      let value ← value.resolve?
      return (name, value) :: others

def decode? : Document → Option SpaceParameter
  | .record fields => do
    let known ← Document.knownFields? ["name"] fields []
    let name ← known.required? "name" text?
    let domain ← domain? (← resolveOthers? fields)
    return { name, domain }
  | _ => none

def encode (p : SpaceParameter) : Json :=
  .record [("name", .text p.name), p.domain.field]

end SpaceParameter

namespace Space

def fieldNames : List String :=
  ["name", "workflow", "strategy", "parameters", "taskConfigurations", "data"]

def decode? (d : Document) : Option Space := do
  let fields ← fields? fieldNames d
  let name ← fields.required? "name" text?
  let workflow ← fields.required? "workflow" text?
  let strategy ← fields.withDefault? "strategy" defaultStrategy text?
  let parameters ← fields.withDefault? "parameters" [] (list? SpaceParameter.decode?)
  let configurations ←
    fields.withDefault? "taskConfigurations" [] (list? Configuration.decode?)
  let data ← fields.withDefault? "data" [] (list? DataSlot.decode?)
  return { name, workflow, strategy, parameters, configurations, data }

def encode (s : Space) : Json :=
  .record <|
    [("name", .text s.name), ("workflow", .text s.workflow), ("strategy", .text s.strategy),
     ("parameters", .list (s.parameters.map SpaceParameter.encode))] ++
    Json.listField "taskConfigurations" (s.configurations.map Configuration.encode) ++
    Json.listField "data" (s.data.map DataSlot.encode)

end Space

namespace Transition

def fieldNames : List String := ["from", "to", "condition"]

def decode? (d : Document) : Option Transition := do
  let fields ← fields? fieldNames d
  let source ← fields.required? "from" text?
  let target ← fields.required? "to" text?
  let condition ← fields.optional? "condition" text?
  return { source, target, condition }

def encode (t : Transition) : Json :=
  .record <|
    [("from", .text t.source), ("to", .text t.target)] ++
    Json.optionalField "condition" (t.condition.map .text)

end Transition

namespace Experiment

def fieldNames : List String := ["name", "spaces", "data", "control"]

def decode? (d : Document) : Option Experiment := do
  let fields ← fields? fieldNames d
  let name ← fields.required? "name" text?
  let spaces ← fields.withDefault? "spaces" [] (list? Space.decode?)
  let data ← fields.withDefault? "data" [] (list? DataSlot.decode?)
  let control ← fields.optional? "control" (list? Transition.decode?)
  return { name, spaces, data, control }

def encode (e : Experiment) : Json :=
  .record <|
    [("name", .text e.name), ("spaces", .list (e.spaces.map Space.encode)),
     ("data", .list (e.data.map DataSlot.encode))] ++
    Json.optionalField "control" (e.control.map fun ts => .list (ts.map Transition.encode))

end Experiment

end Sweep
