import Sweep.Document.Reading
import Sweep.Workflow.Basic

/-!
# Workflows in documents

Each model is decoded from a document and encoded as a data value. A parameter or data slot may be
given by its name alone, and a single input or output without a list. Encoding leaves out what is
absent; what it writes decodes to the same model.
-/

namespace Sweep

open Document (text? json? list? fields? named?)

/-- A field that is written only if it has a value. -/
def Json.optionalField (name : String) (value : Option Json) : List (String × Json) :=
  match value with
  | some value => [(name, value)]
  | none => []

/-- A field that is written only if its list has items. -/
def Json.listField (name : String) (items : List Json) : List (String × Json) :=
  if items.isEmpty then [] else [(name, .list items)]

/-- Reads a model that is given by its name alone or as a record of a name and a value. -/
def Document.nameAndValue? (d : Document) : Option (String × Option Json) :=
  match d.resolve? with
  | some (.text name) => some (name, none)
  | some (.record fields) => do
    let fields ← named? ["name", "value"] (.record fields)
    let name ← fields.required? "name" text?
    let value ← fields.optional? "value" json?
    return (name, value)
  | _ => none

/-- Reads a list of names; one name stands for a list of one, and null or no text for none. -/
def Document.names? (d : Document) : Option (List String) :=
  match d.resolve? with
  | some .null | some (.text "") => some []
  | some (.text name) => some [name]
  | some (.list items) => items.mapM fun item =>
    match item with
    | .text name => some name
    | _ => none
  | _ => none

namespace Parameter

def decode? (d : Document) : Option Parameter :=
  d.nameAndValue?.map fun (name, value) => ⟨name, value⟩

def encode (p : Parameter) : Json :=
  .record (("name", .text p.name) :: Json.optionalField "value" p.value)

end Parameter

namespace DataSlot

/-- A value that is no text becomes the text that it is written as. -/
def decode? (d : Document) : Option DataSlot :=
  d.nameAndValue?.map fun (name, value) => ⟨name, value.map Json.asText⟩

def encode (s : DataSlot) : Json :=
  .record (("name", .text s.name) :: Json.optionalField "value" (s.value.map .text))

end DataSlot

namespace Configuration

def fieldNames : List String :=
  ["task", "implementation", "parameters", "inputs", "outputs"]

def decode? (d : Document) : Option Configuration := do
  let fields ← fields? fieldNames d
  let task ← fields.required? "task" text?
  let implementation ← fields.optional? "implementation" text?
  let parameters ← fields.withDefault? "parameters" [] (list? Parameter.decode?)
  let inputs ← fields.withDefault? "inputs" none fun d => d.names?.map some
  let outputs ← fields.withDefault? "outputs" none fun d => d.names?.map some
  return { task, implementation, parameters, inputs, outputs }

def encode (c : Configuration) : Json :=
  .record <|
    [("task", .text c.task)] ++
    Json.optionalField "implementation" (c.implementation.map .text) ++
    Json.listField "parameters" (c.parameters.map Parameter.encode) ++
    Json.optionalField "inputs" (c.inputs.map Json.ofStrings) ++
    Json.optionalField "outputs" (c.outputs.map Json.ofStrings)

end Configuration

namespace Task

def fieldNames : List String :=
  ["name", "workflow", "implementation", "parameters", "inputs", "outputs"]

def decode? (d : Document) : Option Task := do
  let fields ← fields? fieldNames d
  let name ← fields.required? "name" text?
  let workflow ← fields.withDefault? "workflow" "" text?
  let implementation ← fields.optional? "implementation" text?
  let parameters ← fields.withDefault? "parameters" [] (list? Parameter.decode?)
  let inputs ← fields.withDefault? "inputs" [] Document.names?
  let outputs ← fields.withDefault? "outputs" [] Document.names?
  return { name, workflow, implementation, parameters, inputs, outputs }

def encode (t : Task) : Json :=
  .record <|
    [("name", .text t.name)] ++
    (if t.workflow.isEmpty then [] else [("workflow", .text t.workflow)]) ++
    Json.optionalField "implementation" (t.implementation.map .text) ++
    [("parameters", .list (t.parameters.map Parameter.encode)),
     ("inputs", Json.ofStrings t.inputs),
     ("outputs", Json.ofStrings t.outputs)]

end Task

namespace Chain

def decode? (d : Document) : Option Chain :=
  (list? text? d).map Chain.mk

def encode (c : Chain) : Json := Json.ofStrings c.elements

end Chain

namespace Workflow

def fieldNames : List String :=
  ["name", "parent", "tasks", "data", "chain", "taskConfigurations"]

def decode? (d : Document) : Option Workflow := do
  let fields ← fields? fieldNames d
  let name ← fields.required? "name" text?
  let parent ← fields.optional? "parent" text?
  let tasks ← fields.withDefault? "tasks" [] (list? Task.decode?)
  let data ← fields.withDefault? "data" [] (list? DataSlot.decode?)
  let chain ← fields.optional? "chain" Chain.decode?
  let configurations ←
    fields.withDefault? "taskConfigurations" [] (list? Configuration.decode?)
  return { name, parent, tasks, data, chain, configurations }

def encode (w : Workflow) : Json :=
  .record <|
    [("name", .text w.name)] ++
    Json.optionalField "parent" (w.parent.map .text) ++
    [("tasks", .list (w.tasks.map Task.encode)),
     ("data", .list (w.data.map DataSlot.encode))] ++
    Json.optionalField "chain" (w.chain.map Chain.encode) ++
    Json.listField "taskConfigurations" (w.configurations.map Configuration.encode)

end Workflow

end Sweep
