/-
Schemas of the documents that are submitted.

A schema here covers the outermost fields of a kind of document: which ones there
are, of which JSON type, and which have to be present.
-/
import Pipeline.Json.Record

set_option autoImplicit false

namespace Pipeline.Schema

/-- A field of a document. -/
structure Field where
  name : String
  /-- The JSON types that its value may have. -/
  types : List String
  isRequired : Bool

/-- The fields of a component, a job or a workflow. -/
def fields? : String → Option (List Field)
  | "component" => some
    [⟨"id", ["string"], true⟩, ⟨"name", ["string"], true⟩,
     ⟨"description", ["string", "null"], false⟩, ⟨"modifier", ["string", "null"], false⟩,
     ⟨"timestamp", ["string", "null"], false⟩, ⟨"version", ["integer", "null"], false⟩,
     ⟨"inputs", ["array"], false⟩, ⟨"outputs", ["array"], false⟩,
     ⟨"implementation", ["object"], true⟩]
  | "job" => some [⟨"workflow", ["object"], true⟩, ⟨"inputs", ["array"], false⟩]
  | "workflow" => some
    [⟨"id", ["string"], true⟩, ⟨"name", ["string"], true⟩, ⟨"workspace", ["string"], true⟩,
     ⟨"component", ["object"], true⟩]
  | _ => none

/-- The names under which there are schemas. -/
def names : List String := ["component", "job", "workflow"]

/-- The schema of an object with these fields. -/
def ofFields (title : String) (fields : List Field) : Json :=
  Json.record
    [Json.field "title" (.string title), Json.field "type" (.string "object"),
     Json.field "properties" (.object (fields.map fun field =>
       (field.name, Json.record [Json.field "type" (Json.ofStrings field.types)]))),
     Json.field "required"
       (Json.ofStrings ((fields.filter (·.isRequired)).map (·.name)))]

/-- The schema of a name. -/
def ofName? (name : String) : Option Json := (fields? name).map (ofFields name)

end Pipeline.Schema
