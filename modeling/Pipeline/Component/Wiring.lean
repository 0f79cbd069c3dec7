/-
Connections inside a composite component.

Three kinds of connection carry values: a mapping from an input of the composite
to an input of one of its nodes, an edge from an output of one node to an input
of a sibling, and a mapping from an output of a node to an output of the
composite.
-/
import Pipeline.Port

set_option autoImplicit false

namespace Pipeline

/-- A port of a node. -/
structure PortRef where
  node : String
  port : String
  deriving DecidableEq

namespace PortRef

def toJson (ref : PortRef) : Json :=
  Json.record [Json.field "node" (.string ref.node), Json.field "port" (.string ref.port)]

def ofJson? (document : Json) : Option PortRef :=
  match document.fields? ["node", "port"] with
  | some [node, port] => do
    return { node := ← Json.required Json.string? node
             port := ← Json.required Json.string? port }
  | _ => none

end PortRef

/-- A connection from an output of a node to an input of a sibling. -/
structure Edge where
  source : PortRef
  target : PortRef
  deriving DecidableEq

namespace Edge

def toJson (edge : Edge) : Json :=
  Json.record [Json.field "source" edge.source.toJson, Json.field "target" edge.target.toJson]

def ofJson? (document : Json) : Option Edge :=
  match document.fields? ["source", "target"] with
  | some [source, target] => do
    return { source := ← Json.required PortRef.ofJson? source
             target := ← Json.required PortRef.ofJson? target }
  | _ => none

end Edge

/-- A connection from an input of the composite to an input of a node. -/
structure InputMapping where
  source : String
  target : PortRef
  deriving DecidableEq

namespace InputMapping

def toJson (mapping : InputMapping) : Json :=
  Json.record
    [Json.field "source" (.string mapping.source), Json.field "target" mapping.target.toJson]

def ofJson? (document : Json) : Option InputMapping :=
  match document.fields? ["source", "target"] with
  | some [source, target] => do
    return { source := ← Json.required Json.string? source
             target := ← Json.required PortRef.ofJson? target }
  | _ => none

end InputMapping

/-- A connection from an output of a node to an output of the composite. -/
structure OutputMapping where
  source : PortRef
  target : String
  deriving DecidableEq

namespace OutputMapping

def toJson (mapping : OutputMapping) : Json :=
  Json.record
    [Json.field "source" mapping.source.toJson, Json.field "target" (.string mapping.target)]

def ofJson? (document : Json) : Option OutputMapping :=
  match document.fields? ["source", "target"] with
  | some [source, target] => do
    return { source := ← Json.required PortRef.ofJson? source
             target := ← Json.required Json.string? target }
  | _ => none

end OutputMapping

end Pipeline
