/-
Components as documents.

Writing follows the tree. Reading is parameterised by the reader of nodes, which
is the one place where the tree closes on itself: `node?` may descend as often as
its fuel says. A node lies strictly inside the document of the composite around
it, so the depth of a document is always fuel enough, and the readers of whole
documents take it from there.
-/
import Pipeline.Component.Basic

set_option autoImplicit false

namespace Pipeline

/-! ## Writing -/

mutual

/-- The fields of a component. -/
def Component.members : Component → List (Option (String × Json))
  | ⟨id, name, description, modifier, timestamp, version, inputs, outputs, implementation⟩ =>
    [Json.field "id" id.toJson,
     Json.field "name" (.string name),
     Json.field? "description" .string description,
     Json.field? "modifier" .string modifier,
     Json.field? "timestamp" Instant.toJson timestamp,
     Json.field? "version" Json.ofUInt64 version,
     Json.field "inputs" (.array (inputs.map Port.toJson)),
     Json.field "outputs" (.array (outputs.map Port.toJson)),
     Json.field "implementation" implementation.toJson]
termination_by structural component => component

def Implementation.toJson : Implementation → Json
  | .brick block => Json.record (Json.field "type" (.string "brick") :: block.members)
  | .graph block => Json.record (Json.field "type" (.string "graph") :: block.members)
  | .map block => Json.record (Json.field "type" (.string "map") :: block.members)
  | .conditional block => Json.record (Json.field "type" (.string "conditional") :: block.members)
  | .any => Json.record [Json.field "type" (.string "any")]
termination_by structural implementation => implementation

/-- The fields of a graph. -/
def Graph.members : Graph → List (Option (String × Json))
  | ⟨nodes, edges, inputMappings, outputMappings⟩ =>
    [Json.field "nodes" (.array (Node.listToJson nodes)),
     Json.field "edges" (.array (edges.map Edge.toJson)),
     Json.field "input_mappings" (.array (inputMappings.map InputMapping.toJson)),
     Json.field "output_mappings" (.array (outputMappings.map OutputMapping.toJson))]
termination_by structural graph => graph

/-- The fields of a map. -/
def MapBlock.members : MapBlock → List (Option (String × Json))
  | ⟨node, inputMappings, outputMappings⟩ =>
    [Json.field "node" node.toJson,
     Json.field "input_mappings" (.array (inputMappings.map InputMapping.toJson)),
     Json.field "output_mappings" (.array (outputMappings.map OutputMapping.toJson))]
termination_by structural map => map

/-- The fields of a conditional. -/
def Conditional.members : Conditional → List (Option (String × Json))
  | ⟨nodeTrue, nodeFalse, condition, inputMappings, outputMappings⟩ =>
    [Json.field "node_true" nodeTrue.toJson,
     Node.optionToField nodeFalse,
     Json.field "expression" condition.toJson,
     Json.field "input_mappings" (.array (inputMappings.map InputMapping.toJson)),
     Json.field "output_mappings" (.array (outputMappings.map OutputMapping.toJson))]
termination_by structural conditional => conditional

def Node.toJson : Node → Json
  | ⟨id, target⟩ => Json.record [Json.field "id" (.string id), Json.field "node" target.toJson]
termination_by structural node => node

def Node.listToJson : List Node → List Json
  | [] => []
  | node :: nodes => node.toJson :: Node.listToJson nodes
termination_by structural nodes => nodes

/-- The field of the branch for a false condition. -/
def Node.optionToField : Option Node → Option (String × Json)
  | none => none
  | some node => some ("node_false", node.toJson)
termination_by structural node => node

def NodeRef.toJson : NodeRef → Json
  | .inline component =>
    Json.record (Json.field "type" (.string "component") :: component.members)
  | .latest id =>
    Json.record [Json.field "type" (.string "reference"), Json.field "id" id.toJson]
  | .pinned id version =>
    Json.record
      [Json.field "type" (.string "reference_version"), Json.field "id" id.toJson,
       Json.field "version" (Json.ofUInt64 version)]
termination_by structural ref => ref

end

def Component.toJson (component : Component) : Json := Json.record component.members

def Graph.toJson (graph : Graph) : Json := Json.record graph.members

def MapBlock.toJson (map : MapBlock) : Json := Json.record map.members

def Conditional.toJson (conditional : Conditional) : Json := Json.record conditional.members

/-! ## Reading, up to the nodes -/

namespace Document

variable (node? : Json → Option Node)

def graph? (document : Json) : Option Graph :=
  match document.fields? ["nodes", "edges", "input_mappings", "output_mappings"] with
  | some [nodes, edges, inputMappings, outputMappings] => do
    return { nodes := ← Json.defaulted (Json.list? node?) [] nodes
             edges := ← Json.defaulted (Json.list? Edge.ofJson?) [] edges
             inputMappings := ←
               Json.defaulted (Json.list? InputMapping.ofJson?) [] inputMappings
             outputMappings := ←
               Json.defaulted (Json.list? OutputMapping.ofJson?) [] outputMappings }
  | _ => none

def map? (document : Json) : Option MapBlock :=
  match document.fields? ["node", "input_mappings", "output_mappings"] with
  | some [node, inputMappings, outputMappings] => do
    return { node := ← Json.required node? node
             inputMappings := ←
               Json.defaulted (Json.list? InputMapping.ofJson?) [] inputMappings
             outputMappings := ←
               Json.defaulted (Json.list? OutputMapping.ofJson?) [] outputMappings }
  | _ => none

def conditional? (document : Json) : Option Conditional :=
  match document.fields?
      ["node_true", "node_false", "expression", "input_mappings", "output_mappings"] with
  | some [nodeTrue, nodeFalse, condition, inputMappings, outputMappings] => do
    return { nodeTrue := ← Json.required node? nodeTrue
             nodeFalse := ← Json.optional node? nodeFalse
             condition := ← Json.required Condition.ofJson? condition
             inputMappings := ←
               Json.defaulted (Json.list? InputMapping.ofJson?) [] inputMappings
             outputMappings := ←
               Json.defaulted (Json.list? OutputMapping.ofJson?) [] outputMappings }
  | _ => none

/-- The variant without fields; an array may hold nothing but its tag. -/
def any? : Json → Option Implementation
  | .object _ | .array [] => some .any
  | _ => none

def implementation? (document : Json) : Option Implementation :=
  match document.tagged? "type" with
  | some ("brick", rest) => (Brick.ofJson? rest).map .brick
  | some ("graph", rest) => (graph? node? rest).map .graph
  | some ("map", rest) => (map? node? rest).map .map
  | some ("conditional", rest) => (conditional? node? rest).map .conditional
  | some ("any", rest) => any? rest
  | _ => none

def component? (document : Json) : Option Component :=
  match document.fields?
      ["id", "name", "description", "modifier", "timestamp", "version", "inputs", "outputs",
       "implementation"] with
  | some [id, name, description, modifier, timestamp, version, inputs, outputs,
      implementation] => do
    return { id := ← Json.required ComponentId.ofJson? id
             name := ← Json.required Json.string? name
             description := ← Json.optional Json.string? description
             modifier := ← Json.optional Json.string? modifier
             timestamp := ← Json.optional Instant.ofJson? timestamp
             version := ← Json.optional Json.uint64? version
             inputs := ← Json.defaulted (Json.list? Port.ofJson?) [] inputs
             outputs := ← Json.defaulted (Json.list? Port.ofJson?) [] outputs
             implementation := ← Json.required (implementation? node?) implementation }
  | _ => none

def nodeRef? (document : Json) : Option NodeRef :=
  match document.tagged? "type" with
  | some ("component", rest) => (component? node? rest).map .inline
  | some ("reference", rest) =>
    match rest.fields? ["id"] with
    | some [id] => do return .latest (← Json.required ComponentId.ofJson? id)
    | _ => none
  | some ("reference_version", rest) =>
    match rest.fields? ["id", "version"] with
    | some [id, version] => do
      return .pinned (← Json.required ComponentId.ofJson? id)
        (← Json.required Json.uint64? version)
    | _ => none
  | _ => none

end Document

/-! ## Reading nodes and what contains them -/

/-- A node with at most `fuel` nodes around one another in it. -/
def Document.node? : Nat → Json → Option Node
  | 0, _ => none
  | fuel + 1, document =>
    match document.fields? ["id", "node"] with
    | some [id, target] => do
      return { id := ← Json.required Json.string? id
               target := ← Json.required (Document.nodeRef? (Document.node? fuel)) target }
    | _ => none

/-- The reader of the nodes of a document. -/
def Document.nodeOf? (document : Json) : Json → Option Node := Document.node? document.depth

def Node.ofJson? (document : Json) : Option Node := Document.nodeOf? document document

def NodeRef.ofJson? (document : Json) : Option NodeRef :=
  Document.nodeRef? (Document.nodeOf? document) document

def Graph.ofJson? (document : Json) : Option Graph :=
  Document.graph? (Document.nodeOf? document) document

def MapBlock.ofJson? (document : Json) : Option MapBlock :=
  Document.map? (Document.nodeOf? document) document

def Conditional.ofJson? (document : Json) : Option Conditional :=
  Document.conditional? (Document.nodeOf? document) document

def Implementation.ofJson? (document : Json) : Option Implementation :=
  Document.implementation? (Document.nodeOf? document) document

def Component.ofJson? (document : Json) : Option Component :=
  Document.component? (Document.nodeOf? document) document

end Pipeline
