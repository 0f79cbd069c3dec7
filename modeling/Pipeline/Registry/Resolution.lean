/-
Resolving references: a tree in which every reference is replaced by the
component that it stands for, recursively.

Resolution asks a lookup, one request per reference, depth first and children in
order, and stops at the first failure. The requests are part of the answer, also
of a failed one, since asking is what resolution does to the world. A reference
whose request is already being resolved further out would lead in a circle; it is
refused without asking.

`Component.expand` follows the tree and leaves to its argument what a reference
stands for. `resolve` is that argument: it asks, and expands the answer with a
trail that is one request longer. Trails cannot grow for ever, so every lookup,
finite or not, is answered.
-/
import Pipeline.Located
import Pipeline.Job
import Pipeline.Registry.Basic
import Pipeline.Registry.Trail

set_option autoImplicit false

namespace Pipeline

/-! ## Failures -/

/-- Why a reference cannot be resolved. -/
inductive ResolutionFault (ε : Type) where
  | lookup (node : String) (request : Request) (cause : ε)
  | cycle (node : String) (request : Request)
  deriving DecidableEq

namespace ResolutionFault

variable {ε : Type}

/-- The node whose reference is not resolved. -/
def node : ResolutionFault ε → String
  | .lookup node _ _ => node
  | .cycle node _ => node

/-- The request of the reference that is not resolved. -/
def request : ResolutionFault ε → Request
  | .lookup _ request _ => request
  | .cycle _ request => request

def message (cause : ε → String) : ResolutionFault ε → String
  | .lookup node request fault => s!"failed to look up {request} for node '{node}': {cause fault}"
  | .cycle node request => s!"node '{node}' requests {request}, which is already being resolved"

end ResolutionFault

/-- A failure, and the nodes around the reference. -/
abbrev ResolutionError (ε : Type) := Located String (ResolutionFault ε)

/-! ## Work that asks -/

/-- What some work came to, and the requests that it made, in order. -/
structure Asked (ε α : Type) where
  requests : List Request
  outcome : Except ε α

namespace Asked

variable {ε α β : Type}

/-- An outcome without any request. -/
def pure (value : α) : Asked ε α := ⟨[], .ok value⟩

/-- A failure without any request. -/
def fail (error : ε) : Asked ε α := ⟨[], .error error⟩

/-- Work that goes on with an outcome; after a failure nothing more is asked. -/
def bind (work : Asked ε α) (next : α → Asked ε β) : Asked ε β :=
  match work with
  | ⟨requests, .error error⟩ => ⟨requests, .error error⟩
  | ⟨requests, .ok value⟩ =>
    let rest := next value
    ⟨requests ++ rest.requests, rest.outcome⟩

instance : Monad (Asked ε) where
  pure := pure
  bind := bind

/-- A request, and what follows from its answer. -/
def after (request : Request) (work : Asked ε α) : Asked ε α :=
  ⟨request :: work.requests, work.outcome⟩

/-- Puts a place around a failure. -/
def inside {ι : Type} (place : ι) (work : Asked (Located ι ε) α) : Asked (Located ι ε) α :=
  ⟨work.requests, Pipeline.inside place work.outcome⟩

end Asked

/-! ## Following the tree -/

/-- What a reference stands for, given the node that holds it and what it asks for. -/
abbrev Resolver (ε : Type) := String → Request → Asked (ResolutionError ε) Component

variable {ε : Type}

mutual

/-- The component with every reference in it resolved. -/
def Component.expand (resolver : Resolver ε) : Component → Asked (ResolutionError ε) Component
  | ⟨id, name, description, modifier, timestamp, version, inputs, outputs, .brick block⟩ =>
    pure ⟨id, name, description, modifier, timestamp, version, inputs, outputs, .brick block⟩
  | ⟨id, name, description, modifier, timestamp, version, inputs, outputs, .any⟩ =>
    pure ⟨id, name, description, modifier, timestamp, version, inputs, outputs, .any⟩
  | ⟨id, name, description, modifier, timestamp, version, inputs, outputs,
      .graph ⟨nodes, edges, inputMappings, outputMappings⟩⟩ => do
    let nodes ← Node.expandAll resolver nodes
    return ⟨id, name, description, modifier, timestamp, version, inputs, outputs,
      .graph ⟨nodes, edges, inputMappings, outputMappings⟩⟩
  | ⟨id, name, description, modifier, timestamp, version, inputs, outputs,
      .map ⟨node, inputMappings, outputMappings⟩⟩ => do
    let node ← node.expand resolver
    return ⟨id, name, description, modifier, timestamp, version, inputs, outputs,
      .map ⟨node, inputMappings, outputMappings⟩⟩
  | ⟨id, name, description, modifier, timestamp, version, inputs, outputs,
      .conditional ⟨nodeTrue, none, condition, inputMappings, outputMappings⟩⟩ => do
    let nodeTrue ← nodeTrue.expand resolver
    return ⟨id, name, description, modifier, timestamp, version, inputs, outputs,
      .conditional ⟨nodeTrue, none, condition, inputMappings, outputMappings⟩⟩
  | ⟨id, name, description, modifier, timestamp, version, inputs, outputs,
      .conditional ⟨nodeTrue, some nodeFalse, condition, inputMappings, outputMappings⟩⟩ => do
    let nodeTrue ← nodeTrue.expand resolver
    let nodeFalse ← nodeFalse.expand resolver
    return ⟨id, name, description, modifier, timestamp, version, inputs, outputs,
      .conditional ⟨nodeTrue, some nodeFalse, condition, inputMappings, outputMappings⟩⟩
termination_by structural component => component

/-- The node with its reference, or those below its component, resolved. -/
def Node.expand (resolver : Resolver ε) : Node → Asked (ResolutionError ε) Node
  | ⟨id, target⟩ => do
    let component ← target.expand resolver id
    return ⟨id, .inline component⟩
termination_by structural node => node

/-- The component that a node holds after its reference, or those below its component, are
resolved. -/
def NodeRef.expand (resolver : Resolver ε) :
    NodeRef → String → Asked (ResolutionError ε) Component
  | .inline component, id => Asked.inside id (component.expand resolver)
  | .latest stored, id => resolver id (.latest stored)
  | .pinned stored version, id => resolver id (.pinned stored version)
termination_by structural ref => ref

def Node.expandAll (resolver : Resolver ε) :
    List Node → Asked (ResolutionError ε) (List Node)
  | [] => pure []
  | node :: nodes => do
    let node ← node.expand resolver
    let nodes ← Node.expandAll resolver nodes
    return node :: nodes
termination_by structural nodes => nodes

end

/-! ## Asking -/

/-- The component that a request stands for at a node, when the requests of the trail are being
resolved around it. -/
def resolve (lookup : Lookup ε) (trail : Trail) (node : String) (request : Request) :
    Asked (ResolutionError ε) Component :=
  -- A circle is seen before anything is asked.
  if h : request ∈ trail.requests then .fail (.here (.cycle node request))
  else
    Asked.after request <|
      match lookup request with
      | .error cause => .fail (.here (.lookup node request cause))
      | .ok component =>
        Asked.inside node (component.expand (resolve lookup (trail.push request h)))
termination_by trail.room
decreasing_by exact trail.room_push_lt _ _

/-- The component with every reference in it resolved by a lookup. -/
def Component.dereference (lookup : Lookup ε) (component : Component) :
    Asked (ResolutionError ε) Component :=
  component.expand (resolve lookup .empty)

/-- The node with every reference in it resolved by a lookup. -/
def Node.dereference (lookup : Lookup ε) (node : Node) : Asked (ResolutionError ε) Node :=
  node.expand (resolve lookup .empty)

/-- The component that a node of this identifier holds after resolution. -/
def NodeRef.dereference (lookup : Lookup ε) (id : String) (ref : NodeRef) :
    Asked (ResolutionError ε) Component :=
  ref.expand (resolve lookup .empty) id

/-- The identifier under which messages speak of the root of a job. -/
def rootNode : String := "root"

/-- The job with every reference in its root resolved by a lookup. -/
def Job.dereference (lookup : Lookup ε) (job : Job) : Asked (ResolutionError ε) Job := do
  let component ← job.workflow.component.dereference lookup rootNode
  return { job with workflow := { job.workflow with component := .inline component } }

end Pipeline
