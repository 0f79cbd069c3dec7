/-
What can go wrong when components are lowered to templates.

A tree may fail its validation; a node may still hold a reference; a connection
may name a port that is not declared, or carry what cannot be carried there; a
job may give a value that its input cannot take; a volume or secret may not be
bound. The places around a cause are the components that were being lowered.
-/
import Pipeline.Component.Validation

set_option autoImplicit false

namespace Pipeline

/-- Why an input of the root cannot take a value. -/
inductive ValueFault where
  | boundTwice
  | listForScalar (type : PortType)
  /-- The text does not denote a volume, or a key of a secret. -/
  | malformed
  deriving DecidableEq

/-- The text of a reason. That a text is no JSON of the wanted form is said without details. -/
def ValueFault.message : ValueFault → String
  | .boundTwice => "bound more than once"
  | .listForScalar type => s!"array value for a {type} port"
  | .malformed => "<json>"

/-- Why components cannot be lowered. -/
inductive LoweringFault where
  | invalid (error : ValidationError)
  | notDereferenced (node variant : String)
  | unsupportedImplementation (kind : String)
  | unknownPort (direction : Direction) (port : String)
  | unknownNode (node : String)
  | unsupportedArgument (port : String) (type : PortType)
  | unsupportedEdge (node port : String) (type : PortType)
  | unsupportedOutput (port : String) (type : PortType)
  | missingResult (port : String)
  | conflictingFanOut (task : String)
  | branchMismatch (nodeTrue nodeFalse : String) (direction : Direction)
  | falseBranchMapping (nodeTrue port : String) (direction : Direction)
  | invalidOperand (name : String) (type : PortType)
  | unknownInput (target : String)
  | invalidValue (target : String) (reason : ValueFault)
  | unboundVolume (port : String)
  | unboundSecret (port : String)
  | unresolvedClaim (node port : String)
  | claimCycle (node port : String) (bound : Nat)
  deriving DecidableEq

def LoweringFault.message : LoweringFault → String
  | .invalid error => error.message
  | .notDereferenced node variant =>
    s!"node '{node}' holds a {variant}, expected an inline component"
  | .unsupportedImplementation kind => s!"implementation '{kind}' cannot be transpiled"
  | .unknownPort direction port => s!"no {direction} port named '{port}'"
  | .unknownNode node => s!"node '{node}' is not part of the enclosing scope"
  | .unsupportedArgument port type => s!"{type} port '{port}' cannot be rendered as an argument"
  | .unsupportedEdge node port type =>
    s!"edge into port '{port}' of node '{node}' carries unsupported type {type}"
  | .unsupportedOutput port type => s!"{type} output '{port}' cannot be exported"
  | .missingResult port => s!"output '{port}' has no file result"
  | .conflictingFanOut task => s!"task '{task}' fans out over more than one parameter array"
  | .branchMismatch nodeTrue nodeFalse direction =>
    s!"conditional branches '{nodeTrue}' and '{nodeFalse}' declare different {direction} ports"
  | .falseBranchMapping nodeTrue port direction =>
    s!"conditional {direction} mapping of port '{port}' must go through true branch '{nodeTrue}'"
  | .invalidOperand name type => s!"operand '{name}' of type {type} cannot be compared"
  | .unknownInput target => s!"job value targets unknown root input '{target}'"
  | .invalidValue target reason => s!"invalid value for root input '{target}': {reason.message}"
  | .unboundVolume port => s!"no volume is bound to input '{port}'"
  | .unboundSecret port => s!"no secret is bound to input '{port}'"
  | .unresolvedClaim node port =>
    s!"volume claim on port '{port}' of node '{node}' cannot be resolved"
  | .claimCycle node port bound =>
    s!"volume claim on port '{port}' of node '{node}' loops after {bound} steps"

/-- A fault, and the components around the place where it arose. -/
abbrev LoweringError := Located ComponentId LoweringFault

/-- How messages name the place of an error. -/
def componentPlace (id : ComponentId) : String := s!"in component {id}"

def LoweringError.message (error : LoweringError) : String :=
  Located.message componentPlace LoweringFault.message error

/-- Work that lowers components. -/
abbrev Lowered (α : Type) := Except LoweringError α

/-- A fault at the place where work began. -/
def fault {α : Type} (cause : LoweringFault) : Lowered α := .error (.here cause)

/-! ## Looking things up -/

/-- The input of a component, which has to be declared. -/
def Component.input (component : Component) (name : String) : Lowered Port :=
  match component.input? name with
  | some port => .ok port
  | none => fault (.unknownPort .input name)

/-- The output of a component, which has to be declared. -/
def Component.output (component : Component) (name : String) : Lowered Port :=
  match component.output? name with
  | some port => .ok port
  | none => fault (.unknownPort .output name)

/-- The component at a node, which has to be inline. -/
def Node.component (node : Node) : Lowered Component :=
  match node.target with
  | .inline component => .ok component
  | ref => fault (.notDereferenced node.id ref.variant)

/-- The component at the node of an identifier. -/
def Graph.component (graph : Graph) (id : String) : Lowered Component :=
  match graph.node? id with
  | some node => node.component
  | none => fault (.unknownNode id)

end Pipeline
