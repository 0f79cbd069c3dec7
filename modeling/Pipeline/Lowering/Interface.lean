/-
Interfaces: what a template declares for the ports of its component.

The declaration depends on the ports alone. Parameters and artifacts are
declared in the order of the ports; volumes and secrets are bound through scopes
and declared nowhere.
-/
import Pipeline.Component.Basic
import Pipeline.Lowering.Placeholder
import Pipeline.Manifest.Basic
import Pipeline.Text.JoinedPath

set_option autoImplicit false

namespace Pipeline

open Manifest (Arguments Artifact Parameter)

namespace Port

/-- The parameter that an input port declares. A list stands for its current element. -/
def inputParameter? (port : Port) : Option Parameter :=
  match port.type with
  | .parameter => some (.named port.name)
  | .parameterArray => some (.withValue port.name Placeholder.item)
  | _ => none

/-- The artifact that an input port declares. In a container it is placed in the directory for
artifacts, under the name of the port. -/
def inputArtifact? (root : Option String) (port : Port) : Option Artifact :=
  match port.type, root with
  | .artifact, some root => some (.atPath port.name (JoinedPath.join [root, port.name]))
  | .artifact, none => some (.named port.name)
  | _, _ => none

/-- The parameter that an output port of a composite declares, before it has a source. -/
def outputParameter? (port : Port) : Option Parameter :=
  if port.type.isParameter then some (.named port.name) else none

/-- The artifact that an output port of a composite declares, before it has a source. -/
def outputArtifact? (port : Port) : Option Artifact :=
  if port.type = .artifact then some (.named port.name) else none

end Port

namespace Component

/-- The inputs that the template of a component declares. A container has a directory for
artifacts. -/
def inputInterface (component : Component) (root : Option String) : Arguments where
  parameters := component.inputs.filterMap Port.inputParameter?
  artifacts := component.inputs.filterMap (Port.inputArtifact? root)

/-- The outputs that the template of a composite declares, before they have sources. -/
def outputInterface (component : Component) : Arguments where
  parameters := component.outputs.filterMap Port.outputParameter?
  artifacts := component.outputs.filterMap Port.outputArtifact?

end Component

end Pipeline
