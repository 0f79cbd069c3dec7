/-
Containers: the template of a brick.

Each argument of the brick becomes either an argument of the container or, when
its port is rendered as a volume, a mount. Environment variables are the literal
ones in order of their names, and then one for each secret input. Every output
that a task can pass on needs a file in which its value is found.
-/
import Pipeline.Lowering.Interface
import Pipeline.Lowering.Scope

set_option autoImplicit false

namespace Pipeline

open Manifest (Arguments Artifact Container EnvVar Parameter Template VolumeMount)

/-! ## Arguments -/

/-- What an argument of a brick becomes. -/
inductive RenderedArgument where
  | text (value : String)
  | mount (volumeMount : VolumeMount)
  deriving DecidableEq

/-- How a port of a type is rendered when its argument does not say. -/
def PortType.rendering? : PortType → Option Rendering
  | .parameter | .parameterArray => some .parameter
  | .artifact => some .artifact
  | .volume => some .volume
  | .envSecret => none

namespace Argument

/-- A value between the two literals of an argument. -/
def decorate (argument : Argument) (value : String) : String :=
  argument.lead ++ value ++ argument.trail

/-- How the argument for a port is rendered: as it says itself, or else as the type of the port
says. -/
def rendering (override : Option Rendering) (port : Port) : Lowered Rendering :=
  match override, port.type.rendering? with
  | some rendering, _ => .ok rendering
  | none, some rendering => .ok rendering
  | none, none => fault (.unsupportedArgument port.name port.type)

/-- What an argument becomes in the template of a component. -/
def render (argument : Argument) (component : Component) (volumes : VolumeScope) :
    Lowered RenderedArgument :=
  match argument.source with
  | .literal value => .ok (.text (argument.decorate value))
  | .port name override => do
    let port ← component.input name
    match ← rendering override port with
    | .parameter => return .text (argument.decorate (Placeholder.inputParameter name))
    | .artifact => return .text (argument.decorate (Placeholder.inputArtifactPath name))
    | .volume =>
      match volumes.get? name with
      | some volume =>
        return .mount ⟨volume, JoinedPath.join [argument.lead, name, argument.trail]⟩
      | none => fault (.unboundVolume name)

end Argument

namespace RenderedArgument

/-- The argument of the container. -/
def text? : RenderedArgument → Option String
  | .text value => some value
  | .mount _ => none

/-- The mount of the container. -/
def mount? : RenderedArgument → Option VolumeMount
  | .text _ => none
  | .mount volumeMount => some volumeMount

end RenderedArgument

/-! ## Outputs -/

namespace Brick

/-- The file in which the value of an output is found. -/
def resultFile (brick : Brick) (port : Port) : Lowered String :=
  match (brick.result? port.name).map BrickResult.source with
  | some (.file path) => .ok path
  | _ => fault (.missingResult port.name)

/-- The outputs that a brick declares for ports, each with its file. -/
def outputInterface (brick : Brick) : List Port → Lowered Arguments
  | [] => .ok .empty
  | port :: ports =>
    match port.type with
    -- A task passes neither volumes nor secrets on.
    | .volume | .envSecret => brick.outputInterface ports
    | .artifact => do
      let path ← brick.resultFile port
      let rest ← brick.outputInterface ports
      return { rest with artifacts := .atPath port.name path :: rest.artifacts }
    | .parameter | .parameterArray => do
      let path ← brick.resultFile port
      let rest ← brick.outputInterface ports
      return { rest with parameters := ⟨port.name, none, some (.ofPath path)⟩ :: rest.parameters }

/-! ## Templates -/

/-- The template that runs the container of a brick. -/
def template (brick : Brick) (component : Component) (secrets : SecretScope)
    (volumes : VolumeScope) (artifactRoot : String) : Lowered Template := do
  let rendered ← brick.args.mapM (·.render component volumes)
  let secretVariables ← secrets.variables component.inputs
  let literals := brick.container.env.entries.map fun (name, value) => EnvVar.literal name value
  let outputs ← brick.outputInterface component.outputs
  return .ofContainer component.id.text (component.inputInterface (some artifactRoot)) outputs
    { image := brick.container.image
      command := brick.container.command
      args := rendered.filterMap RenderedArgument.text?
      workingDir := brick.container.workingDir
      env := literals ++ secretVariables
      volumeMounts := rendered.filterMap RenderedArgument.mount? }

end Brick

end Pipeline
