/-
Bricks: components that run a container.

A brick says which image to run, which arguments to pass, and where the values
of its outputs are found when the container has ended. An argument is a literal
or the value of an input port; the port's type decides how it is rendered,
unless the argument says so itself.
-/
import Pipeline.Port

set_option autoImplicit false

namespace Pipeline

/-! ## Containers -/

/-- The container that a brick runs. -/
structure ContainerSpec where
  image : String
  command : List String
  workingDir : Option String
  /-- Literal environment variables. -/
  env : KeyMap String
  deriving DecidableEq

namespace ContainerSpec

/-- A container with the image's own command and nothing else. -/
def ofImage (image : String) : ContainerSpec := ⟨image, [], none, .empty⟩

def toJson (container : ContainerSpec) : Json :=
  Json.record
    [Json.field "image" (.string container.image),
     Json.fieldUnlessEmpty "command" .string container.command,
     Json.field? "working_dir" .string container.workingDir,
     Json.mapUnlessEmpty "env" .string container.env]

def ofJson? (document : Json) : Option ContainerSpec :=
  match document.fields? ["image", "command", "working_dir", "env"] with
  | some [image, command, workingDir, env] => do
    return { image := ← Json.required Json.string? image
             command := ← Json.defaulted (Json.list? Json.string?) [] command
             workingDir := ← Json.optional Json.string? workingDir
             env := ← Json.defaulted (Json.keyMap? Json.string?) .empty env }
  | _ => none

end ContainerSpec

/-! ## Arguments -/

/-- How the value of a port appears in an argument. -/
inductive Rendering where
  /-- As its text. -/
  | parameter
  /-- As the path at which the artifact is placed. -/
  | artifact
  /-- Not on the command line at all, but as a mount. -/
  | volume
  deriving DecidableEq

namespace Rendering

def name : Rendering → String
  | .parameter => "parameter"
  | .artifact => "artifact"
  | .volume => "volume"

def ofName? : String → Option Rendering
  | "parameter" => some .parameter
  | "artifact" => some .artifact
  | "volume" => some .volume
  | _ => none

theorem ofName?_name (rendering : Rendering) : ofName? rendering.name = some rendering := by
  cases rendering <;> rfl

def toJson (rendering : Rendering) : Json := .string rendering.name

def ofJson? (document : Json) : Option Rendering := Json.name? ofName? document

end Rendering

/-- Where the value of an argument comes from. -/
inductive ArgumentSource where
  | literal (value : String)
  /-- An input port, rendered as its type says unless `rendering` overrides it. -/
  | port (name : String) (rendering : Option Rendering)
  deriving DecidableEq

namespace ArgumentSource

def toJson : ArgumentSource → Json
  | .literal value =>
    Json.record [Json.field "type" (.string "literal"), Json.field "value" (.string value)]
  | .port name rendering =>
    Json.record
      [Json.field "type" (.string "port"), Json.field "name" (.string name),
       Json.field? "kind" Rendering.toJson rendering]

def ofJson? (document : Json) : Option ArgumentSource :=
  match document.tagged? "type" with
  | some ("literal", rest) =>
    match rest.fields? ["value"] with
    | some [value] => do return .literal (← Json.required Json.string? value)
    | _ => none
  | some ("port", rest) =>
    match rest.fields? ["name", "kind"] with
    | some [name, kind] => do
      return .port (← Json.required Json.string? name) (← Json.optional Rendering.ofJson? kind)
    | _ => none
  | _ => none

end ArgumentSource

/-- An argument of a container: a value between two literals. -/
structure Argument where
  source : ArgumentSource
  leading : Option String
  trailing : Option String
  deriving DecidableEq

namespace Argument

/-- The literal in front of the value. -/
def lead (argument : Argument) : String := argument.leading.getD ""

/-- The literal behind the value. -/
def trail (argument : Argument) : String := argument.trailing.getD ""

/-- A literal argument. -/
def literal (value : String) : Argument := ⟨.literal value, none, none⟩

/-- The value of an input port, rendered as the port's type says. -/
def port (name : String) : Argument := ⟨.port name none, none, none⟩

/-- The argument with another rendering; a literal has none. -/
def rendered (argument : Argument) (rendering : Rendering) : Argument :=
  match argument.source with
  | .literal _ => argument
  | .port name _ => { argument with source := .port name (some rendering) }

def toJson (argument : Argument) : Json :=
  Json.record
    [Json.field "source" argument.source.toJson,
     Json.field? "prefix" .string argument.leading,
     Json.field? "suffix" .string argument.trailing]

def ofJson? (document : Json) : Option Argument :=
  match document.fields? ["source", "prefix", "suffix"] with
  | some [source, leading, trailing] => do
    return { source := ← Json.required ArgumentSource.ofJson? source
             leading := ← Json.optional Json.string? leading
             trailing := ← Json.optional Json.string? trailing }
  | _ => none

end Argument

/-! ## Results -/

/-- Where the value of an output is found. -/
inductive ResultSource where
  /-- In a file of the container. -/
  | file (path : String)
  /-- It is the volume of an input port. -/
  | volume (input : String)
  deriving DecidableEq

namespace ResultSource

def toJson : ResultSource → Json
  | .file path =>
    Json.record [Json.field "type" (.string "file"), Json.field "path" (.string path)]
  | .volume input =>
    Json.record [Json.field "type" (.string "volume"), Json.field "name" (.string input)]

def ofJson? (document : Json) : Option ResultSource :=
  match document.tagged? "type" with
  | some ("file", rest) =>
    match rest.fields? ["path"] with
    | some [path] => do return .file (← Json.required Json.string? path)
    | _ => none
  | some ("volume", rest) =>
    match rest.fields? ["name"] with
    | some [name] => do return .volume (← Json.required Json.string? name)
    | _ => none
  | _ => none

end ResultSource

/-- The source of one output of a brick. -/
structure BrickResult where
  port : String
  source : ResultSource
  deriving DecidableEq

namespace BrickResult

def toJson (result : BrickResult) : Json :=
  Json.record
    [Json.field "port" (.string result.port), Json.field "source" result.source.toJson]

def ofJson? (document : Json) : Option BrickResult :=
  match document.fields? ["port", "source"] with
  | some [port, source] => do
    return { port := ← Json.required Json.string? port
             source := ← Json.required ResultSource.ofJson? source }
  | _ => none

end BrickResult

/-! ## Bricks -/

/-- A component that runs a container. -/
structure Brick where
  container : ContainerSpec
  args : List Argument
  results : List BrickResult
  deriving DecidableEq

namespace Brick

/-- The first result for an output port. -/
def result? (brick : Brick) (port : String) : Option BrickResult :=
  brick.results.find? (·.port = port)

/-- The fields of a brick. -/
def members (brick : Brick) : List (Option (String × Json)) :=
  [Json.field "container" brick.container.toJson,
   Json.field "args" (.array (brick.args.map Argument.toJson)),
   Json.field "results" (.array (brick.results.map BrickResult.toJson))]

def toJson (brick : Brick) : Json := Json.record brick.members

def ofJson? (document : Json) : Option Brick :=
  match document.fields? ["container", "args", "results"] with
  | some [container, args, results] => do
    return { container := ← Json.required ContainerSpec.ofJson? container
             args := ← Json.defaulted (Json.list? Argument.ofJson?) [] args
             results := ← Json.defaulted (Json.list? BrickResult.ofJson?) [] results }
  | _ => none

end Brick

end Pipeline
