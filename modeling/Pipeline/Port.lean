/-
Ports: the named, typed inputs and outputs of components.

The type of a port says by which channel its value travels. Parameters and
artifacts are passed from task to task; volumes and secrets are resources of the
whole workflow, to which a component is given access.
-/
import Pipeline.Json.Record

set_option autoImplicit false

namespace Pipeline

/-- What travels through a port. -/
inductive PortType where
  /-- A string. -/
  | parameter
  /-- A list of strings, over which a task can fan out. -/
  | parameterArray
  /-- A file or directory. -/
  | artifact
  /-- A mounted volume. -/
  | volume
  /-- A secret, given to the container in its environment. -/
  | envSecret
  deriving DecidableEq

namespace PortType

/-- The name of a port type in documents and messages. -/
def name : PortType → String
  | .parameter => "parameter"
  | .parameterArray => "parameter_array"
  | .artifact => "artifact"
  | .volume => "volume"
  | .envSecret => "env_secret"

/-- The port type of a name. -/
def ofName? : String → Option PortType
  | "parameter" => some .parameter
  | "parameter_array" => some .parameterArray
  | "artifact" => some .artifact
  | "volume" => some .volume
  | "env_secret" => some .envSecret
  | _ => none

instance : ToString PortType := ⟨name⟩

/-- One or many strings. -/
def isParameter : PortType → Bool
  | .parameter | .parameterArray => true
  | _ => false

theorem ofName?_name (type : PortType) : ofName? type.name = some type := by
  cases type <;> rfl

def toJson (type : PortType) : Json := .string type.name

def ofJson? (document : Json) : Option PortType := Json.name? ofName? document

end PortType

/-- A named and typed input or output. -/
structure Port where
  name : String
  type : PortType
  deriving DecidableEq

namespace Port

/-- The first port of a name. -/
def find? (ports : List Port) (name : String) : Option Port :=
  ports.find? (·.name = name)

/-- The fields of a port. -/
def members (port : Port) : List (Option (String × Json)) :=
  [Json.field "name" (.string port.name), Json.field "type" port.type.toJson]

def toJson (port : Port) : Json := Json.record port.members

def ofJson? (document : Json) : Option Port :=
  match document.fields? ["name", "type"] with
  | some [name, type] => do
    return { name := ← Json.required Json.string? name
             type := ← Json.required PortType.ofJson? type }
  | _ => none

end Port

/-- Whether a port is an input or an output. -/
inductive Direction where
  | input
  | output
  deriving DecidableEq

/-- The name of a direction in messages. -/
def Direction.name : Direction → String
  | .input => "input"
  | .output => "output"

instance : ToString Direction := ⟨Direction.name⟩

end Pipeline
