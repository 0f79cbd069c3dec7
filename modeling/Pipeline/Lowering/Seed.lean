/-
Seeds: what the values of a job contribute before its root is lowered.

Strings and lists become arguments of the workflow, a list as the JSON text of
its items. The payload of a volume or secret input is a JSON text: a volume is
declared by the workflow and bound by its name, a secret is bound as it is. Of
several volumes of one name the first is declared. Values for artifacts are
accepted and have no effect.
-/
import Pipeline.Job
import Pipeline.Json.Printer
import Pipeline.Json.Reader
import Pipeline.Lowering.Templates

set_option autoImplicit false

namespace Pipeline

open Manifest (Arguments SecretKey Volume)

/-- What values contribute to a workflow. -/
structure Seed where
  arguments : Arguments
  volumes : List Volume
  scopes : Scopes

namespace Seed

/-- What no values contribute. -/
def empty : Seed := ⟨.empty, [], .empty⟩

/-! ## Contributions by type -/

/-- One more argument of the workflow. -/
def addArgument (seed : Seed) (port value : String) : Seed :=
  { seed with arguments := seed.arguments.addParameter (.withValue port value) }

/-- A volume is bound to a port, and declared unless one of its name is declared already. -/
def bindVolume (seed : Seed) (port : String) (volume : Volume) : Seed :=
  { seed with
    volumes :=
      if seed.volumes.any (·.name = volume.name) then seed.volumes
      else seed.volumes ++ [volume]
    scopes := { seed.scopes with volumes := seed.scopes.volumes.insert port volume.name } }

/-- A key of a secret is bound to a port. -/
def bindSecret (seed : Seed) (port : String) (secret : SecretKey) : Seed :=
  { seed with scopes := { seed.scopes with secrets := seed.scopes.secrets.insert port secret } }

/-- What the text of a payload denotes. -/
def denoted {α : Type} (ofJson? : Json → Option α) (text : String) : Except ValueFault α :=
  match (Json.parse? text).bind ofJson? with
  | some value => .ok value
  | none => .error .malformed

/-! ## Values -/

/-- A port is given a value. -/
def give (seed : Seed) (port : Port) (payload : Payload) : Except ValueFault Seed :=
  match port.type, payload with
  | .artifact, _ => .ok seed
  -- A list may also be given as a text, which is taken as it is.
  | .parameter, .text value | .parameterArray, .text value => .ok (seed.addArgument port.name value)
  | .parameterArray, .list values =>
    .ok (seed.addArgument port.name ((Json.ofStrings values).text .compact))
  | .volume, .text text => (denoted Volume.ofJson? text).map (seed.bindVolume port.name)
  | .envSecret, .text text => (denoted SecretKey.ofJson? text).map (seed.bindSecret port.name)
  | type, .list _ => .error (.listForScalar type)

/-- The input of the root that a value is for, which has to be declared. -/
def targetOf (root : Component) (value : InputValue) : Lowered Port :=
  match root.input? value.target with
  | some port => .ok port
  | none => fault (.unknownInput value.target)

/-- The contributions of values, in order, where some inputs are bound already. -/
def giveAll (root : Component) (bound : List String) (seed : Seed) :
    List InputValue → Lowered Seed
  | [] => .ok seed
  | value :: values => do
    let port ← targetOf root value
    -- A second value is refused whatever it is.
    if port.name ∈ bound then fault (.invalidValue value.target .boundTwice)
    else
      match seed.give port value.payload with
      | .error reason => fault (.invalidValue value.target reason)
      | .ok seed => seed.giveAll root (port.name :: bound) values

/-- What the values of a job contribute. -/
def ofValues (root : Component) (values : List InputValue) : Lowered Seed :=
  empty.giveAll root [] values

end Seed

end Pipeline
