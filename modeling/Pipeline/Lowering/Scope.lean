/-
Scopes: the volumes and secrets that are bound to the inputs of a component.

They belong to the workflow, and tasks do not pass them on. What a component may
use is what its parent hands down: narrowing a scope follows the bindings from
the parent's inputs to the child's, and what is not mapped is not seen.
-/
import Pipeline.Lowering.Fault
import Pipeline.Manifest.Basic

set_option autoImplicit false

namespace Pipeline

/-- Resources, by the input ports to which they are bound. -/
abbrev Scope (β : Type) := KeyMap β

/-- Keys of secrets that are bound to secret ports. -/
abbrev SecretScope := Scope Manifest.SecretKey

/-- Names of volumes that are bound to volume ports. -/
abbrev VolumeScope := Scope String

namespace Scope

variable {β : Type}

/-- The scope of a child, by pairs of an input of the parent and an input of the child. A pair whose
outer port is not bound binds nothing; of two pairs for one inner port the later counts. -/
def narrow (scope : Scope β) (bindings : List (String × String)) : Scope β :=
  KeyMap.ofList (bindings.filterMap fun binding =>
    (scope.get? binding.1).map fun value => (binding.2, value))

end Scope

/-- A variable for each secret among the input ports, which have to be bound. -/
def SecretScope.variables (secrets : SecretScope) (inputs : List Port) :
    Lowered (List Manifest.EnvVar) :=
  (inputs.filter (·.type = .envSecret)).mapM fun port =>
    match secrets.get? port.name with
    | some secret => .ok (.ofSecret port.name secret)
    | none => fault (.unboundSecret port.name)

/-- The pairs that the mappings into a node bind. -/
def InputMapping.bindings (mappings : List InputMapping) (node : String) :
    List (String × String) :=
  (mappings.filter (·.target.node = node)).map fun mapping => (mapping.source, mapping.target.port)

end Pipeline
