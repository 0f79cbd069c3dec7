/-
Stored components, by identifier and version.

A registry holds one component for each identifier and version. A component
without a version counts as version zero. Asking for the latest version of an
identifier means the greatest one stored, in whatever order they came.
-/
import Pipeline.Component.Basic

set_option autoImplicit false

namespace Pipeline

/-- A way to answer requests for stored components. -/
abbrev Lookup (ε : Type) := Request → Except ε Component

/-- The version under which a component is stored. -/
def Component.revision (component : Component) : UInt64 := component.version.getD 0

/-- What a component is stored under. -/
def Component.key (component : Component) : ComponentId × UInt64 :=
  (component.id, component.revision)

/-- A collection of components, one for each identifier and version. -/
structure Registry where
  stored : List Component
  distinct : (stored.map Component.key).Nodup

namespace Registry

/-- The registry that stores nothing. -/
def empty : Registry := ⟨[], List.nodup_nil⟩

instance : Inhabited Registry := ⟨empty⟩

/-- Stores a component, in place of an earlier one of the same identifier and version. -/
def insert (registry : Registry) (component : Component) : Registry where
  stored := component :: registry.stored.filter (·.key ≠ component.key)
  distinct := by
    simp only [List.map_cons, List.nodup_cons]
    constructor
    · intro h
      obtain ⟨other, hother, heq⟩ := List.mem_map.1 h
      simp [heq] at hother
    · exact registry.distinct.sublist (List.filter_sublist.map _)

/-- The registry of a list, later components taking the place of earlier ones. -/
def ofList (components : List Component) : Registry := components.foldl insert empty

/-- The component of an identifier and version. -/
def pinned? (registry : Registry) (id : ComponentId) (version : UInt64) : Option Component :=
  registry.stored.find? (·.key = (id, version))

/-- The one of two components with the greater version, the first when they are equal. -/
def newer (best : Option Component) (component : Component) : Option Component :=
  match best with
  | none => some component
  | some other => if other.revision < component.revision then some component else some other

/-- The component of an identifier with the greatest version. -/
def latest? (registry : Registry) (id : ComponentId) : Option Component :=
  (registry.stored.filter (·.id = id)).foldl newer none

/-- The component that a request asks for. -/
def get? (registry : Registry) : Request → Option Component
  | .latest id => registry.latest? id
  | .pinned id version => registry.pinned? id version

/-- The number of identifiers under which something is stored. -/
def size (registry : Registry) : Nat := ((registry.stored.map (·.id)).eraseDups).length

/-- Nothing is stored. -/
def isEmpty (registry : Registry) : Bool := registry.stored.isEmpty

end Registry

/-- A request that a registry cannot answer. -/
structure NotFound where
  request : Request
  deriving DecidableEq

def NotFound.message (fault : NotFound) : String := s!"{fault.request} not found"

/-- The answers of a registry. -/
def Registry.lookup (registry : Registry) : Lookup NotFound := fun request =>
  match registry.get? request with
  | some component => .ok component
  | none => .error ⟨request⟩

end Pipeline
