/-
Placeholders and references: how the text of a manifest names values that exist
only when the workflow runs.

A placeholder, in double braces, is replaced by its value before a task starts.
A reference is evaluated as part of an expression, with names in quotes.
-/
import Pipeline.Text.Quoted

set_option autoImplicit false

namespace Pipeline.Placeholder

/-- A path in double braces. -/
def braced (path : String) : String := "\x7b\x7b" ++ path ++ "\x7d\x7d"

/-- The current element of a fan-out. -/
def item : String := braced "item"

/-- An input parameter of the template. -/
def inputParameter (name : String) : String := braced ("inputs.parameters." ++ name)

/-- An input artifact of the template. -/
def inputArtifact (name : String) : String := braced ("inputs.artifacts." ++ name)

/-- The path at which an input artifact of the template is placed. -/
def inputArtifactPath (name : String) : String :=
  braced ("inputs.artifacts." ++ name ++ ".path")

/-- An output parameter of a task. -/
def taskParameter (task name : String) : String :=
  braced ("tasks." ++ task ++ ".outputs.parameters." ++ name)

/-- An output artifact of a task. -/
def taskArtifact (task name : String) : String :=
  braced ("tasks." ++ task ++ ".outputs.artifacts." ++ name)

end Pipeline.Placeholder

namespace Pipeline.Reference

/-- A member that is selected by its quoted name. -/
def member (name : String) : String := "[" ++ Quoted.quote name ++ "]"

/-- An input parameter of the template. -/
def inputParameter (name : String) : String := "inputs.parameters" ++ member name

/-- An output parameter of a task. -/
def taskParameter (task name : String) : String :=
  "tasks" ++ member task ++ ".outputs.parameters" ++ member name

/-- An output artifact of a task. -/
def taskArtifact (task name : String) : String :=
  "tasks" ++ member task ++ ".outputs.artifacts" ++ member name

end Pipeline.Reference
