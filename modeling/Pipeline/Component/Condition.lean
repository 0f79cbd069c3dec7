/-
The condition of a conditional component: a comparison of two operands, each a
literal or the value of an input port.
-/
import Pipeline.Port

set_option autoImplicit false

namespace Pipeline

/-- A comparison. -/
inductive Operator where
  | eq
  | ne
  | lt
  | le
  | gt
  | ge
  deriving DecidableEq

namespace Operator

/-- How a comparison is written, in documents as in expressions. -/
def symbol : Operator → String
  | .eq => "=="
  | .ne => "!="
  | .lt => "<"
  | .le => "<="
  | .gt => ">"
  | .ge => ">="

def ofSymbol? : String → Option Operator
  | "==" => some .eq
  | "!=" => some .ne
  | "<" => some .lt
  | "<=" => some .le
  | ">" => some .gt
  | ">=" => some .ge
  | _ => none

instance : ToString Operator := ⟨symbol⟩

theorem ofSymbol?_symbol (operator : Operator) : ofSymbol? operator.symbol = some operator := by
  cases operator <;> rfl

def toJson (operator : Operator) : Json := .string operator.symbol

def ofJson? (document : Json) : Option Operator := Json.name? ofSymbol? document

end Operator

/-- One side of a comparison. -/
inductive Operand where
  | literal (value : String)
  /-- The value of an input port. -/
  | data (port : Port)
  deriving DecidableEq

namespace Operand

def toJson : Operand → Json
  | .literal value =>
    Json.record [Json.field "kind" (.string "literal"), Json.field "value" (.string value)]
  | .data port => Json.record (Json.field "kind" (.string "data") :: port.members)

def ofJson? (document : Json) : Option Operand :=
  match document.tagged? "kind" with
  | some ("literal", rest) =>
    match rest.fields? ["value"] with
    | some [value] => do return .literal (← Json.required Json.string? value)
    | _ => none
  | some ("data", rest) => (Port.ofJson? rest).map .data
  | _ => none

end Operand

/-- A comparison of two operands. -/
structure Condition where
  left : Operand
  operator : Operator
  right : Operand
  deriving DecidableEq

namespace Condition

def toJson (condition : Condition) : Json :=
  Json.record
    [Json.field "left" condition.left.toJson, Json.field "operator" condition.operator.toJson,
     Json.field "right" condition.right.toJson]

def ofJson? (document : Json) : Option Condition :=
  match document.fields? ["left", "operator", "right"] with
  | some [left, operator, right] => do
    return { left := ← Json.required Operand.ofJson? left
             operator := ← Json.required Operator.ofJson? operator
             right := ← Json.required Operand.ofJson? right }
  | _ => none

end Condition

end Pipeline
