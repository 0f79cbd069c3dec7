/-
Guards: the condition of a conditional, as the text that decides which task
runs, and as the expression that selects between their outputs.

In the guard of a task literals stand as they are, since placeholders are
replaced before the guard is evaluated. In an expression a literal that is not a
number is quoted, and as soon as one side is a number the values of ports are
converted, so that both sides are compared as numbers.
-/
import Pipeline.Lowering.Fault
import Pipeline.Lowering.Placeholder
import Pipeline.Number.Numeral

set_option autoImplicit false

namespace Pipeline

namespace Operand

/-- The input port of an operand, which has to be declared and to hold one string. -/
def comparable (port : Port) (inputs : List Port) : Lowered Port :=
  match Port.find? inputs port.name with
  | none => fault (.unknownPort .input port.name)
  | some declared =>
    if declared.type = .parameter then .ok declared
    else fault (.invalidOperand declared.name declared.type)

/-- The operand in a guard. -/
def guardText (operand : Operand) (inputs : List Port) : Lowered String :=
  match operand with
  | .literal value => .ok value
  | .data port => do
    let declared ← comparable port inputs
    return Placeholder.inputParameter declared.name

/-- The operand is a literal number. -/
def isNumeric : Operand → Bool
  | .literal value => Numeral.isFinite value
  | .data _ => false

/-- The operand in an expression, which compares numbers or texts. -/
def expressionText (operand : Operand) (inputs : List Port) (numeric : Bool) : Lowered String :=
  match operand with
  | .literal value => .ok (if Numeral.isFinite value then value else Quoted.quote value)
  | .data port => do
    let declared ← comparable port inputs
    let reference := Reference.inputParameter declared.name
    return if numeric then s!"asFloat({reference})" else reference

end Operand

namespace Condition

/-- Two operands around their operator. -/
def compare (operator : Operator) (left right : String) : String :=
  left ++ " " ++ operator.symbol ++ " " ++ right

/-- The guard of the task that runs when the condition holds. -/
def guardText (condition : Condition) (inputs : List Port) : Lowered String := do
  let left ← condition.left.guardText inputs
  let right ← condition.right.guardText inputs
  return compare condition.operator left right

/-- The guard of the task that runs when another guard does not hold. -/
def negate (guardText : String) : String := "!(" ++ guardText ++ ")"

/-- The condition as an expression. -/
def expressionText (condition : Condition) (inputs : List Port) : Lowered String := do
  let numeric := condition.left.isNumeric || condition.right.isNumeric
  let left ← condition.left.expressionText inputs numeric
  let right ← condition.right.expressionText inputs numeric
  return compare condition.operator left right

/-- The expression that selects one of two references, the empty string standing for a missing
second one. -/
def select (expression whenTrue : String) (whenFalse : Option String) : String :=
  expression ++ " ? " ++ whenTrue ++ " : " ++ whenFalse.getD "''"

end Condition

end Pipeline
