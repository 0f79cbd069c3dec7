/-
Writing JSON texts, on one line or indented by two spaces.

The two forms differ in their blanks only, so there is one printer, which asks
its layout for what stands after an opening bracket and after a colon.
Characters outside ASCII are written as themselves; of the control characters,
those with a one-letter escape use it.
-/
import Pipeline.Json.Value

set_option autoImplicit false

namespace Pipeline.Json

/-- Where a text has blanks. -/
inductive Layout where
  /-- None at all. -/
  | compact
  /-- Each member and item on a line of its own, indented by its nesting. -/
  | pretty
  deriving DecidableEq

namespace Layout

/-- What separates a bracket or comma from the next line's content. -/
def newline : Layout → Nat → String
  | .compact, _ => ""
  | .pretty, level => "\n" ++ String.ofList (List.replicate (2 * level) ' ')

/-- What stands between a key and its value. -/
def colon : Layout → String
  | .compact => ":"
  | .pretty => ": "

end Layout

/-! ## Strings -/

/-- The lower-case hexadecimal digit of a number below sixteen. -/
def hexDigit (n : Nat) : Char := Nat.digitChar n

/-- How a character is written inside quotes. -/
def escape (c : Char) : List Char :=
  match c with
  | '"' => ['\\', '"']
  | '\\' => ['\\', '\\']
  | '\x08' => ['\\', 'b']
  | '\x0c' => ['\\', 'f']
  | '\n' => ['\\', 'n']
  | '\r' => ['\\', 'r']
  | '\t' => ['\\', 't']
  | c =>
    if c.toNat < 0x20 then
      ['\\', 'u', '0', '0', hexDigit (c.toNat / 16), hexDigit (c.toNat % 16)]
    else [c]

/-- The text of a string, in quotes. -/
def quoted (text : String) : String :=
  String.ofList ('"' :: text.toList.flatMap escape ++ ['"'])

/-- The text of a number. -/
def Number.text : Number → String
  | .integer value => toString value
  | .real value => value.text

/-! ## Values -/

mutual
/-- The text of a value that stands at a nesting level. A part without a value is written as
`null`; no value that a decoder keeps has one. -/
def render (layout : Layout) (level : Nat) : Json → String
  | .null | .unreadable => "null"
  | .bool true => "true"
  | .bool false => "false"
  | .number value => value.text
  | .string text => quoted text
  | .array [] => "[]"
  | .array (item :: items) =>
    "[" ++ layout.newline (level + 1) ++ render layout (level + 1) item ++
      renderItems layout (level + 1) items ++ layout.newline level ++ "]"
  | .object [] => "\x7b\x7d"
  | .object ((key, value) :: members) =>
    "\x7b" ++ layout.newline (level + 1) ++ quoted key ++ layout.colon ++
      render layout (level + 1) value ++ renderMembers layout (level + 1) members ++
      layout.newline level ++ "\x7d"
termination_by structural value => value

/-- The items after the first, each behind its comma. -/
def renderItems (layout : Layout) (level : Nat) : List Json → String
  | [] => ""
  | item :: items =>
    "," ++ layout.newline level ++ render layout level item ++ renderItems layout level items
termination_by structural items => items

/-- The members after the first, each behind its comma. -/
def renderMembers (layout : Layout) (level : Nat) : List (String × Json) → String
  | [] => ""
  | (key, value) :: members =>
    "," ++ layout.newline level ++ quoted key ++ layout.colon ++ render layout level value ++
      renderMembers layout level members
termination_by structural members => members
end

/-- The text of a document. -/
def text (layout : Layout) (value : Json) : String := render layout 0 value

end Pipeline.Json
