/-
Quoted strings of the expression language: single quotes, in which a backslash
takes the next character literally.
-/

set_option autoImplicit false

namespace Pipeline.Quoted

/-- How a character is written between quotes. -/
def escape (c : Char) : List Char := if c = '\\' ∨ c = '\'' then ['\\', c] else [c]

/-- The characters of a string, in quotes. -/
def encode (text : List Char) : List Char := '\'' :: text.flatMap escape ++ ['\'']

/-- A string, in quotes. -/
def quote (text : String) : String := String.ofList (encode text.toList)

end Pipeline.Quoted
