/-
Identifiers of components and of workflows: 128 bits, written as hexadecimal
digits.

The digits are the representation, so the written form and its reading are
statements about lists of digits and not about arithmetic. The written form has
lower-case digits in groups of 8, 4, 4, 4 and 12, joined by hyphens. Reading
also takes upper-case digits, the digits without any hyphen, the hyphenated form
in braces, and the hyphenated form after `urn:uuid:`.
-/
import Pipeline.Json.Record

set_option autoImplicit false

namespace Pipeline

/-- A 128-bit identifier, as its hexadecimal digits. -/
structure ComponentId where
  digits : List (Fin 16)
  length_digits : digits.length = 32
  deriving DecidableEq

namespace ComponentId

/-- The identifier that stands for none. -/
def nil : ComponentId := ⟨List.replicate 32 0, by simp⟩

instance : Inhabited ComponentId := ⟨nil⟩

/-- The identifier stands for none. -/
def isNil (id : ComponentId) : Bool := id = nil

/-! ## Writing -/

/-- The lower-case character of a digit. -/
def digitChar (digit : Fin 16) : Char := Nat.digitChar digit

/-- The characters of an identifier. -/
def characters (id : ComponentId) : List Char :=
  let digits := id.digits.map digitChar
  let group (start size : Nat) := (digits.drop start).take size
  group 0 8 ++ '-' :: group 8 4 ++ '-' :: group 12 4 ++ '-' :: group 16 4 ++ '-' :: group 20 12

/-- The text of an identifier. -/
def text (id : ComponentId) : String := String.ofList id.characters

instance : ToString ComponentId := ⟨text⟩

/-! ## Reading -/

/-- The digit of a character of either case. -/
def digit? (c : Char) : Option (Fin 16) :=
  if h : '0'.toNat ≤ c.toNat ∧ c.toNat ≤ '9'.toNat then
    some ⟨c.toNat - '0'.toNat, by have : '0'.toNat = 48 := rfl; have : '9'.toNat = 57 := rfl; omega⟩
  else if h : 'a'.toNat ≤ c.toNat ∧ c.toNat ≤ 'f'.toNat then
    some ⟨c.toNat - 'a'.toNat + 10, by
      have : 'a'.toNat = 97 := rfl; have : 'f'.toNat = 102 := rfl; omega⟩
  else if h : 'A'.toNat ≤ c.toNat ∧ c.toNat ≤ 'F'.toNat then
    some ⟨c.toNat - 'A'.toNat + 10, by
      have : 'A'.toNat = 65 := rfl; have : 'F'.toNat = 70 := rfl; omega⟩
  else none

/-- The identifier of exactly 32 digits. -/
def ofDigits? (characters : List Char) : Option ComponentId :=
  match characters.mapM digit? with
  | some digits => if h : digits.length = 32 then some ⟨digits, h⟩ else none
  | none => none

/-- The identifier of the hyphenated form, which has its hyphens in four places and digits in all
others. -/
def ofHyphenated? (characters : List Char) : Option ComponentId :=
  let (first, rest) := characters.splitAt 8
  let (second, rest) := rest.splitAt 5
  let (third, rest) := rest.splitAt 5
  let (fourth, fifth) := rest.splitAt 5
  match second, third, fourth, fifth with
  | '-' :: second, '-' :: third, '-' :: fourth, '-' :: fifth =>
    ofDigits? (first ++ second ++ third ++ fourth ++ fifth)
  | _, _, _, _ => none

/-- The identifier that a text denotes. -/
def ofText? (text : String) : Option ComponentId :=
  let characters := text.toList
  match characters.length with
  | 32 => ofDigits? characters
  | 36 => ofHyphenated? characters
  | 38 =>
    if characters.head? = some '\x7b' ∧ characters.getLast? = some '\x7d' then
      ofHyphenated? (characters.drop 1).dropLast
    else none
  | 45 =>
    if characters.take 9 = "urn:uuid:".toList ∨ characters.take 9 = "URN:UUID:".toList then
      ofHyphenated? (characters.drop 9)
    else none
  | _ => none

/-! ## Documents -/

/-- An identifier is its text. -/
def toJson (id : ComponentId) : Json := .string id.text

/-- An identifier is any text that denotes it. -/
def ofJson? (document : Json) : Option ComponentId := (Json.string? document).bind ofText?

end ComponentId

end Pipeline
