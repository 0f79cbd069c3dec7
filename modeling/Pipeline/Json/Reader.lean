/-
Reading JSON texts.

The grammar is the strict one: no trailing commas, no comments, no leading
zeros, no raw control characters, and nothing but blanks around the value.
Whether a text is well formed does not depend on who reads it. What may depend
on the reader is whether a well-formed part denotes a value at all, so such
parts come out as `unreadable` instead of failing the text:

* a number whose nearest binary64 is infinite;
* a string with half of a surrogate pair, and an object with such a key;
* an array or object inside more than `nesting` others.

Reading consumes the text from left to right. The fuel of `value` is twice the
number of characters that are left, and each step that does not consume one is
followed by a step that does, so it never runs out.
-/
import Pipeline.Json.Value
import Pipeline.Number.Numeral

set_option autoImplicit false

namespace Pipeline.Json.Reader

/-- What follows leading spaces, tabs and line ends. -/
def skipBlank (text : List Char) : List Char :=
  text.dropWhile fun c => c = ' ' || c = '\t' || c = '\n' || c = '\r'

/-! ## Strings -/

/-- The value of a hexadecimal digit of either case. -/
def hexDigit? (c : Char) : Option Nat :=
  if '0' ≤ c ∧ c ≤ '9' then some (c.toNat - '0'.toNat)
  else if 'a' ≤ c ∧ c ≤ 'f' then some (c.toNat - 'a'.toNat + 10)
  else if 'A' ≤ c ∧ c ≤ 'F' then some (c.toNat - 'A'.toNat + 10)
  else none

/-- The value of four hexadecimal digits. -/
def hex4? (a b c d : Char) : Option Nat := do
  return ((← hexDigit? a) * 16 + (← hexDigit? b)) * 256 + ((← hexDigit? c) * 16 + (← hexDigit? d))

/-- The character that a one-letter escape stands for. -/
def escaped? : Char → Option Char
  | '"' => some '"'
  | '\\' => some '\\'
  | '/' => some '/'
  | 'b' => some '\x08'
  | 'f' => some '\x0c'
  | 'n' => some '\n'
  | 'r' => some '\r'
  | 't' => some '\t'
  | _ => none

/-- The code units of a string up to its closing quote, and what follows. A character beyond
U+FFFF that is written as itself is one unit here; only escapes yield surrogates. -/
def units? (before : List Nat) : List Char → Option (List Nat × List Char)
  | [] => none
  | '"' :: rest => some (before.reverse, rest)
  | '\\' :: 'u' :: a :: b :: c :: d :: rest =>
    match hex4? a b c d with
    | some unit => units? (unit :: before) rest
    | none => none
  | '\\' :: c :: rest =>
    match escaped? c with
    | some c => units? (c.toNat :: before) rest
    | none => none
  | c :: rest => if c.toNat < 0x20 then none else units? (c.toNat :: before) rest

/-- The characters of code units; none when half of a surrogate pair stands alone. -/
def characters? (before : List Char) : List Nat → Option (List Char)
  | [] => some before.reverse
  | unit :: rest =>
    if 0xD800 ≤ unit ∧ unit < 0xDC00 then
      match rest with
      | low :: rest =>
        if 0xDC00 ≤ low ∧ low < 0xE000 then
          characters? (Char.ofNat (0x10000 + (unit - 0xD800) * 0x400 + (low - 0xDC00)) :: before) rest
        else none
      | [] => none
    else if 0xDC00 ≤ unit ∧ unit < 0xE000 then none
    else characters? (Char.ofNat unit :: before) rest

/-- The string whose opening quote has been read; the inner value is none when its escapes denote
no text. -/
def string? (text : List Char) : Option (Option String × List Char) := do
  let (units, rest) ← units? [] text
  return ((characters? [] units).map String.ofList, rest)

/-! ## Numbers -/

/-- The value of a number: an integer that fits in 64 bits, with or without a sign, stays exact.
Negative zero is not an integer. -/
def integerValue (negative : Bool) (whole : List Char) : Json :=
  let n := Numeral.value whole
  let value : Int := if negative then -n else n
  if -0x8000000000000000 ≤ value ∧ value < UInt64.size ∧ ¬(negative ∧ n = 0) then ofInt value
  else
    match Binary64.ofDecimal? (Numeral.decimal negative whole [] 0) with
    | some x => .number (.real x)
    | none => .unreadable

/-- The value of a number with a fraction or an exponent. -/
def realValue (negative : Bool) (whole fraction : List Char) (exponent : Int) : Json :=
  match Binary64.ofDecimal? (Numeral.decimal negative whole fraction exponent) with
  | some x => .number (.real x)
  | none => .unreadable

/-- A number, and what follows it. -/
def number? (text : List Char) : Option (Json × List Char) := do
  let (negative, body) := match text with
    | '-' :: body => (true, body)
    | body => (false, body)
  let (whole, rest) := Numeral.digits body
  guard !whole.isEmpty
  -- A zero in front stands alone.
  guard (whole.length = 1 || whole.head? != some '0')
  let (fraction, afterFraction) := match rest with
    | '.' :: rest => Numeral.digits rest
    | rest => ([], rest)
  guard !(rest.head? == some '.' && fraction.isEmpty)
  let (exponent, afterExponent) ← Numeral.exponent? afterFraction
  -- Without a fraction and an exponent the number is an integer.
  if rest.head? == some '.' || afterFraction.length != afterExponent.length then
    return (realValue negative whole fraction exponent, afterExponent)
  else
    return (integerValue negative whole, afterExponent)

/-! ## Values -/

/-- A container that is inside too many others denotes no value. -/
def within (room : Nat) (container : Json) : Json :=
  if room = 0 then .unreadable else container

/-- An object; it denotes no value when one of its keys does not. -/
def objectOf (members : List (Option String × Json)) : Json :=
  match members.mapM fun (key, value) => key.map fun key => (key, value) with
  | some members => .object members
  | none => .unreadable

mutual
/-- A value, and what follows it. There is `room` for that many containers around one another. -/
def value (fuel : Nat) (room : Nat) (text : List Char) : Option (Json × List Char) :=
  match fuel with
  | 0 => none
  | fuel + 1 =>
    match skipBlank text with
    | 'n' :: 'u' :: 'l' :: 'l' :: rest => some (.null, rest)
    | 't' :: 'r' :: 'u' :: 'e' :: rest => some (.bool true, rest)
    | 'f' :: 'a' :: 'l' :: 's' :: 'e' :: rest => some (.bool false, rest)
    | '"' :: rest =>
      match string? rest with
      | some (some text, rest) => some (.string text, rest)
      | some (none, rest) => some (.unreadable, rest)
      | none => none
    | '[' :: rest =>
      match skipBlank rest with
      | ']' :: rest => some (within room (.array []), rest)
      | rest =>
        match items fuel (room - 1) [] rest with
        | some (items, rest) => some (within room (.array items), rest)
        | none => none
    | '\x7b' :: rest =>
      match skipBlank rest with
      | '\x7d' :: rest => some (within room (.object []), rest)
      | rest =>
        match members fuel (room - 1) [] rest with
        | some (members, rest) => some (within room (objectOf members), rest)
        | none => none
    | text => number? text
termination_by structural fuel

/-- The items of an array up to its closing bracket, and what follows. -/
def items (fuel : Nat) (room : Nat) (before : List Json) (text : List Char) :
    Option (List Json × List Char) :=
  match fuel with
  | 0 => none
  | fuel + 1 =>
    match value fuel room text with
    | none => none
    | some (item, rest) =>
      match skipBlank rest with
      | ',' :: rest => items fuel room (item :: before) rest
      | ']' :: rest => some ((item :: before).reverse, rest)
      | _ => none
termination_by structural fuel

/-- The members of an object up to its closing brace, and what follows. -/
def members (fuel : Nat) (room : Nat) (before : List (Option String × Json)) (text : List Char) :
    Option (List (Option String × Json) × List Char) :=
  match fuel with
  | 0 => none
  | fuel + 1 =>
    match skipBlank text with
    | '"' :: rest =>
      match string? rest with
      | none => none
      | some (key, rest) =>
        match skipBlank rest with
        | ':' :: rest =>
          match value fuel room rest with
          | none => none
          | some (item, rest) =>
            match skipBlank rest with
            | ',' :: rest => members fuel room ((key, item) :: before) rest
            | '\x7d' :: rest => some (((key, item) :: before).reverse, rest)
            | _ => none
        | _ => none
    | _ => none
termination_by structural fuel
end

end Reader

/-! ## Whole texts -/

/-- The value of a whole text in which at most `nesting` containers lie around one another. -/
def read? (nesting : Nat) (text : String) : Option Json :=
  let text := text.toList
  match Reader.value (2 * text.length + 2) nesting text with
  | some (value, rest) => if (Reader.skipBlank rest).isEmpty then some value else none
  | none => none

/-- Documents may nest arrays and objects this deep. -/
def maxNesting : Nat := 127

/-- The value of a document. -/
def parse? (text : String) : Option Json := read? maxNesting text

end Pipeline.Json
