/-
Decimal numerals as they are written: a sign, digits with at most one point,
and an exponent.

Documents and guards have grammars of their own, which agree on the parts: what
a run of digits denotes, how a fraction shifts the exponent, and what an
exponent looks like. Those parts are here, with the two readers that take a
whole text.
-/
import Pipeline.Number.Binary64

set_option autoImplicit false

namespace Pipeline.Numeral

/-! ## Parts -/

/-- The number that a run of decimal digits denotes. -/
def value (digits : List Char) : Nat :=
  digits.foldl (fun n c => 10 * n + (c.toNat - '0'.toNat)) 0

/-- The leading run of digits, and what follows it. -/
def digits (text : List Char) : List Char × List Char :=
  (text.takeWhile Char.isDigit, text.dropWhile Char.isDigit)

/-- An optional sign: whether it is a minus, and what follows it. -/
def sign : List Char → Bool × List Char
  | '-' :: rest => (true, rest)
  | '+' :: rest => (false, rest)
  | text => (false, text)

/-- An optional exponent, and what follows it. A mark without digits is an error. -/
def exponent? : List Char → Option (Int × List Char)
  | [] => some (0, [])
  | mark :: rest =>
    if mark = 'e' ∨ mark = 'E' then
      let (negative, rest) := sign rest
      let (run, rest) := digits rest
      if run.isEmpty then none
      else some (if negative then -(value run : Int) else value run, rest)
    else some (0, mark :: rest)

/-- The decimal written with these digits before and after the point. -/
def decimal (negative : Bool) (whole fraction : List Char) (exponent : Int) : Decimal :=
  ⟨negative, value (whole ++ fraction), exponent - fraction.length⟩

/-! ## Whole texts -/

/-- The decimal that a whole text denotes. The point may stand first or last, but not alone. -/
def decimal? (text : String) : Option Decimal := do
  let (negative, rest) := sign text.toList
  let (whole, rest) := digits rest
  let (fraction, rest) := match rest with
    | '.' :: rest => digits rest
    | rest => ([], rest)
  guard !(whole.isEmpty && fraction.isEmpty)
  let (exponent, rest) ← exponent? rest
  guard rest.isEmpty
  return decimal negative whole fraction exponent

/-- The text denotes a number that is finite in binary64. -/
def isFinite (text : String) : Bool :=
  ((decimal? text).bind Binary64.ofDecimal?).isSome

/-- The natural number that a whole text denotes: digits, after a plus sign or none. -/
def natural? (text : String) : Option Nat :=
  let run := match text.toList with
    | '+' :: rest => rest
    | run => run
  if run ≠ [] ∧ run.all Char.isDigit then some (value run) else none

end Pipeline.Numeral
