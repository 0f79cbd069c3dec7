/-
Finite binary64 numbers: the nearest one to a decimal, and the shortest decimal
that names one.

A number is held as its sign and its *rank*, the bit pattern without the sign.
Ranks count the non-negative numbers in increasing order from zero, so
"too large to be finite" is one comparison of ranks, and a carry out of the
significand steps to the next binade by itself.

Both directions use exact arithmetic on natural numbers. To read `m · 10^e`,
the quotient is rounded once, to the grid of its binade, a half going to the
even neighbour. To write a number, coarser and coarser decimal grids are not
needed: the first grid, from the coarsest, that has a point among the reals
that round to the number also gives the fewest digits.
-/

set_option autoImplicit false

namespace Pipeline

/-- The bit pattern of infinity; smaller ranks are the finite numbers. -/
def Binary64.infinityRank : Nat := 0x7FF0000000000000

/-- The number of significands with one exponent, two to the power of 52. A number is normal when
its significand is not below it. -/
def Binary64.significandCount : Nat := 0x10000000000000

/-- A finite binary64 number. -/
structure Binary64 where
  negative : Bool
  /-- The bit pattern without its sign. -/
  rank : Nat
  rank_lt : rank < Binary64.infinityRank
  deriving DecidableEq

/-- A decimal `± significand · 10 ^ exponent`. -/
structure Decimal where
  negative : Bool
  significand : Nat
  exponent : Int
  deriving DecidableEq

namespace Binary64

/-! ## Reading -/

/-- The quotient rounded to the nearest natural number, a half to the even one. -/
def roundDiv (num den : Nat) : Nat :=
  let quotient := num / den
  let remainder := num % den
  if 2 * remainder < den then quotient
  else if den < 2 * remainder then quotient + 1
  else quotient + quotient % 2

/-- The greatest `t` with `2 ^ t ≤ num / den`, for positive `num` and `den`. The difference of the
two logarithms is that exponent or one more. -/
def floorLog2 (num den : Nat) : Int :=
  -- Shifting by a negative amount stands for shifting the other side.
  let guess : Int := (num.log2 : Int) - den.log2
  if den <<< guess.toNat ≤ num <<< (-guess).toNat then guess else guess - 1

/-- The rank nearest to a positive quotient; at least `infinityRank` when that is out of range. -/
def rankOfRatio (num den : Nat) : Nat :=
  let scale := max (floorLog2 num den - 52) (-1074)
  let significand := roundDiv (num <<< (-scale).toNat) (den <<< scale.toNat)
  (scale + 1074).toNat * significandCount + significand

/-- The rank nearest to `m · 10 ^ e`. Decimals that are far outside the range of the format are
settled by their number of digits, so that no power of ten larger than needed is formed. -/
def rankOfDecimal (m : Nat) (e : Int) : Nat :=
  let digits : Int := (Nat.toDigits 10 m).length
  if m = 0 ∨ digits + e ≤ -324 then 0
  else if 310 ≤ digits + e then infinityRank
  else rankOfRatio (m * Nat.pow 10 e.toNat) (Nat.pow 10 (-e).toNat)

/-- The number nearest to a decimal, unless that is infinite. -/
def ofDecimal? (d : Decimal) : Option Binary64 :=
  if h : rankOfDecimal d.significand d.exponent < infinityRank then
    some ⟨d.negative, rankOfDecimal d.significand d.exponent, h⟩
  else none

/-! ## Writing -/

/-- A positive number is `significand · 2 ^ exponent`. -/
def significand (x : Binary64) : Nat :=
  if x.rank / significandCount = 0 then x.rank else x.rank % significandCount + significandCount

/-- A positive number is `significand · 2 ^ exponent`. -/
def exponent (x : Binary64) : Int :=
  if x.rank / significandCount = 0 then -1074 else (x.rank / significandCount : Nat) - 1075

/-- The reals that round to a positive number, as quarters of its last place: from `low` to `high`
over a common denominator, with the ends when the significand is even. -/
structure Interval where
  low : Nat
  value : Nat
  high : Nat
  den : Nat
  closed : Bool

/-- The interval of a positive number. Below a power of two the neighbour is half as far away. -/
def interval (x : Binary64) : Interval :=
  let m := x.significand
  let below := if m = significandCount ∧ significandCount < x.rank then 1 else 2
  let shift := x.exponent - 2
  { low := (4 * m - below) <<< shift.toNat
    value := (4 * m) <<< shift.toNat
    high := (4 * m + 2) <<< shift.toNat
    den := 1 <<< (-shift).toNat
    closed := m % 2 = 0 }

/-- The point of the grid of multiples of `10 ^ p` that lies in the interval and is nearest to the
value, if any: one of the value's two neighbours on the grid. -/
def Interval.nearest? (i : Interval) (p : Int) : Option Nat :=
  -- Both sides of a comparison are scaled up, so that only whole numbers are compared.
  let up := Nat.pow 10 (-p).toNat
  let down := i.den * Nat.pow 10 p.toNat
  let inside (c : Nat) : Bool :=
    if i.closed then i.low * up ≤ c * down && c * down ≤ i.high * up
    else i.low * up < c * down && c * down < i.high * up
  let c := i.value * up / down
  let below := inside c
  let above := inside (c + 1)
  if below && above then
    if 2 * (i.value * up) < (2 * c + 1) * down then some c
    else if (2 * c + 1) * down < 2 * (i.value * up) then some (c + 1)
    else some (c + c % 2)
  else if below then some c
  else if above then some (c + 1)
  else none

/-- The first grid with a point in the interval, from `10 ^ p` downwards, and that point. -/
def Interval.coarsest (i : Interval) : Nat → Int → Nat × Int
  | 0, p => (0, p)
  | steps + 1, p =>
    match i.nearest? p with
    | some c => (c, p)
    | none => i.coarsest steps (p - 1)

/-- The digits and exponent of the shortest decimal that rounds to a positive number. No grid finer
than `10 ^ -1074` is needed, as the number itself lies on that one. -/
def shortest (x : Binary64) : Nat × Int :=
  let i := x.interval
  i.coarsest 1400 (Nat.toDigits 10 (i.value / i.den)).length

/-- The text of `digits · 10 ^ p`: positional from `1e-5` up to sixteen integer digits, always with
a point, and scientific elsewhere. -/
def layout (digits : List Char) (p : Int) : List Char :=
  let point : Int := digits.length + p
  if 0 ≤ p ∧ point ≤ 16 then
    digits ++ List.replicate p.toNat '0' ++ ['.', '0']
  else if 0 < point ∧ point ≤ 16 then
    digits.take point.toNat ++ '.' :: digits.drop point.toNat
  else if -5 < point ∧ point ≤ 0 then
    '0' :: '.' :: List.replicate (-point).toNat '0' ++ digits
  else
    digits.take 1 ++ (if digits.length = 1 then [] else '.' :: digits.drop 1) ++
      'e' :: (toString (point - 1)).toList

/-- The text of a number. -/
def text (x : Binary64) : String :=
  let body :=
    if x.rank = 0 then ['0', '.', '0']
    else layout (Nat.toDigits 10 x.shortest.1) x.shortest.2
  String.ofList (if x.negative then '-' :: body else body)

end Binary64

end Pipeline
