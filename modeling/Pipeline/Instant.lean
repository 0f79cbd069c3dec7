/-
Instants of time, as RFC 3339 writes them.

An instant is a number of nanoseconds since the beginning of 1970 in UTC.
Writing always uses UTC and the extended form, with as many digits of a second
as are needed and no trailing zeros. Reading also takes the basic form without
separators, a space or a small letter between date and time, offsets down to the
second, years with a sign and six digits, and a time zone or further annotations
in brackets, which do not change the instant. The offset is required, as without
it a text names no instant. A leap second is taken for the second before it.
-/
import Pipeline.Json.Record
import Pipeline.Number.Numeral

set_option autoImplicit false

namespace Pipeline

/-- A point in time. -/
structure Instant where
  /-- Nanoseconds since 1970-01-01T00:00:00Z. -/
  nanoseconds : Int
  deriving DecidableEq

namespace Instant

/-! ## The civil calendar -/

/-- A year has a 29th of February. -/
def isLeap (year : Int) : Bool :=
  year % 4 = 0 && (year % 100 ≠ 0 || year % 400 = 0)

/-- The number of days of a month. -/
def daysInMonth (year : Int) (month : Nat) : Nat :=
  match month with
  | 2 => if isLeap year then 29 else 28
  | 4 | 6 | 9 | 11 => 30
  | _ => 31

/-- Days since 1970-01-01. Years are counted from March here, so that the leap day is the last of
its year, and in eras of 400 years, which all have the same length. -/
def dayNumber (year : Int) (month day : Nat) : Int :=
  let year := if month ≤ 2 then year - 1 else year
  let yearOfEra := year % 400
  let dayOfYear : Int := (153 * ((month + 9) % 12) + 2) / 5 + day - 1
  let dayOfEra := yearOfEra * 365 + yearOfEra / 4 - yearOfEra / 100 + dayOfYear
  year / 400 * 146097 + dayOfEra - 719468

/-- The year, month and day of a number of days since 1970-01-01. -/
def civil (days : Int) : Int × Nat × Nat :=
  let shifted := days + 719468
  let dayOfEra := shifted % 146097
  let yearOfEra := (dayOfEra - dayOfEra / 1460 + dayOfEra / 36524 - dayOfEra / 146096) / 365
  let dayOfYear := dayOfEra - (365 * yearOfEra + yearOfEra / 4 - yearOfEra / 100)
  let shiftedMonth := (5 * dayOfYear + 2) / 153
  let day := dayOfYear - (153 * shiftedMonth + 2) / 5 + 1
  let month := (shiftedMonth.toNat + 2) % 12 + 1
  let year := yearOfEra + shifted / 146097 * 400
  (if month ≤ 2 then year + 1 else year, month, day.toNat)

/-! ## Writing -/

/-- A number with leading zeros up to a width. -/
def padded (width n : Nat) : List Char :=
  let digits := Nat.toDigits 10 n
  List.replicate (width - digits.length) '0' ++ digits

/-- A year: four digits, or six after a minus sign. -/
def yearText (year : Int) : List Char :=
  if year < 0 then '-' :: padded 6 year.natAbs else padded 4 year.toNat

/-- The part of a second after the point, without trailing zeros; nothing for a whole second. -/
def fractionText (nanoseconds : Nat) : List Char :=
  if nanoseconds = 0 then []
  else '.' :: ((padded 9 nanoseconds).reverse.dropWhile (· = '0')).reverse

/-- The text of an instant. -/
def text (instant : Instant) : String :=
  let seconds := instant.nanoseconds / 1000000000
  let (year, month, day) := civil (seconds / 86400)
  let second := (seconds % 86400).toNat
  String.ofList <|
    yearText year ++ '-' :: padded 2 month ++ '-' :: padded 2 day ++
      'T' :: padded 2 (second / 3600) ++ ':' :: padded 2 (second / 60 % 60) ++
      ':' :: padded 2 (second % 60) ++
      fractionText (instant.nanoseconds % 1000000000).toNat ++ ['Z']

/-! ## Reading -/

/-- A number of exactly `width` digits, and what follows it. -/
def fixed? (width : Nat) (text : List Char) : Option (Nat × List Char) :=
  let digits := text.take width
  if digits.length = width ∧ digits.all Char.isDigit then
    some (Numeral.value digits, text.drop width)
  else none

/-- A number of two digits that is at most `limit`, and what follows it. -/
def twoDigits? (limit : Nat) (text : List Char) : Option (Nat × List Char) := do
  let (n, rest) ← fixed? 2 text
  guard (n ≤ limit)
  return (n, rest)

/-- A year: four digits, or a sign and six. There is no negative year zero. -/
def year? : List Char → Option (Int × List Char)
  | '-' :: rest => do
    let (year, rest) ← fixed? 6 rest
    guard (year ≠ 0)
    return (-(year : Int), rest)
  | '+' :: rest => do
    let (year, rest) ← fixed? 6 rest
    return (year, rest)
  | rest => do
    let (year, rest) ← fixed? 4 rest
    return (year, rest)

/-- A date, as its day number, and what follows it. Hyphens stand in both places or in neither. -/
def date? (text : List Char) : Option (Int × List Char) := do
  let (year, rest) ← year? text
  guard (-9999 ≤ year ∧ year ≤ 9999)
  let extended := rest.head? = some '-'
  let rest := if extended then rest.drop 1 else rest
  let (month, rest) ← twoDigits? 12 rest
  guard (1 ≤ month)
  guard ((rest.head? = some '-') = extended)
  let rest := if extended then rest.drop 1 else rest
  let (day, rest) ← twoDigits? (daysInMonth year month) rest
  guard (1 ≤ day)
  return (dayNumber year month day, rest)

/-- Whether another two digits of a time or offset follow, and the text after their separator. -/
def continued (extended : Bool) (text : List Char) : Bool × List Char :=
  if extended then
    match text with
    | ':' :: rest => (true, rest)
    | rest => (false, rest)
  else (2 ≤ text.length && (text.take 2).all Char.isDigit, text)

/-- An optional fraction of a second in nanoseconds, and what follows it. -/
def fraction? : List Char → Option (Nat × List Char)
  | mark :: rest =>
    if mark = '.' ∨ mark = ',' then do
      let run := (rest.takeWhile Char.isDigit).take 9
      guard !run.isEmpty
      return (Numeral.value run * Nat.pow 10 (9 - run.length), rest.drop run.length)
    else some (0, mark :: rest)
  | [] => some (0, [])

/-- A time of day in nanoseconds, and what follows it. Minutes and seconds may be left out. -/
def time? (text : List Char) : Option (Nat × List Char) := do
  let (hour, rest) ← twoDigits? 23 text
  let extended := rest.head? = some ':'
  let (more, afterSeparator) := continued extended rest
  if !more then return (hour * 3600000000000, rest)
  let (minute, rest) ← twoDigits? 59 afterSeparator
  let (more, afterSeparator) := continued extended rest
  if !more then return ((hour * 60 + minute) * 60000000000, rest)
  let (second, rest) ← twoDigits? 60 afterSeparator
  let (fraction, rest) ← fraction? rest
  -- A leap second counts as the second before it.
  return (((hour * 60 + minute) * 60 + min second 59) * 1000000000 + fraction, rest)

/-- An offset from UTC in seconds, and what follows it. A fraction of a second rounds to the nearest
second. -/
def offset? : List Char → Option (Int × List Char)
  | 'Z' :: rest | 'z' :: rest => some (0, rest)
  | sign :: rest =>
    if sign = '+' ∨ sign = '-' then do
      let signed (seconds : Nat) : Int := if sign = '-' then -seconds else seconds
      let (hour, rest) ← twoDigits? 25 rest
      let extended := rest.head? = some ':'
      let (more, afterSeparator) := continued extended rest
      if !more then return (signed (hour * 3600), rest)
      let (minute, rest) ← twoDigits? 59 afterSeparator
      let (more, afterSeparator) := continued extended rest
      if !more then return (signed ((hour * 60 + minute) * 60), rest)
      let (second, rest) ← twoDigits? 59 afterSeparator
      let (fraction, rest) ← fraction? rest
      let carry := if 500000000 ≤ fraction then 1 else 0
      return (signed ((hour * 60 + minute) * 60 + second + carry), rest)
    else none
  | [] => none

/-! ### Annotations

A time zone stands first, as an offset or as a name with slashes; further
annotations are keys with values. One that is marked as critical has to be
understood, and only time zones are. -/

/-- The name is a part of a time zone's name. -/
def isZonePart : List Char → Bool
  | [] => false
  | first :: rest =>
    (first.isAlpha || first = '.' || first = '_') &&
      rest.all fun c => c.isAlphanum || c = '.' || c = '_' || c = '+' || c = '-'

/-- The text in brackets names a time zone. -/
def isZone (text : List Char) : Bool :=
  match text with
  | '+' :: _ | '-' :: _ =>
    match offset? text with
    | some (_, []) => text.length ≤ 6
    | _ => false
  | _ => (text.splitOn '/').all isZonePart

/-- The text in brackets is a key with a value. -/
def isKeyValue (text : List Char) : Bool :=
  let key := text.takeWhile (· ≠ '=')
  match key, text.drop key.length with
  | first :: rest, '=' :: value =>
    (first.isLower || first = '_') &&
      rest.all (fun c => c.isLower || c.isDigit || c = '_' || c = '-') &&
      (value.splitOn '-').all fun part => !part.isEmpty && part.all Char.isAlphanum
  | _, _ => false

/-- The text is a sequence of annotations, of which the first may be a time zone. The fuel is the
length of the text, as each annotation has at least its brackets. -/
def isAnnotations (fuel : Nat) (zone : Bool) (text : List Char) : Bool :=
  match fuel, text with
  | _, [] => true
  | fuel + 1, '[' :: rest =>
    let body := rest.takeWhile (· ≠ ']')
    let after := rest.drop body.length
    let (critical, body) := match body with
      | '!' :: body => (true, body)
      | body => (false, body)
    after.head? = some ']' && (zone && isZone body || !critical && isKeyValue body) &&
      isAnnotations fuel false (after.drop 1)
  | _, _ => false

/-- The first second that counts as an instant; an offset of a day and two hours never leads out of
the years with four digits. -/
def minSecond : Int := -377705023201

/-- The last second that counts as an instant. -/
def maxSecond : Int := 253402207200

/-- The instant that a text denotes. -/
def ofText? (text : String) : Option Instant := do
  let (day, rest) ← date? text.toList
  let rest ← match rest with
    | 'T' :: rest | 't' :: rest | ' ' :: rest => some rest
    | _ => none
  let (time, rest) ← time? rest
  let (offset, rest) ← offset? rest
  guard (isAnnotations rest.length true rest)
  let nanoseconds := (day * 86400 - offset) * 1000000000 + time
  let second := nanoseconds / 1000000000
  guard (minSecond ≤ second ∧ second ≤ maxSecond)
  return ⟨nanoseconds⟩

/-! ## Documents -/

/-- An instant is its text. -/
def toJson (instant : Instant) : Json := .string instant.text

/-- An instant is any text that denotes it. -/
def ofJson? (document : Json) : Option Instant := (Json.string? document).bind ofText?

end Instant

end Pipeline
