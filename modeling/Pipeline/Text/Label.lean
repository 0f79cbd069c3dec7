/-
Labels: names that a cluster accepts, made from names that people chose.

A label has small letters, digits and single hyphens, begins and ends with a
letter or digit, and has a limited length. Letters are made small, every run of
other characters becomes one hyphen, the result is cut to the limit, and hyphens
at its ends are dropped. A name with nothing to keep gets a label of its own.
-/

set_option autoImplicit false

namespace Pipeline.Label

/-- Small letters and digits, with one hyphen for every run of other characters. -/
def squeeze (afterHyphen : Bool) : List Char → List Char
  | [] => []
  | c :: rest =>
    if c.toLower.isAlphanum then c.toLower :: squeeze false rest
    else if afterHyphen then squeeze true rest
    else '-' :: squeeze true rest

/-- The text without hyphens at its ends. -/
def trim (text : List Char) : List Char :=
  ((text.dropWhile (· = '-')).reverse.dropWhile (· = '-')).reverse

/-- The label for a name that has nothing to keep. -/
def fallback : String := "workflow"

/-- The label of a name, of at most so many characters. -/
def ofName (limit : Nat) (name : String) : String :=
  let label := trim ((squeeze false name.toList).take limit)
  if label.isEmpty then fallback else String.ofList label

end Pipeline.Label
