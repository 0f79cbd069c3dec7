/-
Records and variants as JSON documents.

A record is read by the names of its fields, from an object or, in the order of
declaration, from an array. Fields that the record does not know are skipped in
an object, whatever they hold; a known field must not be repeated, and an array
must not have more items than there are fields.

A variant is a record with one more field, its tag, which says which record it
is. To find the tag the whole document has to be looked at, so here no part of
it may be unreadable, not even in a field that is then skipped.

Reading gives no reason for a failure, as nobody downstream tells one from
another: the answer is an `Option`.
-/
import Pipeline.Json.Value

set_option autoImplicit false

namespace Pipeline.Json

/-! ## Reading records -/

/-- The items of an array as the fields of these names, in order. -/
def positional? : List String → List Json → Option (List (Option Json))
  | [], [] => some []
  | [], _ :: _ => none
  | _ :: names, [] => (positional? names []).map (none :: ·)
  | _ :: names, item :: items => (positional? names items).map (some item :: ·)

/-- The fields of these names, each of which may be absent. -/
def fields? (names : List String) : Json → Option (List (Option Json))
  | .object members =>
    if names.all fun name => members.countP (·.1 = name) ≤ 1 then
      some (names.map fun name => Entries.get? name members)
    else none
  | .array items => positional? names items
  | _ => none

variable {α : Type}

/-- A field that must be present. -/
def required (read? : Json → Option α) (field : Option Json) : Option α :=
  field.bind read?

/-- A field that may be absent or null. -/
def optional (read? : Json → Option α) : Option Json → Option (Option α)
  | none | some .null => some none
  | some value => (read? value).map some

/-- A field that may be absent, but not null, and then has a default. -/
def defaulted (read? : Json → Option α) (default : α) : Option Json → Option α
  | none => some default
  | some value => read? value

/-! ## Reading variants -/

/-- The tag of a variant, and the rest of its fields. In an array the tag comes first. -/
def tagged? (tag : String) (document : Json) : Option (String × Json) :=
  if document.isReadable then
    match document with
    | .object members =>
      match members.filter (·.1 = tag) with
      | [(_, .string name)] => some (name, .object (members.filter (·.1 ≠ tag)))
      | _ => none
    | .array (.string name :: items) => some (name, .array items)
    | _ => none
  else none

/-- One of a closed list of names. It may also stand as the only key of an object, with null. -/
def name? (read? : String → Option α) : Json → Option α
  | .string name => read? name
  | .object [(name, .null)] => read? name
  | _ => none

/-! ## Reading leaves -/

/-- A string. -/
def string? : Json → Option String
  | .string text => some text
  | _ => none

/-- An unsigned integer of 64 bits. -/
def uint64? : Json → Option UInt64
  | .number (.integer value) =>
    if 0 ≤ value ∧ value.toNat < UInt64.size then some (UInt64.ofNat value.toNat) else none
  | _ => none

/-- A list of values of one type. -/
def list? (read? : Json → Option α) : Json → Option (List α)
  | .array items => items.mapM read?
  | _ => none

/-- A map from strings; of two equal keys the later stays. -/
def keyMap? (read? : Json → Option α) : Json → Option (KeyMap α)
  | .object members =>
    (members.mapM fun member => (read? member.2).map (Prod.mk member.1)).map KeyMap.ofList
  | _ => none

/-! ## Writing -/

/-- The object of the fields that are present, in order. -/
def record (fields : List (Option (String × Json))) : Json :=
  .object (fields.filterMap id)

/-- A field that is always present. -/
def field (name : String) (value : Json) : Option (String × Json) := some (name, value)

/-- A field that is left out without a value. -/
def field? (name : String) (write : α → Json) (value : Option α) : Option (String × Json) :=
  value.map fun value => (name, write value)

/-- A list that is left out when it is empty. -/
def fieldUnlessEmpty (name : String) (write : α → Json) (values : List α) :
    Option (String × Json) :=
  if values.isEmpty then none else some (name, .array (values.map write))

/-- A map from strings, in order of keys. -/
def ofKeyMap (write : α → Json) (map : KeyMap α) : Json :=
  .object (map.entries.map fun (key, value) => (key, write value))

/-- A map that is left out when it is empty. -/
def mapUnlessEmpty (name : String) (write : α → Json) (map : KeyMap α) : Option (String × Json) :=
  if map.isEmpty then none else some (name, ofKeyMap write map)

/-- An unsigned integer of 64 bits. -/
def ofUInt64 (value : UInt64) : Json := ofNat value.toNat

/-- A list of strings. -/
def ofStrings (values : List String) : Json := .array (values.map .string)

/-- The members of an object, none for any other value. -/
def members : Json → List (String × Json)
  | .object members => members
  | _ => []

end Pipeline.Json
