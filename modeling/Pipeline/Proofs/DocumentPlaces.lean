/-
Places in documents, and readers that notice what stands there.

A place is given by the keys and positions that lead to it. Values are looked up and
replaced at a place (`Json.at?`, `Json.replaceAt`); these are a lens, in the sense that
putting back what stands at a place changes nothing.

A reader demands what stands at a place of a document when it cannot read the document
any more once that part has become unreadable, in whatever way (`Json.Demands`). Demands
compose along the place: a list demands its items, a record those of its fields that its
reader looks at, and a variant what the record of its fields demands, since nothing that
happens beside the tag makes it another variant.
-/
import Mathlib.Data.List.Basic
import Pipeline.Proofs.Records

set_option autoImplicit false

namespace Pipeline

/-! ## Bindings -/

namespace Entries

variable {β : Type}

/-- Changes the value that is bound to a key; of several bindings the first. -/
def modify (key : String) (change : β → β) : List (String × β) → List (String × β)
  | [] => []
  | (k, v) :: rest => if k = key then (k, change v) :: rest else (k, v) :: modify key change rest

theorem get?_modify (key : String) (change : β → β) (entries : List (String × β)) :
    get? key (modify key change entries) = (get? key entries).map change := by
  induction entries with
  | nil => rfl
  | cons entry entries ih =>
    by_cases hkey : entry.1 = key
    · simp [modify, get?, hkey]
    · simp [modify, get?, hkey, ih]

/-- No key is added or lost. -/
theorem keys_modify (key : String) (change : β → β) (entries : List (String × β)) :
    (modify key change entries).map Prod.fst = entries.map Prod.fst := by
  induction entries with
  | nil => rfl
  | cons entry entries ih =>
    by_cases hkey : entry.1 = key
    · simp [modify, hkey]
    · simp [modify, hkey, ih]

theorem modify_of_get? {key : String} {change : β → β} {entries : List (String × β)} {value : β}
    (hget : get? key entries = some value) (hchange : change value = value) :
    modify key change entries = entries := by
  induction entries with
  | nil => rfl
  | cons entry entries ih =>
    rw [get?] at hget
    rw [modify]
    by_cases hkey : entry.1 = key
    · rw [if_pos hkey] at hget
      rw [if_pos hkey, Option.some.inj hget, hchange, ← Option.some.inj hget]
    · rw [if_neg hkey] at hget
      rw [if_neg hkey, ih hget]

end Entries

namespace Json

/-! ## Places -/

/-- One step into a document. -/
inductive Step where
  /-- To the member of an object that has this key. -/
  | key (name : String)
  /-- To the item of an array at this position. -/
  | index (position : Nat)
  deriving DecidableEq

/-- What stands at a place of a document. -/
def at? : List Step → Json → Option Json
  | [], document => some document
  | .key name :: place, .object members => (Entries.get? name members).bind (at? place)
  | .index position :: place, .array items => items[position]?.bind (at? place)
  | _ :: _, _ => none

/-- The document with another value at a place, or as it is when it has no such place. -/
def replaceAt (value : Json) : List Step → Json → Json
  | [], _ => value
  | .key name :: place, .object members =>
    .object (Entries.modify name (replaceAt value place) members)
  | .index position :: place, .array items =>
    .array (items.modify position (replaceAt value place))
  | _ :: _, document => document

theorem at?_append (outer inner : List Step) (document : Json) :
    at? (outer ++ inner) document = (at? outer document).bind (at? inner) := by
  induction outer generalizing document with
  | nil => rfl
  | cons step outer ih =>
    rw [List.cons_append]
    cases step <;> cases document <;> simp [at?, Option.bind_assoc, funext ih]

/-- Putting back what stands at a place changes nothing. -/
theorem replaceAt_at? {place : List Step} {document value : Json}
    (h : at? place document = some value) : replaceAt value place document = document := by
  induction place generalizing document with
  | nil => exact (Option.some.inj h).symm
  | cons step place ih =>
    cases step with
    | key name =>
      cases document with
      | object members =>
        obtain ⟨part, hget, hpart⟩ := Option.bind_eq_some_iff.1 h
        rw [replaceAt, Entries.modify_of_get? hget (ih hpart)]
      | _ => rfl
    | index position =>
      cases document with
      | array items =>
        obtain ⟨part, hget, hpart⟩ := Option.bind_eq_some_iff.1 h
        obtain ⟨hlt, rfl⟩ := List.getElem?_eq_some_iff.1 hget
        rw [replaceAt, List.modify_eq_set_getElem?, hget, Option.map_eq_map, Option.map_some,
          Option.getD_some, ih hpart, List.set_getElem_self]
      | _ => rfl

theorem record_ne_null (fields : List (Option (String × Json))) : record fields ≠ .null := by
  simp [record]

theorem replaceAt_ne_null {place : List Step} {document value : Json} (hvalue : value ≠ .null)
    (hdocument : document ≠ .null) : replaceAt value place document ≠ .null := by
  cases place with
  | nil => exact hvalue
  | cons step place =>
    cases step <;> cases document <;> first | exact hdocument | simp [replaceAt]

/-! ## Demands -/

section Demands

variable {α β γ : Type}

/-- The part stands at the place of the document, and the document cannot be read any more once
something in the part has been replaced so that the part cannot be. Null is left out, as a field
that holds it may be taken for an absent one. -/
structure Demands (read? : Json → Option α) (document : Json) (place : List Step)
    (part? : Json → Option β) (part : Json) : Prop where
  stands : at? place document = some part
  fails : ∀ inner value, value ≠ .null → part? (replaceAt value inner part) = none →
    read? (replaceAt value (place ++ inner) document) = none

/-- A reader demands what the reader of a part demands of it. -/
theorem Demands.trans {read? : Json → Option α} {part? : Json → Option β}
    {piece? : Json → Option γ} {document part piece : Json} {outer inner : List Step}
    (houter : Demands read? document outer part? part)
    (hinner : Demands part? part inner piece? piece) :
    Demands read? document (outer ++ inner) piece? piece where
  stands := by rw [at?_append, houter.stands, Option.bind_some, hinner.stands]
  fails := by
    intro rest value hvalue hpiece
    rw [List.append_assoc]
    exact houter.fails (inner ++ rest) value hvalue (hinner.fails rest value hvalue hpiece)

/-- What a reader demands cannot be replaced by anything unreadable. -/
theorem Demands.eq_none {read? : Json → Option α} {part? : Json → Option β} {document part : Json}
    {place : List Step} (h : Demands read? document place part? part) {value : Json}
    (hvalue : value ≠ .null) (hread : part? value = none) :
    read? (replaceAt value place document) = none := by
  have hfails := h.fails [] value hvalue hread
  rwa [List.append_nil] at hfails

/-! ### Lists -/

theorem list?_of_item {read? : Json → Option α} {items : List Json} {item : Json}
    (hitem : item ∈ items) (hread : read? item = none) : list? read? (.array items) = none := by
  rw [list?]
  induction items with
  | nil => cases hitem
  | cons first items ih =>
    rw [List.mapM_cons]
    rcases List.mem_cons.1 hitem with rfl | hitem
    · rw [hread]
      rfl
    · rw [ih hitem]
      cases read? first <;> rfl

/-- A list demands each of its items. -/
theorem Demands.item {read? : Json → Option α} {items : List Json} {position : Nat} {item : Json}
    (hitem : items[position]? = some item) :
    Demands (list? read?) (.array items) [.index position] read? item where
  stands := by rw [at?, hitem, Option.bind_some, at?]
  fails := by
    intro inner value _ hread
    rw [List.singleton_append, replaceAt]
    refine list?_of_item (List.mem_of_getElem? (i := position) ?_) hread
    rw [List.getElem?_modify_eq, hitem, Option.map_eq_map, Option.map_some]

/-! ### Records -/

/-- Of an object either no fields are read, as one of them is repeated, or those that are found. -/
theorem fields?_object (names : List String) (members : List (String × Json)) :
    (Json.object members).fields? names = none ∨
      (Json.object members).fields? names = some (names.map (Entries.get? · members)) := by
  rw [fields?]
  split
  · exact .inr rfl
  · exact .inl rfl

variable {names : List String} {fields : List (Option (String × Json))}

/-- A field of a record is found under its name. -/
theorem get?_field (hnamed : List.Forall₂ IsNamed names fields) (hnodup : names.Nodup)
    {name : String} {value : Json} (hfield : field name value ∈ fields) :
    Entries.get? name (fields.filterMap id) = some value := by
  have hkeys := (keys_sublist hnamed).nodup hnodup
  exact (Entries.get?_eq_some hkeys).2 (List.mem_filterMap.2 ⟨_, hfield, rfl⟩)

/-- A record demands a field when it cannot be read from fields of which this one cannot be. -/
theorem Demands.field {read? : Json → Option α} {field? : Json → Option β} {name : String}
    {value : Json} (hnamed : List.Forall₂ IsNamed names fields) (hnodup : names.Nodup)
    (hfield : Json.field name value ∈ fields) (hvalue : value ≠ .null)
    (hread : ∀ document found part,
      document.fields? names = none ∨ document.fields? names = some (names.map found) →
        found name = some part → part ≠ .null → field? part = none → read? document = none) :
    Demands read? (record fields) [.key name] field? value where
  stands := by rw [record, at?, get?_field hnamed hnodup hfield, Option.bind_some, at?]
  fails := by
    intro inner other hother hnone
    rw [record, List.singleton_append, replaceAt]
    refine hread _ _ _ (fields?_object names _) ?_ (replaceAt_ne_null hother hvalue) hnone
    rw [Entries.get?_modify, get?_field hnamed hnodup hfield, Option.map_some]

/-! ### Variants -/

/-- The place lies in a field of a record other than the tag. -/
def Beside (tag : String) (place : List Step) : Prop :=
  ∃ name inner, place = .key name :: inner ∧ name ≠ tag

theorem Beside.append {tag : String} {place : List Step} (h : Beside tag place)
    (inner : List Step) : Beside tag (place ++ inner) := by
  obtain ⟨name, rest, rfl, hname⟩ := h
  exact ⟨name, rest ++ inner, rfl, hname⟩

/-- Beside the tag a variant holds what the record of its fields holds. -/
theorem at?_variant {tag variant : String} {place : List Step} (hplace : Beside tag place) :
    at? place (record (Json.field tag (.string variant) :: fields)) = at? place (record fields) := by
  obtain ⟨name, inner, rfl, hname⟩ := hplace
  have hget : Entries.get? name ((tag, Json.string variant) :: fields.filterMap id) =
      Entries.get? name (fields.filterMap id) := if_neg hname.symm
  exact congrArg (Option.bind · (at? inner)) hget

/-- A change beside the tag is a change of the record of the fields: it does not make a variant
another one, though it may make the document unreadable. -/
theorem tagged?_replaceAt {tag variant : String} {place : List Step} (hplace : Beside tag place)
    (hnamed : List.Forall₂ IsNamed names fields) (htag : tag ∉ names) (value : Json) :
    (replaceAt value place (record (Json.field tag (.string variant) :: fields))).tagged? tag =
        none ∨
      (replaceAt value place (record (Json.field tag (.string variant) :: fields))).tagged? tag =
        some (variant, replaceAt value place (record fields)) := by
  obtain ⟨name, inner, rfl, hname⟩ := hplace
  have hreplaced : replaceAt value (.key name :: inner)
      (record (Json.field tag (.string variant) :: fields)) =
      .object ((tag, .string variant) ::
        Entries.modify name (replaceAt value inner) (fields.filterMap id)) :=
    congrArg Json.object (if_neg hname.symm)
  have hothers : ∀ member ∈ Entries.modify name (replaceAt value inner) (fields.filterMap id),
      member.1 ≠ tag := by
    intro member hmember
    have hkey := List.mem_map_of_mem (f := Prod.fst) hmember
    rw [Entries.keys_modify] at hkey
    rintro rfl
    exact htag ((keys_sublist hnamed).subset hkey)
  obtain ⟨honce, hrest⟩ := filter_key (.string variant) hothers
  rw [hreplaced, tagged?]
  split
  · simp only [honce, hrest]
    exact .inr rfl
  · exact .inl rfl

/-- A variant demands, beside its tag, what the record of its fields demands. -/
theorem Demands.variant {read? : Json → Option α} {record? : Json → Option β}
    {part? : Json → Option γ} {tag variant : String} {place : List Step} {part : Json}
    (h : Demands record? (record fields) place part? part) (hplace : Beside tag place)
    (hnamed : List.Forall₂ IsNamed names fields) (htag : tag ∉ names)
    (hread : ∀ document rest,
      document.tagged? tag = none ∨ document.tagged? tag = some (variant, rest) →
        record? rest = none → read? document = none) :
    Demands read? (record (Json.field tag (.string variant) :: fields)) place part? part where
  stands := by rw [at?_variant hplace, h.stands]
  fails := by
    intro inner value hvalue hpart
    exact hread _ _ (tagged?_replaceAt (hplace.append inner) hnamed htag value)
      (h.fails inner value hvalue hpart)

end Demands

end Json

end Pipeline
