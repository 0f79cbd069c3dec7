/-
JSON values.

An object is a list of members, because a reader has to see a repeated key in
order to refuse it. Values that are only passed through, such as the source of
a volume, have no use for that: they are kept in the form with sorted keys,
each at most once (`FreeForm`), where equal documents are equal values.

A text can hold parts that are well formed and yet denote no value: a number
beyond binary64, a string with half of a surrogate pair, an array nested too
deep. They do no harm where nobody looks at them, in a field that the reader of
a record does not know. The value `unreadable` stands for such a part; whoever
needs the part fails on it, and whoever skips the field never notices.
-/
import Pipeline.KeyMap
import Pipeline.Number.Binary64

set_option autoImplicit false

namespace Pipeline

/-- A number: integers stay exact, all others are binary64. -/
inductive Json.Number where
  | integer (value : Int)
  | real (value : Binary64)
  deriving DecidableEq

/-- A JSON value, with the members of objects as they are written. -/
inductive Json where
  | null
  | bool (value : Bool)
  | number (value : Json.Number)
  | string (value : String)
  | array (items : List Json)
  | object (members : List (String × Json))
  /-- A well-formed part of a text that denotes no value. -/
  | unreadable

namespace Json

instance : Inhabited Json := ⟨.null⟩

/-- The integer value `n`. -/
def ofInt (n : Int) : Json := .number (.integer n)

/-- The natural number `n`. -/
def ofNat (n : Nat) : Json := ofInt n

/-! ## Readable values -/

mutual
/-- No part of the value is unreadable. -/
def isReadable : Json → Bool
  | .array items => allReadable items
  | .object members => membersReadable members
  | .unreadable => false
  | _ => true
termination_by structural value => value
def allReadable : List Json → Bool
  | [] => true
  | item :: items => item.isReadable && allReadable items
termination_by structural items => items
def membersReadable : List (String × Json) → Bool
  | [] => true
  | (_, value) :: members => value.isReadable && membersReadable members
termination_by structural members => members
end

/-! ## Nesting -/

mutual
/-- The number of arrays and objects around the innermost part of the value. -/
def depth : Json → Nat
  | .array items => itemsDepth items + 1
  | .object members => membersDepth members + 1
  | _ => 0
termination_by structural value => value
def itemsDepth : List Json → Nat
  | [] => 0
  | item :: items => max item.depth (itemsDepth items)
termination_by structural items => items
def membersDepth : List (String × Json) → Nat
  | [] => 0
  | (_, value) :: members => max value.depth (membersDepth members)
termination_by structural members => members
end

/-! ## Values with sorted keys -/

mutual
/-- Every object of the value lists its keys in increasing order, and every part is readable. -/
def isSorted : Json → Bool
  | .array items => allSorted items
  | .object members => decide (Entries.Sorted members) && membersSorted members
  | .unreadable => false
  | _ => true
termination_by structural value => value
def allSorted : List Json → Bool
  | [] => true
  | item :: items => item.isSorted && allSorted items
termination_by structural items => items
def membersSorted : List (String × Json) → Bool
  | [] => true
  | (_, value) :: members => value.isSorted && membersSorted members
termination_by structural members => members
end

mutual
/-- The value with the keys of every object sorted, the later of two equal keys staying; none when
some part is unreadable. -/
def sorted? : Json → Option Json
  | .array items => (allSorted? items).map .array
  | .object members => (membersSorted? members).map fun members => .object (Entries.sort members)
  | .unreadable => none
  | value => some value
termination_by structural value => value
def allSorted? : List Json → Option (List Json)
  | [] => some []
  | item :: items =>
    match item.sorted?, allSorted? items with
    | some item, some items => some (item :: items)
    | _, _ => none
termination_by structural items => items
def membersSorted? : List (String × Json) → Option (List (String × Json))
  | [] => some []
  | (key, value) :: members =>
    match value.sorted?, membersSorted? members with
    | some value, some members => some ((key, value) :: members)
    | _, _ => none
termination_by structural members => members
end

theorem membersSorted_iff {members : List (String × Json)} :
    membersSorted members = true ↔ ∀ member ∈ members, member.2.isSorted = true := by
  induction members with
  | nil => simp [membersSorted]
  | cons member members ih => simp [membersSorted, ih]

/-- Sorting members that are sorted inside yields a sorted object. -/
theorem isSorted_object_sort {members : List (String × Json)}
    (h : membersSorted members = true) : (Json.object (Entries.sort members)).isSorted = true := by
  simp only [isSorted, Bool.and_eq_true, decide_eq_true_eq]
  refine ⟨Entries.sorted_sort members, membersSorted_iff.2 fun member hmember => ?_⟩
  exact membersSorted_iff.1 h member (Entries.mem_of_mem_sort hmember)

mutual
theorem isSorted_of_sorted? : ∀ {value value' : Json}, value.sorted? = some value' →
    value'.isSorted = true
  | .null, _, h | .bool _, _, h | .number _, _, h | .string _, _, h => by
    simp only [sorted?, Option.some.injEq] at h
    subst h; rfl
  | .unreadable, _, h => by simp [sorted?] at h
  | .array items, _, h => by
    obtain ⟨items', hitems, rfl⟩ := Option.map_eq_some_iff.1 h
    exact allSorted_of_allSorted? hitems
  | .object members, _, h => by
    obtain ⟨members', hmembers, rfl⟩ := Option.map_eq_some_iff.1 h
    exact isSorted_object_sort (membersSorted_of_membersSorted? hmembers)
theorem allSorted_of_allSorted? : ∀ {items items' : List Json},
    allSorted? items = some items' → allSorted items' = true
  | [], _, h => by
    simp only [allSorted?, Option.some.injEq] at h
    subst h; rfl
  | item :: items, _, h => by
    unfold allSorted? at h
    split at h
    · rename_i item' items' hitem hitems
      simp only [Option.some.injEq] at h
      subst h
      simp [allSorted, isSorted_of_sorted? hitem, allSorted_of_allSorted? hitems]
    · simp at h
theorem membersSorted_of_membersSorted? : ∀ {members members' : List (String × Json)},
    membersSorted? members = some members' → membersSorted members' = true
  | [], _, h => by
    simp only [membersSorted?, Option.some.injEq] at h
    subst h; rfl
  | (key, value) :: members, _, h => by
    unfold membersSorted? at h
    split at h
    · rename_i value' members' hvalue hmembers
      simp only [Option.some.injEq] at h
      subst h
      simp [membersSorted, isSorted_of_sorted? hvalue, membersSorted_of_membersSorted? hmembers]
    · simp at h
end

end Json

/-! ## Free-form values -/

/-- A value that is kept as it was given, up to the order of keys. -/
structure FreeForm where
  value : Json
  sorted : value.isSorted = true

namespace FreeForm

/-- The free-form value of a document; none when some part of it is unreadable. -/
def ofJson? (document : Json) : Option FreeForm :=
  match h : document.sorted? with
  | some value => some ⟨value, Json.isSorted_of_sorted? h⟩
  | none => none

theorem ext {a b : FreeForm} (h : a.value = b.value) : a = b := by
  cases a; cases b; simp_all

end FreeForm

end Pipeline
