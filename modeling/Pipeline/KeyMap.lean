/-
Finite maps from strings, kept as a list in increasing order of keys.

Labels, annotations, environment variables and scopes all have to come out in
the order of their keys, whatever the order in which they were bound. The list
is therefore kept sorted by every operation, and the order is part of the type:
two maps with the same bindings are equal, so a map read back from a document
can be compared with the one that was written.

The one insertion is `Entries.insert` on bare lists, which free-form JSON
objects use as well; the map wraps it with the proof that it keeps the order.
-/

set_option autoImplicit false

namespace Pipeline

/-! ## Sorted lists of bindings -/

namespace Entries

variable {β : Type}

/-- Binds a key in a sorted list, in place of an earlier binding of it. -/
def insert (key : String) (value : β) : List (String × β) → List (String × β)
  | [] => [(key, value)]
  | (k, v) :: rest =>
    if key < k then (key, value) :: (k, v) :: rest
    else if key = k then (key, value) :: rest
    else (k, v) :: insert key value rest

/-- The value bound to a key; of several bindings the first. -/
def get? (key : String) : List (String × β) → Option β
  | [] => none
  | (k, v) :: rest => if k = key then some v else get? key rest

/-- Keys stand in strictly increasing order, hence each at most once. -/
def Sorted (entries : List (String × β)) : Prop :=
  entries.Pairwise fun a b => a.1 < b.1

instance (entries : List (String × β)) : Decidable (Sorted entries) :=
  inferInstanceAs (Decidable (entries.Pairwise fun a b => a.1 < b.1))

theorem key_of_mem_insert {key : String} {value : β} {entries : List (String × β)}
    {entry : String × β} (h : entry ∈ insert key value entries) :
    entry = (key, value) ∨ entry ∈ entries := by
  induction entries with
  | nil => simpa [insert] using h
  | cons head rest ih =>
    unfold insert at h
    split at h
    · simpa using h
    · split at h
      · rcases List.mem_cons.1 h with h | h
        · exact .inl h
        · exact .inr (List.mem_cons_of_mem _ h)
      · rcases List.mem_cons.1 h with h | h
        · exact .inr (h ▸ List.mem_cons_self)
        · exact (ih h).imp_right (List.mem_cons_of_mem _)

/-- Insertion keeps the order. -/
theorem sorted_insert (key : String) (value : β) {entries : List (String × β)}
    (h : Sorted entries) : Sorted (insert key value entries) := by
  induction entries with
  | nil => simp [insert, Sorted]
  | cons head rest ih =>
    obtain ⟨hhead, hrest⟩ := List.pairwise_cons.1 h
    unfold insert
    split
    -- The key goes in front of all others.
    · rename_i hlt
      refine List.pairwise_cons.2 ⟨fun b hb => ?_, h⟩
      rcases List.mem_cons.1 hb with rfl | hb
      · exact hlt
      · exact String.lt_trans hlt (hhead b hb)
    · split
      -- The key is bound already.
      · rename_i _ heq
        exact List.pairwise_cons.2 ⟨fun b hb => heq ▸ hhead b hb, hrest⟩
      -- The key goes further back, where all are greater than the head.
      · rename_i hnot hne
        refine List.pairwise_cons.2 ⟨fun b hb => ?_, ih hrest⟩
        rcases key_of_mem_insert hb with rfl | hb
        · exact Std.lt_of_le_of_ne (String.not_lt.1 hnot) fun e => hne e.symm
        · exact hhead b hb

/-- A binding is seen at its own key and nowhere else. -/
theorem get?_insert (key key' : String) (value : β) (entries : List (String × β)) :
    get? key' (insert key value entries) = if key' = key then some value else get? key' entries := by
  induction entries with
  | nil => simp [insert, get?, eq_comm]
  | cons head rest ih =>
    obtain ⟨k, v⟩ := head
    unfold insert
    split
    · simp [get?, eq_comm]
    · split
      · rename_i heq
        subst heq
        simp only [get?]
        grind
      · simp only [get?, ih]
        grind

/-- Nothing is bound to what is not among the keys. -/
theorem get?_eq_none {key : String} {entries : List (String × β)} :
    get? key entries = none ↔ key ∉ entries.map Prod.fst := by
  induction entries with
  | nil => simp [get?]
  | cons entry rest ih =>
    by_cases hkey : entry.1 = key
    · simp [get?, hkey]
    · simp [get?, hkey, ih, Ne.symm hkey]

/-- Where keys are distinct, a key is bound to what stands next to it. -/
theorem get?_eq_some {key : String} {value : β} {entries : List (String × β)}
    (h : (entries.map Prod.fst).Nodup) : get? key entries = some value ↔ (key, value) ∈ entries := by
  induction entries with
  | nil => simp [get?]
  | cons entry rest ih =>
    obtain ⟨k, v⟩ := entry
    rw [List.map_cons, List.nodup_cons] at h
    rw [get?, List.mem_cons]
    by_cases hkey : k = key
    · subst hkey
      have hrest : (k, value) ∉ rest := fun hmem => h.1 (List.mem_map.2 ⟨_, hmem, rfl⟩)
      simp [hrest, eq_comm]
    · rw [if_neg hkey, ih h.2]
      simp [Ne.symm hkey]

/-- The bindings of a list, in order of keys; of two bindings of one key the later stays. -/
def sort (bindings : List (String × β)) : List (String × β) :=
  bindings.foldl (fun sorted binding => insert binding.1 binding.2 sorted) []

theorem sorted_foldl_insert (bindings : List (String × β)) {start : List (String × β)}
    (h : Sorted start) :
    Sorted (bindings.foldl (fun sorted binding => insert binding.1 binding.2 sorted) start) := by
  induction bindings generalizing start with
  | nil => exact h
  | cons binding rest ih => exact ih (sorted_insert _ _ h)

theorem sorted_sort (bindings : List (String × β)) : Sorted (sort bindings) :=
  sorted_foldl_insert bindings List.Pairwise.nil

theorem mem_of_mem_foldl_insert {bindings start : List (String × β)} {entry : String × β}
    (h : entry ∈ bindings.foldl (fun sorted binding => insert binding.1 binding.2 sorted) start) :
    entry ∈ start ∨ entry ∈ bindings := by
  induction bindings generalizing start with
  | nil => exact .inl h
  | cons binding rest ih =>
    rcases ih h with h | h
    · rcases key_of_mem_insert h with rfl | h
      · exact .inr List.mem_cons_self
      · exact .inl h
    · exact .inr (List.mem_cons_of_mem _ h)

/-- Sorting invents no binding. -/
theorem mem_of_mem_sort {bindings : List (String × β)} {entry : String × β}
    (h : entry ∈ sort bindings) : entry ∈ bindings :=
  (mem_of_mem_foldl_insert h).resolve_left (by simp)

end Entries

/-! ## Maps -/

/-- A finite map from strings. Its entries are listed in order of keys, so that equal maps are
equal lists. -/
structure KeyMap (β : Type) where
  /-- The bindings, in order of keys. -/
  entries : List (String × β)
  sorted : Entries.Sorted entries
  deriving DecidableEq

namespace KeyMap

variable {β : Type}

/-- The map that binds nothing. -/
def empty : KeyMap β := ⟨[], List.Pairwise.nil⟩

instance : Inhabited (KeyMap β) := ⟨empty⟩
instance : EmptyCollection (KeyMap β) := ⟨empty⟩

/-- Binds a key, in place of an earlier binding of it. -/
def insert (map : KeyMap β) (key : String) (value : β) : KeyMap β :=
  ⟨Entries.insert key value map.entries, Entries.sorted_insert key value map.sorted⟩

/-- The value bound to a key. -/
def get? (map : KeyMap β) (key : String) : Option β := Entries.get? key map.entries

/-- The bound keys, in order. -/
def keys (map : KeyMap β) : List String := map.entries.map Prod.fst

/-- The number of bound keys. -/
def size (map : KeyMap β) : Nat := map.entries.length

/-- No key is bound. -/
def isEmpty (map : KeyMap β) : Bool := map.entries.isEmpty

/-- The map of a list of bindings; of two bindings of one key the later stays. -/
def ofList (bindings : List (String × β)) : KeyMap β :=
  ⟨Entries.sort bindings, Entries.sorted_sort bindings⟩

/-- Adds bindings in order, each in place of an earlier binding of its key. -/
def insertAll (map : KeyMap β) (bindings : List (String × β)) : KeyMap β :=
  bindings.foldl (fun map binding => map.insert binding.1 binding.2) map

theorem ext {a b : KeyMap β} (h : a.entries = b.entries) : a = b := by
  cases a; cases b; simp_all

@[simp] theorem get?_empty (key : String) : (empty : KeyMap β).get? key = none := rfl

/-- A binding is seen at its own key and nowhere else. -/
@[simp] theorem get?_insert (map : KeyMap β) (key key' : String) (value : β) :
    (map.insert key value).get? key' = if key' = key then some value else map.get? key' :=
  Entries.get?_insert key key' value map.entries

theorem get?_eq_none {map : KeyMap β} {key : String} : map.get? key = none ↔ key ∉ map.keys :=
  Entries.get?_eq_none

/-- No key is bound twice. -/
theorem nodup_keys (map : KeyMap β) : map.keys.Nodup :=
  List.pairwise_map.2 (map.sorted.imp fun hlt => Std.ne_of_lt hlt)

/-- A binding is listed exactly when it is seen. -/
theorem get?_eq_some {map : KeyMap β} {key : String} {value : β} :
    map.get? key = some value ↔ (key, value) ∈ map.entries :=
  Entries.get?_eq_some map.nodup_keys

/-- Maps in which the same is seen at every key are equal. -/
theorem ext_get? {a b : KeyMap β} (h : ∀ key, a.get? key = b.get? key) : a = b := by
  have hmem : ∀ entry, entry ∈ a.entries ↔ entry ∈ b.entries := by
    intro entry
    rw [← get?_eq_some, ← get?_eq_some, h]
  have hnodup (map : KeyMap β) : map.entries.Nodup :=
    map.sorted.imp fun hlt heq => Std.ne_of_lt hlt (congrArg Prod.fst heq)
  have hperm : a.entries.Perm b.entries :=
    (List.perm_ext_iff_of_nodup (hnodup a) (hnodup b)).2 hmem
  -- Keys increase in both, so that there is one order only.
  refine ext (hperm.eq_of_pairwise (fun _ _ _ _ hlt hgt => ?_) a.sorted b.sorted)
  exact absurd (String.lt_trans hlt hgt) (String.lt_irrefl _)

end KeyMap

end Pipeline
