/-
Looking things up: the first element of a list with a key.

Nodes are looked up by their identifiers, connections by their ends, results and
templates by their names, always in the same way. What was found has the key that
was asked for, something is found where there is something to find, and where no
two keys are equal the one with the key is found.
-/
import Mathlib.Data.List.Nodup

set_option autoImplicit false

namespace Pipeline

variable {α β : Type} [DecidableEq β] {key : α → β} {values : List α} {value : α} {wanted : β}

theorem key_of_find? (h : values.find? (fun other => key other = wanted) = some value) :
    key value = wanted := by
  have hkey := List.find?_some h
  exact of_decide_eq_true hkey

theorem find?_key_eq_none :
    values.find? (fun other => key other = wanted) = none ↔
      ∀ other ∈ values, key other ≠ wanted := by
  rw [List.find?_eq_none]
  exact forall₂_congr fun other _ => by rw [decide_eq_true_eq]

/-- Where there is something with the key, something is found. -/
theorem exists_find? (h : ∃ other ∈ values, key other = wanted) :
    ∃ found ∈ values, values.find? (fun other => key other = wanted) = some found := by
  cases hfind : values.find? (fun other => key other = wanted) with
  | some found => exact ⟨found, List.mem_of_find?_eq_some hfind, rfl⟩
  | none =>
    obtain ⟨other, hmem, hkey⟩ := h
    exact absurd hkey (find?_key_eq_none.1 hfind other hmem)

/-- Where the keys of a list are distinct, an element is the first with its key. -/
theorem find?_of_nodup (hdistinct : (values.map key).Nodup) (hmem : value ∈ values) :
    values.find? (fun other => key other = key value) = some value := by
  have hthere : ∃ other ∈ values, key other = key value := ⟨value, hmem, rfl⟩
  obtain ⟨found, hfound, hfind⟩ := exists_find? hthere
  have hkey : key found = key value := key_of_find? hfind
  rw [hfind, List.inj_on_of_nodup_map hdistinct hfound hmem hkey]

end Pipeline
