/-
Stored versions: what a registry answers after any sequence of insertions.

Two questions are asked of a registry, and one insertion is described by what it does
to their answers. The component of an identifier and version changes for what is
inserted and for nothing else (`Registry.pinned?_insert`). And what is stored has the
keys it had and the new one (`Registry.mem_keys_insert`). A run of insertions is then
a list of components that are inserted one after another, and both facts carry over to
it by induction from its end.

The latest version needs no induction over insertions. The greatest of the versions
that are stored is found whatever the order in which they stand
(`Registry.latest?_cases`), and which versions are stored is known by then.
-/
import Mathlib.Data.Finset.Card
import Mathlib.Data.List.Nodup
import Pipeline.Proofs.Lookup
import Pipeline.Registry.Basic

set_option autoImplicit false

namespace Pipeline

namespace Registry

variable {registry : Registry} {component : Component} {id : ComponentId} {version : UInt64}

/-! ## One insertion -/

theorem key_of_pinned? (h : registry.pinned? id version = some component) :
    component.key = (id, version) :=
  key_of_find? h

/-- What is stored is found under its identifier and version. -/
theorem pinned?_of_mem (h : component ∈ registry.stored) :
    registry.pinned? component.id component.revision = some component :=
  find?_of_nodup registry.distinct h

/-- An insertion is seen at its own identifier and version and nowhere else. -/
theorem pinned?_insert (registry : Registry) (component : Component) (id : ComponentId)
    (version : UInt64) :
    (registry.insert component).pinned? id version =
      if component.key = (id, version) then some component else registry.pinned? id version := by
  simp only [pinned?, insert]
  by_cases hkey : component.key = (id, version)
  · rw [if_pos hkey, List.find?_cons_of_pos (by rwa [decide_eq_true_eq])]
  · rw [if_neg hkey, List.find?_cons_of_neg (by rwa [decide_eq_true_eq]), List.find?_filter]
    congr 1
    funext other
    -- What was taken away had the key of the new component.
    by_cases hother : other.key = (id, version)
    · simp [hother, Ne.symm hkey]
    · simp [hother]

/-- After an insertion there is one more key, if it was not there before. -/
theorem mem_keys_insert {key : ComponentId × UInt64} :
    key ∈ (registry.insert component).stored.map Component.key ↔
      key = component.key ∨ key ∈ registry.stored.map Component.key := by
  rw [insert, List.map_cons, List.mem_cons]
  by_cases hkey : key = component.key
  · simp [hkey]
  · simp only [hkey, false_or, List.mem_map, List.mem_filter, decide_eq_true_eq]
    refine exists_congr fun other => ?_
    constructor
    · rintro ⟨⟨hother, -⟩, rfl⟩
      exact ⟨hother, rfl⟩
    · rintro ⟨hother, rfl⟩
      exact ⟨⟨hother, hkey⟩, rfl⟩

/-! ## The greatest version -/

/-- Of components that come one after another the newest so far is kept. -/
theorem foldl_newer (components : List Component) (best : Component) :
    ∃ newest ∈ best :: components,
      components.foldl newer (some best) = some newest ∧
        ∀ other ∈ best :: components, other.revision ≤ newest.revision := by
  induction components generalizing best with
  | nil => exact ⟨best, List.mem_cons_self, rfl, by simp⟩
  | cons next components ih =>
    rw [List.foldl_cons, newer]
    by_cases hlt : best.revision < next.revision
    · rw [if_pos hlt]
      obtain ⟨newest, hmem, hfound, hgreatest⟩ := ih next
      refine ⟨newest, List.mem_cons_of_mem _ hmem, hfound, List.forall_mem_cons.2 ⟨?_, hgreatest⟩⟩
      exact UInt64.le_trans (UInt64.le_of_lt hlt) (hgreatest next List.mem_cons_self)
    · rw [if_neg hlt]
      obtain ⟨newest, hmem, hfound, hgreatest⟩ := ih best
      obtain ⟨hbest, hrest⟩ := List.forall_mem_cons.1 hgreatest
      refine ⟨newest, ?_, hfound, ?_⟩
      · rcases List.mem_cons.1 hmem with rfl | hmem
        · exact List.mem_cons_self
        · exact List.mem_cons_of_mem _ (List.mem_cons_of_mem _ hmem)
      · refine List.forall_mem_cons.2 ⟨hbest, List.forall_mem_cons.2 ⟨?_, hrest⟩⟩
        exact UInt64.le_trans (UInt64.not_lt.1 hlt) hbest

/-- The latest version of an identifier is a stored one that no other exceeds, if there is any. -/
theorem latest?_cases (registry : Registry) (id : ComponentId) :
    ((∀ other ∈ registry.stored, other.id ≠ id) ∧ registry.latest? id = none) ∨
      ∃ newest ∈ registry.stored, newest.id = id ∧ registry.latest? id = some newest ∧
        ∀ other ∈ registry.stored, other.id = id → other.revision ≤ newest.revision := by
  have hmem : ∀ other, other ∈ registry.stored.filter (·.id = id) ↔
      other ∈ registry.stored ∧ other.id = id := fun other => by
    rw [List.mem_filter, decide_eq_true_eq]
  unfold latest?
  cases hversions : registry.stored.filter (·.id = id) with
  | nil =>
    rw [hversions] at hmem
    refine .inl ⟨fun other hother hid => ?_, rfl⟩
    exact List.not_mem_nil ((hmem other).2 ⟨hother, hid⟩)
  | cons first rest =>
    rw [hversions] at hmem
    obtain ⟨newest, hnewest, hfound, hgreatest⟩ := foldl_newer rest first
    obtain ⟨hstored, hid⟩ := (hmem newest).1 hnewest
    refine .inr ⟨newest, hstored, hid, hfound, fun other hother hid => ?_⟩
    exact hgreatest other ((hmem other).2 ⟨hother, hid⟩)

/-- Whatever is answered has the identifier that was asked for. -/
theorem id_of_get? {request : Request} (h : registry.get? request = some component) :
    component.id = request.id := by
  cases request with
  | pinned id version => exact congrArg Prod.fst (key_of_pinned? h)
  | latest id =>
    rcases registry.latest?_cases id with ⟨-, hnone⟩ | ⟨newest, -, hid, hfound, -⟩
    · cases hnone.symm.trans h
    · obtain rfl := Option.some.inj (hfound.symm.trans h)
      exact hid

/-! ## A run of insertions -/

/-- The version is the greatest one under which a component of the identifier was inserted. -/
structure IsNewest (components : List Component) (id : ComponentId) (version : UInt64) : Prop where
  inserted : (id, version) ∈ components.map Component.key
  greatest : ∀ component ∈ components, component.id = id → component.revision ≤ version

theorem ofList_concat (components : List Component) (component : Component) :
    ofList (components ++ [component]) = (ofList components).insert component :=
  List.foldl_concat ..

/-- Of the components that were inserted under an identifier and version, the last one is there. -/
theorem pinned?_ofList (components : List Component) (id : ComponentId) (version : UInt64) :
    (ofList components).pinned? id version =
      (components.filter (·.key = (id, version))).getLast? := by
  induction components using List.reverseRecOn with
  | nil => rfl
  | append_singleton components component ih =>
    rw [ofList_concat, pinned?_insert, ih, List.filter_append]
    by_cases hkey : component.key = (id, version)
    · rw [if_pos hkey, List.filter_cons_of_pos (by rwa [decide_eq_true_eq]), List.filter_nil,
        List.getLast?_concat]
    · rw [if_neg hkey, List.filter_cons_of_neg (by rwa [decide_eq_true_eq]), List.filter_nil,
        List.append_nil]

/-- The keys that are stored are those that were inserted. -/
theorem mem_keys_ofList {components : List Component} {key : ComponentId × UInt64} :
    key ∈ (ofList components).stored.map Component.key ↔ key ∈ components.map Component.key := by
  induction components using List.reverseRecOn with
  | nil => rfl
  | append_singleton components component ih =>
    rw [ofList_concat, mem_keys_insert, ih, List.map_append, List.map_singleton, List.mem_append,
      List.mem_singleton, or_comm]

/-- What holds of all keys that are stored holds of all that were inserted. -/
theorem forall_inserted {components : List Component} {p : ComponentId × UInt64 → Prop}
    (h : ∀ stored ∈ (ofList components).stored, p stored.key) :
    ∀ inserted ∈ components, p inserted.key := by
  intro inserted hinserted
  have hkey : inserted.key ∈ (ofList components).stored.map Component.key :=
    mem_keys_ofList.2 (List.mem_map_of_mem hinserted)
  obtain ⟨stored, hstored, heq⟩ := List.mem_map.1 hkey
  exact heq ▸ h stored hstored

/-- The latest version that is stored is the newest one that was inserted. -/
theorem latest?_ofList (components : List Component) (id : ComponentId) :
    id ∉ components.map (·.id) ∧ (ofList components).latest? id = none ∨
      ∃ version, IsNewest components id version ∧
        (ofList components).latest? id = (ofList components).pinned? id version := by
  rcases (ofList components).latest?_cases id with
    ⟨hnone, hanswer⟩ | ⟨newest, hmem, rfl, hanswer, hgreatest⟩
  · refine .inl ⟨fun hid => ?_, hanswer⟩
    obtain ⟨inserted, hinserted, heq⟩ := List.mem_map.1 hid
    exact forall_inserted (p := fun key => key.1 ≠ id) hnone inserted hinserted heq
  · refine .inr ⟨newest.revision, ⟨?_, ?_⟩, hanswer.trans (pinned?_of_mem hmem).symm⟩
    · exact mem_keys_ofList.1 (List.mem_map_of_mem hmem)
    · exact forall_inserted (p := fun key => key.1 = newest.id → key.2 ≤ newest.revision) hgreatest

/-! ## Counting -/

theorem nodup_eraseDups (ids : List ComponentId) : ids.eraseDups.Nodup := by
  cases ids with
  | nil => exact List.nodup_nil
  | cons id ids =>
    rw [List.eraseDups_cons, List.nodup_cons]
    refine ⟨?_, nodup_eraseDups _⟩
    rw [List.mem_eraseDups]
    simp
termination_by ids.length
decreasing_by exact Nat.lt_succ_of_le (List.length_filter_le _ _)

theorem size_eq_card (registry : Registry) :
    registry.size = (registry.stored.map (·.id)).toFinset.card := by
  rw [size, ← List.toFinset_card_of_nodup (nodup_eraseDups _)]
  congr 1
  ext id
  rw [List.mem_toFinset, List.mem_toFinset, List.mem_eraseDups]

/-- As many identifiers are counted as were inserted. -/
theorem size_ofList (components : List Component) :
    (ofList components).size = (components.map (·.id)).toFinset.card := by
  have hids : ∀ components : List Component,
      components.map (·.id) = (components.map Component.key).map Prod.fst := fun components => by
    rw [List.map_map]
    rfl
  rw [size_eq_card, hids, hids]
  congr 1
  ext id
  simp only [List.mem_toFinset, List.mem_map (f := Prod.fst), mem_keys_ofList]

/-- **A registry is a store of versions.** After any sequence of insertions into an empty registry,
a version is answered with the component that was inserted last under it, the latest version with
what the greatest version of the identifier is answered with, and neither with anything where
nothing was inserted; every answer has the identifier that was asked for; and each identifier counts
once. -/
theorem insertions_answered (components : List Component) :
    (∀ id version, (ofList components).get? (.pinned id version) =
      (components.filter (·.key = (id, version))).getLast?) ∧
    (∀ id, id ∉ components.map (·.id) ∧ (ofList components).get? (.latest id) = none ∨
      ∃ version, IsNewest components id version ∧
        (ofList components).get? (.latest id) = (ofList components).get? (.pinned id version)) ∧
    (∀ request, ∀ component ∈ (ofList components).get? request, component.id = request.id) ∧
    (ofList components).size = (components.map (·.id)).toFinset.card := by
  refine ⟨?_, ?_, fun request component hanswer => ?_, ?_⟩
  · exact pinned?_ofList components
  · exact latest?_ofList components
  · exact id_of_get? hanswer
  · exact size_ofList components

/-- The greatest version is the latest, also when it came first. A component without a version is
replaced by one of version zero. -/
example :
    let stored (name : String) (version : Option UInt64) : Component :=
      { Component.ofImplementation default name .any with version }
    let registry := ofList [stored "c" (some 3), stored "a" none, stored "b" (some 0)]
    (registry.get? (.latest default)).map (·.name) = some "c" ∧
      (registry.get? (.pinned default 0)).map (·.name) = some "b" ∧ registry.size = 1 := by
  decide

end Registry

end Pipeline
