/-
Handover: what a child finds in the scopes that are handed down to it.

A composite narrows both scopes for each of its children. Secrets follow the
mappings into the claimant, and the last mapping of a bound input counts. Volumes
follow claims: every volume input that the child declares is claimed, and the
child finds at it the volume of the input at which the claim ends. Nothing else is
bound, so what is found in a narrower scope was always found in the wider one
first. That is said once here for every step from a visit to the next, and what
holds along a whole path of visits follows by induction on the path.
-/
import Mathlib.Data.List.Induction
import Pipeline.Proofs.Visit

set_option autoImplicit false

namespace Pipeline

/-! ## Maps of lists of bindings -/

namespace KeyMap

variable {β : Type}

theorem ofList_append_singleton (bindings : List (String × β)) (binding : String × β) :
    ofList (bindings ++ [binding]) = (ofList bindings).insert binding.1 binding.2 := by
  apply ext
  show Entries.sort (bindings ++ [binding]) =
    Entries.insert binding.1 binding.2 (Entries.sort bindings)
  rw [Entries.sort, List.foldl_append]
  rfl

theorem ofList_append (bindings more : List (String × β)) :
    ofList (bindings ++ more) = (ofList bindings).insertAll more := by
  induction more using List.reverseRecOn with
  | nil =>
    rw [List.append_nil]
    rfl
  | append_singleton more binding ih =>
    rw [← List.append_assoc, ofList_append_singleton, ih, insertAll, insertAll,
      List.foldl_append]
    rfl

/-- A key is bound to the value of its last binding in the list. -/
theorem get?_ofList (bindings : List (String × β)) (key : String) :
    (ofList bindings).get? key =
      ((bindings.filter fun binding => binding.1 = key).getLast?).map Prod.snd := by
  induction bindings using List.reverseRecOn with
  | nil => rfl
  | append_singleton bindings binding ih =>
    rw [ofList_append_singleton, get?_insert, List.filter_append]
    by_cases hkey : key = binding.1
    · have hlast : [binding].filter (fun binding => binding.1 = key) = [binding] := by
        rw [List.filter_cons_of_pos (by simpa using hkey.symm), List.filter_nil]
      rw [if_pos hkey, hlast, List.getLast?_concat, Option.map_some]
    · have hnone : [binding].filter (fun binding => binding.1 = key) = [] := by
        rw [List.filter_cons_of_neg (by simpa using Ne.symm hkey), List.filter_nil]
      rw [if_neg hkey, ih, hnone, List.append_nil]

theorem mem_of_get?_ofList {bindings : List (String × β)} {key : String} {value : β}
    (h : (ofList bindings).get? key = some value) : (key, value) ∈ bindings := by
  rw [get?_ofList, Option.map_eq_some_iff] at h
  obtain ⟨⟨found, value⟩, hlast, rfl⟩ := h
  have hmem := List.mem_of_getLast? hlast
  rw [List.mem_filter, decide_eq_true_eq] at hmem
  obtain ⟨hmem, rfl⟩ := hmem
  exact hmem

/-- A binding that no other one of its key contradicts is seen. -/
theorem get?_ofList_of_mem {bindings : List (String × β)} {key : String} {value : β}
    (hmem : (key, value) ∈ bindings)
    (hagree : ∀ other, (key, other) ∈ bindings → other = value) :
    (ofList bindings).get? key = some value := by
  cases hget : (ofList bindings).get? key with
  | some other => rw [hagree other (mem_of_get?_ofList hget)]
  | none =>
    rw [get?_ofList, Option.map_eq_none_iff, List.getLast?_eq_none_iff,
      List.filter_eq_nil_iff] at hget
    exact absurd (decide_eq_true rfl) (hget _ hmem)

/-- Where keys are distinct, exactly the bindings of the list are seen. -/
theorem get?_ofList_eq_some {bindings : List (String × β)}
    (hdistinct : (bindings.map Prod.fst).Nodup) {key : String} {value : β} :
    (ofList bindings).get? key = some value ↔ (key, value) ∈ bindings := by
  refine ⟨mem_of_get?_ofList, fun hmem => get?_ofList_of_mem hmem fun other hother => ?_⟩
  exact congrArg Prod.snd (List.inj_on_of_nodup_map hdistinct hother hmem rfl)

/-- Where keys are distinct, the order of the bindings does not matter. -/
theorem ofList_perm {bindings others : List (String × β)} (h : bindings.Perm others)
    (hdistinct : (bindings.map Prod.fst).Nodup) : ofList bindings = ofList others := by
  have hothers : (others.map Prod.fst).Nodup := (h.map _).nodup hdistinct
  refine ext_get? fun key => Option.ext fun value => ?_
  rw [get?_ofList_eq_some hdistinct, get?_ofList_eq_some hothers, h.mem_iff]

end KeyMap

/-! ## Secrets -/

theorem InputMapping.mem_bindings {mappings : List InputMapping} {node outer inner : String} :
    (outer, inner) ∈ InputMapping.bindings mappings node ↔ ⟨outer, ⟨node, inner⟩⟩ ∈ mappings := by
  rw [bindings, List.mem_map]
  constructor
  · rintro ⟨⟨source, ⟨target, port⟩⟩, hmapping, heq⟩
    rw [List.mem_filter, decide_eq_true_eq] at hmapping
    obtain ⟨hmapping, rfl⟩ := hmapping
    obtain ⟨rfl, rfl⟩ := Prod.mk.inj heq
    exact hmapping
  · intro hmapping
    exact ⟨_, List.mem_filter.2 ⟨hmapping, decide_eq_true rfl⟩, rfl⟩

/-- What a narrower scope binds, a pair brought from the wider one. -/
theorem Scope.exists_binding_of_narrow {β : Type} {scope : Scope β}
    {bindings : List (String × String)} {inner : String} {value : β}
    (h : (scope.narrow bindings).get? inner = some value) :
    ∃ outer, (outer, inner) ∈ bindings ∧ scope.get? outer = some value := by
  have hmem := KeyMap.mem_of_get?_ofList h
  obtain ⟨⟨outer, port⟩, hbinding, hvalue⟩ := List.mem_filterMap.1 hmem
  obtain ⟨found, hfound, heq⟩ := Option.map_eq_some_iff.1 hvalue
  obtain ⟨rfl, rfl⟩ := Prod.mk.inj heq
  exact ⟨outer, hbinding, hfound⟩

/-! ## Volumes -/

namespace Graph

variable {graph : Graph} {claimant : String} {child : Component} {volumes narrowed : VolumeScope}

/-- A claim that ends at a bound input binds the volume there, and one that does not is a fault. -/
theorem narrowVolumes_eq_ok (h : graph.narrowVolumes claimant child volumes = .ok narrowed) :
    ∃ bindings, narrowed = KeyMap.ofList bindings ∧
      (∀ inner, ⟨inner, .volume⟩ ∈ child.inputs → ∃ volume, (inner, volume) ∈ bindings) ∧
      ∀ inner volume, (inner, volume) ∈ bindings → ⟨inner, .volume⟩ ∈ child.inputs ∧
        ∃ outer, graph.traceInput ⟨claimant, inner⟩ = .ok outer ∧
          volumes.get? outer = some volume := by
  obtain ⟨bindings, hbindings, h⟩ := bind_eq_ok.1 h
  -- What the step for one port comes to, and with it all steps.
  have hsteps := related_of_mapM (R := fun (port : Port) (binding : String × String) =>
    binding.1 = port.name ∧ ∃ outer, graph.traceInput ⟨claimant, port.name⟩ = .ok outer ∧
      volumes.get? outer = some binding.2) hbindings ?_
  · obtain ⟨hports, hresults⟩ := hsteps
    refine ⟨bindings, (pure_eq_ok.1 h).symm, fun inner hinner => ?_, fun inner volume hmem => ?_⟩
    · have hport : (⟨inner, .volume⟩ : Port) ∈ child.inputs.filter (·.type = .volume) :=
        List.mem_filter.2 ⟨hinner, decide_eq_true rfl⟩
      obtain ⟨⟨name, volume⟩, hmem, rfl, -⟩ := hports _ hport
      exact ⟨volume, hmem⟩
    · obtain ⟨⟨name, type⟩, hport, rfl, houter⟩ := hresults _ hmem
      rw [List.mem_filter, decide_eq_true_eq] at hport
      obtain ⟨hport, rfl⟩ := hport
      exact ⟨hport, houter⟩
  · intro port binding hport
    obtain ⟨outer, houter, hport⟩ := bind_eq_ok.1 hport
    cases hvolume : volumes.get? outer with
    | none =>
      rw [hvolume] at hport
      cases hport
    | some volume =>
      rw [hvolume] at hport
      obtain rfl := pure_eq_ok.1 hport
      exact ⟨rfl, outer, houter, hvolume⟩

/-- The volume of a claim is found at every volume input that the child declares. -/
theorem exists_volume_of_narrowVolumes
    (h : graph.narrowVolumes claimant child volumes = .ok narrowed) {inner : String}
    (hinner : ⟨inner, .volume⟩ ∈ child.inputs) :
    ∃ outer volume, graph.traceInput ⟨claimant, inner⟩ = .ok outer ∧
      volumes.get? outer = some volume ∧ narrowed.get? inner = some volume := by
  obtain ⟨bindings, rfl, hdeclared, hbound⟩ := narrowVolumes_eq_ok h
  obtain ⟨volume, hmem⟩ := hdeclared inner hinner
  obtain ⟨-, outer, houter, hvolume⟩ := hbound inner volume hmem
  refine ⟨outer, volume, houter, hvolume, KeyMap.get?_ofList_of_mem hmem fun other hother => ?_⟩
  -- Declared twice, the input would still be claimed in the same way.
  obtain ⟨-, outer', houter', hvolume'⟩ := hbound inner other hother
  obtain rfl := Except.ok.inj (houter.symm.trans houter')
  exact Option.some.inj (hvolume'.symm.trans hvolume)

/-- What a child finds is the volume of a claim on an input that it declares. -/
theorem claim_of_narrowVolumes
    (h : graph.narrowVolumes claimant child volumes = .ok narrowed) {inner volume : String}
    (hinner : narrowed.get? inner = some volume) :
    ⟨inner, .volume⟩ ∈ child.inputs ∧
      ∃ outer, graph.traceInput ⟨claimant, inner⟩ = .ok outer ∧
        volumes.get? outer = some volume := by
  obtain ⟨bindings, rfl, -, hbound⟩ := narrowVolumes_eq_ok h
  exact hbound inner volume (KeyMap.mem_of_get?_ofList hinner)

end Graph

/-! ## From a visit to the next -/

namespace Visit

variable {visit next : Visit} {claim : String × Node}

theorem HandsTo.scopes_eq (h : visit.HandsTo claim next) :
    next.scopes.secrets = visit.scopes.secrets.narrow
        (InputMapping.bindings visit.component.wiring.inputMappings claim.1) ∧
      visit.component.wiring.narrowVolumes claim.1 next.component visit.scopes.volumes =
        .ok next.scopes.volumes := by
  obtain ⟨-, h⟩ := h
  obtain ⟨volumes, hvolumes, h⟩ := bind_eq_ok.1 h
  rw [← pure_eq_ok.1 h]
  exact ⟨rfl, hvolumes⟩

/-- A secret comes by a mapping from an input at which the composite finds it. -/
theorem HandsTo.exists_mapping {inner : String} {secret : Manifest.SecretKey}
    (h : visit.HandsTo claim next) (hinner : next.scopes.secrets.get? inner = some secret) :
    ∃ outer, ⟨outer, ⟨claim.1, inner⟩⟩ ∈ visit.component.wiring.inputMappings ∧
      visit.scopes.secrets.get? outer = some secret := by
  rw [h.scopes_eq.1] at hinner
  obtain ⟨outer, hbinding, houter⟩ := Scope.exists_binding_of_narrow hinner
  exact ⟨outer, InputMapping.mem_bindings.1 hbinding, houter⟩

theorem HandsTo.exists_volume {inner : String} (h : visit.HandsTo claim next)
    (hinner : ⟨inner, .volume⟩ ∈ next.component.inputs) :
    ∃ outer volume, visit.component.wiring.traceInput ⟨claim.1, inner⟩ = .ok outer ∧
      visit.scopes.volumes.get? outer = some volume ∧
      next.scopes.volumes.get? inner = some volume :=
  Graph.exists_volume_of_narrowVolumes h.scopes_eq.2 hinner

/-- A volume comes by a claim, from an input at which the composite finds it. -/
theorem HandsTo.exists_claim {inner volume : String} (h : visit.HandsTo claim next)
    (hinner : next.scopes.volumes.get? inner = some volume) :
    ⟨inner, .volume⟩ ∈ next.component.inputs ∧
      ∃ outer, visit.component.wiring.traceInput ⟨claim.1, inner⟩ = .ok outer ∧
        visit.scopes.volumes.get? outer = some volume :=
  Graph.claim_of_narrowVolumes h.scopes_eq.2 hinner

end Visit

end Pipeline
