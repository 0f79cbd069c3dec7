/-
Declared volumes: whose volume an input is given.

An input for a volume is bound to a name, and what the name stands for is declared once, by
the first value that uses it. A later volume of the name is not compared with the one that
is declared. So a name that is looked up among the declarations stands for the first of the
volumes that the values denote under it (`Seed.ofName?_volumes`).

Every input is therefore given the volume of its own value exactly when no two values use
one name for different volumes (`Seed.provides_first`). Nothing asks for that, and a volume
can be mounted in place of another one (`Seed.twoMedia_replaced`).
-/
import Pipeline.Proofs.AcceptedValues

set_option autoImplicit false

namespace Pipeline

open Manifest (Volume)

/-! ## What is meant -/

/-- The volume that a value denotes for an input that takes one. -/
def InputValue.volume? (root : Component) (value : InputValue) : Option Volume :=
  match value.type? root with
  | some .volume => value.payload.volume?
  | _ => none

/-- The volumes that values denote, in order. -/
def InputValue.volumes (root : Component) (values : List InputValue) : List Volume :=
  values.filterMap (InputValue.volume? root)

namespace Manifest.Volume

/-- The first volume of a name. -/
def ofName? (volumes : List Volume) (name : String) : Option Volume :=
  volumes.find? (·.name = name)

/-- No name stands for two volumes. -/
def Consistent (volumes : List Volume) : Prop :=
  ∀ left ∈ volumes, ∀ right ∈ volumes, left.name = right.name → left = right

end Manifest.Volume

/-- An input is given the volume that is declared under the name to which it is bound. -/
def Seed.Provides (seed : Seed) (port : String) (volume : Volume) : Prop :=
  ∃ name, seed.scopes.volumes.get? port = some name ∧
    Volume.ofName? seed.volumes name = some volume

/-! ## One value -/

theorem Contribution.ofPayload?_eq_volume {type : PortType} {payload : Payload} {volume : Volume} :
    ofPayload? type payload = some (.volume volume) ↔
      type = .volume ∧ payload.volume? = some volume := by
  cases type with
  | volume =>
    rw [Payload.contribution_volume, Option.map_eq_some_iff]
    simp
  | envSecret =>
    rw [Payload.contribution_secret, Option.map_eq_some_iff]
    simp
  | parameter | parameterArray | artifact => cases payload <;> simp [ofPayload?]

namespace InputValue

variable {root : Component} {value : InputValue} {volume : Volume}

theorem volume?_eq_some :
    value.volume? root = some volume ↔
      value.type? root = some .volume ∧ value.payload.volume? = some volume := by
  rw [volume?]
  cases value.type? root with
  | none => simp
  | some type => cases type <;> simp

theorem contribution?_eq_volume :
    value.contribution? root = some (.volume volume) ↔ value.volume? root = some volume := by
  rw [contribution?_eq, Option.bind_eq_some_iff, volume?_eq_some]
  simp only [Contribution.ofPayload?_eq_volume, and_left_comm, exists_eq_left]

end InputValue

namespace Seed

variable {root : Component} {values : List InputValue} {value : InputValue}

/-- A volume that is bound is found under its name unless another one was found there. -/
theorem ofName?_bindVolume (seed : Seed) (port : String) (volume : Volume) (name : String) :
    Volume.ofName? (seed.bindVolume port volume).volumes name =
      (Volume.ofName? seed.volumes name).or (Volume.ofName? [volume] name) := by
  by_cases hthere : seed.volumes.any (·.name = volume.name) = true
  · have hvolumes : (seed.bindVolume port volume).volumes = seed.volumes := if_pos hthere
    rw [hvolumes]
    by_cases hname : volume.name = name
    · obtain ⟨other, hother, hsame⟩ := List.any_eq_true.1 hthere
      obtain ⟨found, -, hfound⟩ :=
        exists_find? ⟨other, hother, (of_decide_eq_true hsame).trans hname⟩
      rw [Volume.ofName?, hfound, Option.some_or]
    · have hnone : Volume.ofName? [volume] name = none :=
        find?_key_eq_none.2 fun other hother => by rwa [List.mem_singleton.1 hother]
      rw [hnone, Option.or_none]
  · have hvolumes : (seed.bindVolume port volume).volumes = seed.volumes ++ [volume] :=
      if_neg hthere
    rw [hvolumes, Volume.ofName?, List.find?_append]
    rfl

/-- What a value does to the declarations is to add the volume that it denotes, if there is one. -/
theorem ofName?_accept (seed : Seed) (value : InputValue) (name : String) :
    Volume.ofName? (seed.accept root value).volumes name =
      (Volume.ofName? seed.volumes name).or
        (Volume.ofName? (InputValue.volumes root [value]) name) := by
  rw [InputValue.volumes]
  cases hvolume : value.volume? root with
  | some volume =>
    rw [List.filterMap_cons_some hvolume, accept, InputValue.contribution?_eq_volume.2 hvolume]
    exact seed.ofName?_bindVolume value.target volume name
  | none =>
    have hvolumes : (seed.accept root value).volumes = seed.volumes := by
      rw [accept]
      cases hgiven : value.contribution? root with
      | none => rfl
      | some contribution =>
        cases contribution with
        | volume volume => cases hvolume.symm.trans (InputValue.contribution?_eq_volume.1 hgiven)
        | nothing | argument _ | secret _ => rfl
    rw [List.filterMap_cons_none hvolume, hvolumes]
    exact Option.or_none.symm

/-! ## All values -/

/-- A name stands for the first of the volumes that the values denote under it. -/
theorem ofName?_volumes {seed : Seed} (h : ofValues root values = .ok seed) (name : String) :
    Volume.ofName? seed.volumes name = Volume.ofName? (InputValue.volumes root values) name := by
  rw [← (ofValues_eq_ok.1 h).2.2]
  clear h
  induction values using List.reverseRecOn with
  | nil => rfl
  | append_singleton values value ih =>
    rw [List.foldl_append, List.foldl_cons, List.foldl_nil, ofName?_accept, ih, InputValue.volumes,
      InputValue.volumes, InputValue.volumes, List.filterMap_append]
    exact List.find?_append.symm

/-- An input is bound to the name of the volume that its value denotes. -/
theorem get?_volumes_of_mem {seed : Seed} (h : ofValues root values = .ok seed)
    (hvalue : value ∈ values) {volume : Volume} (hvolume : value.volume? root = some volume) :
    seed.scopes.volumes.get? value.target = some volume.name := by
  obtain ⟨htype, hpayload⟩ := InputValue.volume?_eq_some.1 hvolume
  exact ((holds_of_ofValues h).volumes value.target volume.name).2
    ⟨value, hvalue, rfl, htype, by rw [hpayload, Option.map_some]⟩

theorem provides_iff {seed : Seed} (h : ofValues root values = .ok seed) (hvalue : value ∈ values)
    {volume : Volume} (hvolume : value.volume? root = some volume) {provided : Volume} :
    seed.Provides value.target provided ↔
      Volume.ofName? (InputValue.volumes root values) volume.name = some provided := by
  rw [Provides, get?_volumes_of_mem h hvalue hvolume, ← ofName?_volumes h]
  simp

/-- **Whose volume an input is given.** An input for a volume is given the first of the volumes that
the values denote under the name which its own value uses. So each of these inputs is given the
volume of its own value exactly when no name stands for two volumes. -/
theorem provides_first {seed : Seed} (h : ofValues root values = .ok seed) :
    (∀ value ∈ values, ∀ volume, value.volume? root = some volume → ∀ provided,
      seed.Provides value.target provided ↔
        Volume.ofName? (InputValue.volumes root values) volume.name = some provided) ∧
    ((∀ value ∈ values, ∀ volume, value.volume? root = some volume →
        seed.Provides value.target volume) ↔
      Volume.Consistent (InputValue.volumes root values)) := by
  refine ⟨fun value hvalue volume hvolume provided => provides_iff h hvalue hvolume, ?_⟩
  constructor
  · intro hprovides left hleft right hright hname
    obtain ⟨leftValue, hleftValue, hleft⟩ := List.mem_filterMap.1 hleft
    obtain ⟨rightValue, hrightValue, hright⟩ := List.mem_filterMap.1 hright
    -- Both are the first volume of the name.
    have hleftFirst := (provides_iff h hleftValue hleft).1 (hprovides _ hleftValue _ hleft)
    have hrightFirst := (provides_iff h hrightValue hright).1 (hprovides _ hrightValue _ hright)
    rw [hname, hrightFirst] at hleftFirst
    exact (Option.some.inj hleftFirst).symm
  · intro hconsistent value hvalue volume hvolume
    have hmem : volume ∈ InputValue.volumes root values :=
      List.mem_filterMap.2 ⟨value, hvalue, hvolume⟩
    have hthere : ∃ other ∈ InputValue.volumes root values, other.name = volume.name :=
      ⟨volume, hmem, rfl⟩
    obtain ⟨first, hfirst, hfind⟩ := exists_find? hthere
    rw [provides_iff h hvalue hvolume, Volume.ofName?, hfind,
      hconsistent first hfirst volume hmem (key_of_find? hfind)]

/-! ## Two values for one name -/

/-- A brick that mounts two disks. -/
def diskPair : Component :=
  let brick : Brick := ⟨.ofImage "alpine", [.port "left", .port "right"], []⟩
  { Component.ofImplementation (.repeating 1) "pair" (.brick brick) with
    inputs := [⟨"left", .volume⟩, ⟨"right", .volume⟩] }

/-- Values for its disks, by their documents. -/
def diskValues (left right : String) : List InputValue :=
  [⟨"left", .text left⟩, ⟨"right", .text right⟩]

/-- A disk in memory. -/
def memoryDisk : String := "\x7b\"name\":\"disk\",\"emptyDir\":\x7b\x7d\x7d"

/-- A disk of the same name that is taken from the host. -/
def hostDisk : String :=
  "\x7b\"name\":\"disk\",\"hostPath\":\x7b\"path\":\"/data\"\x7d\x7d"

/-- A disk that is given twice is given to both inputs. -/
theorem sameDisk_provided :
    ∃ seed, ofValues diskPair (diskValues memoryDisk memoryDisk) = .ok seed ∧
      ∃ volume, (Payload.text memoryDisk).volume? = some volume ∧
        seed.Provides "left" volume ∧ seed.Provides "right" volume := by
  have hok : ∃ seed, ofValues diskPair (diskValues memoryDisk memoryDisk) = .ok seed ∧
      True := by
    rw [← exists_ok_iff]
    decide +kernel
  have hread : ((Payload.text memoryDisk).volume?).isSome = true := by decide +kernel
  obtain ⟨seed, hok, -⟩ := hok
  obtain ⟨volume, hread⟩ := Option.isSome_iff_exists.1 hread
  have hvolume : ∀ value ∈ diskValues memoryDisk memoryDisk,
      value.volume? diskPair = some volume := by
    intro value hvalue
    rcases List.mem_pair.1 hvalue with rfl | rfl
    all_goals exact InputValue.volume?_eq_some.2 ⟨by decide, hread⟩
  have hall : ∀ found ∈ InputValue.volumes diskPair (diskValues memoryDisk memoryDisk),
      found = volume := by
    intro found hfound
    obtain ⟨value, hvalue, hfound⟩ := List.mem_filterMap.1 hfound
    exact Option.some.inj (hfound.symm.trans (hvolume value hvalue))
  have hprovides := (provides_first hok).2.2 fun left hleft right hright _ =>
    (hall left hleft).trans (hall right hright).symm
  exact ⟨seed, hok, volume, hread, hprovides _ (.head _) _ (hvolume _ (.head _)),
    hprovides _ (.tail _ (.head _)) _ (hvolume _ (.tail _ (.head _)))⟩

/-- **One name for two disks.** The values are accepted, and the second input is given the disk of
the first one in place of its own. -/
theorem twoMedia_replaced :
    ∃ seed, ofValues diskPair (diskValues memoryDisk hostDisk) = .ok seed ∧
      ∃ value ∈ diskValues memoryDisk hostDisk, ∃ volume,
        value.volume? diskPair = some volume ∧
          ∃ other, seed.Provides value.target other ∧ other.name = volume.name ∧
            other.source ≠ volume.source ∧ ¬ seed.Provides value.target volume := by
  have hok : ∃ seed, ofValues diskPair (diskValues memoryDisk hostDisk) = .ok seed ∧
      seed.scopes.volumes.get? "right" = some "disk" ∧
      seed.volumes.map (fun volume => (volume.name, volume.source.keys)) =
        [("disk", ["emptyDir"])] := by
    rw [← exists_ok_iff]
    decide +kernel
  have hread : ∃ volume ∈ InputValue.volume? diskPair ⟨"right", .text hostDisk⟩,
      (volume.name, volume.source.keys) = ("disk", ["hostPath"]) := by
    decide +kernel
  obtain ⟨seed, hok, hbound, hdeclared⟩ := hok
  obtain ⟨volume, hvolume, hfields⟩ := hread
  obtain ⟨other, hvolumes, hother⟩ := List.map_eq_singleton_iff.1 hdeclared
  obtain ⟨hname, hkeys⟩ := Prod.mk.inj hfields
  obtain ⟨hotherName, hotherKeys⟩ := Prod.mk.inj hother
  have hprovided : seed.Provides "right" other := by
    refine ⟨"disk", hbound, ?_⟩
    rw [hvolumes]
    exact List.find?_cons_of_pos (decide_eq_true hotherName)
  have hdiffers : other.source ≠ volume.source := by
    intro hsame
    rw [hsame, hkeys] at hotherKeys
    exact absurd hotherKeys (by decide)
  refine ⟨seed, hok, _, .tail _ (.head _), volume, hvolume, other, hprovided,
    hotherName.trans hname.symm, hdiffers, ?_⟩
  rintro ⟨name, hbound', hfound⟩
  obtain rfl := Option.some.inj (hbound.symm.trans hbound')
  rw [hvolumes] at hfound
  obtain rfl := List.mem_singleton.1 (List.mem_of_find?_eq_some hfound)
  exact hdiffers rfl

end Seed

end Pipeline
