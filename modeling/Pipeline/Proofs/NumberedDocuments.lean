/-
Numbered documents: what the latest version is, and whether it can be asked for by
its number.

A directory of versions is listed in no particular order. The names in it are folded
into the one with the greatest number, and of several with that number the first is
kept (`foldl_newer`), so the number is the same in every order while the document
need not be.

Names are read as numbers in many spellings, digits behind zeros or a plus sign among
them, and a number is written in one. A request for a version looks for the name that
is written (`pinnedPath`). It finds the document that a request for the latest version
has found exactly when that one is spelled as it would be written
(`latest_agrees_iff`). A document called `007.json` can be the latest one and is not
found by its number (`seventh_overlooked`).
-/
import Mathlib.Data.List.Induction
import Pipeline.Proofs.Composite
import Pipeline.Registry.Directory

set_option autoImplicit false

namespace Pipeline

/-! ## Disks -/

namespace Disk

variable {disk : Disk} {path : String}

/-- What can be read is there. -/
theorem doesExist_of_read {content : String} (h : disk.read path = .ok content) :
    disk.doesExist path = .ok true := by
  obtain ⟨tree, hfind, -⟩ := bind_eq_ok.1 h
  rw [doesExist, hfind]

end Disk

namespace ComponentDirectory

variable {directory : ComponentDirectory} {disk : Disk} {id : ComponentId}

/-! ## What is meant -/

/-- The name of the document of a version. -/
def pinnedName (version : UInt64) : String := toString version ++ ending

/-- The document that is found for an identifier when its numbered documents are listed in the
order. -/
def latestAmong (directory : ComponentDirectory) (id : ComponentId) (order : List String) :
    Option String :=
  (order.foldl newer none).map fun best => below (directory.versionsPath id) best.2

/-- The version is the greatest number of any document that is listed. -/
structure IsNewest (listed : List String) (version : UInt64) : Prop where
  numbered : ∃ name ∈ listed, versionOf? name = some version.toNat
  greatest : ∀ name ∈ listed, ∀ number, versionOf? name = some number → number ≤ version.toNat

/-- The first document of a version. -/
def firstOf (order : List String) (version : UInt64) : Option String :=
  order.find? fun name => versionOf? name = some version.toNat

/-! ## Names -/

/-- Numbers of documents are versions. -/
theorem lt_size_of_versionOf? {name : String} {number : Nat} (h : versionOf? name = some number) :
    number < UInt64.size := by
  obtain ⟨stem, -, h⟩ := Option.bind_eq_some_iff.1 h
  obtain ⟨version, -, h⟩ := Option.bind_eq_some_iff.1 h
  by_cases hlt : version < UInt64.size
  · rw [if_pos hlt] at h
    obtain rfl := Option.some.inj h
    exact hlt
  · rw [if_neg hlt] at h
    cases h

/-- Entries of one directory differ by their names. -/
theorem below_injective (root : String) : Function.Injective (below root) := by
  intro name other h
  unfold below at h
  by_cases hslash : root.endsWith "/"
  · rwa [if_pos hslash, if_pos hslash, String.append_right_inj] at h
  · rwa [if_neg hslash, if_neg hslash, String.append_right_inj] at h

/-! ## The greatest number -/

/-- Of names that come one after another the first one with the greatest number is kept. -/
theorem foldl_newer (order : List String) :
    (∀ name ∈ order, versionOf? name = none) ∧ order.foldl newer none = none ∨
      ∃ number name, order.foldl newer none = some (number, name) ∧
        order.find? (fun other => versionOf? other = some number) = some name ∧
        ∀ other ∈ order, ∀ found, versionOf? other = some found → found ≤ number := by
  induction order using List.reverseRecOn with
  | nil => exact .inl ⟨by simp, rfl⟩
  | append_singleton order next ih =>
    simp only [List.foldl_concat, newer, List.forall_mem_append, List.forall_mem_singleton,
      List.find?_append]
    rcases ih with ⟨hnone, hfold⟩ | ⟨number, name, hfold, hfind, hgreatest⟩
    · cases hnext : versionOf? next with
      | none => exact .inl ⟨⟨hnone, rfl⟩, hfold⟩
      | some version =>
        -- The first number that is met.
        refine .inr ⟨version, next, by rw [hfold], ?_, ?_, ?_⟩
        · rw [List.find?_eq_none.2 fun other hother => by simp [hnone other hother]]
          simp [hnext]
        · intro other hother found hfound
          cases (hnone other hother).symm.trans hfound
        · rintro found ⟨⟩
          exact Nat.le_refl _
    · refine .inr ?_
      cases hnext : versionOf? next with
      | none => exact ⟨number, name, hfold, by rw [hfind, Option.some_or], hgreatest, by simp⟩
      | some version =>
        by_cases hlt : number < version
        · refine ⟨version, next, by rw [hfold]; exact if_pos hlt, ?_, ?_, ?_⟩
          · -- No name before has the number of the next one, which exceeds theirs.
            rw [List.find?_eq_none.2 fun other hother => ?_]
            · simp [hnext]
            · rw [decide_eq_true_eq]
              intro hsame
              exact absurd (hgreatest other hother version hsame) (Nat.not_le.2 hlt)
          · intro other hother found hfound
            exact Nat.le_trans (hgreatest other hother found hfound) (Nat.le_of_lt hlt)
          · rintro found ⟨⟩
            exact Nat.le_refl _
        · refine ⟨number, name, by rw [hfold]; exact if_neg hlt, by rw [hfind, Option.some_or],
            hgreatest, ?_⟩
          rintro found ⟨⟩
          exact Nat.not_lt.1 hlt

/-- In any order the newest version is found, in the first of its documents. -/
theorem isNewest_of_latestAmong {listed order : List String} {path : String}
    (hperm : order.Perm listed) (h : directory.latestAmong id order = some path) :
    ∃ version name, IsNewest listed version ∧ firstOf order version = some name ∧
      path = below (directory.versionsPath id) name := by
  obtain ⟨best, hbest, rfl⟩ := Option.map_eq_some_iff.1 h
  rcases foldl_newer order with ⟨-, hnone⟩ | ⟨number, name, hfold, hfind, hgreatest⟩
  · cases hnone.symm.trans hbest
  · obtain rfl := Option.some.inj (hfold.symm.trans hbest)
    have hnumber : versionOf? name = some number := key_of_find? hfind
    obtain ⟨version, rfl⟩ : ∃ version : UInt64, version.toNat = number :=
      ⟨_, UInt64.toNat_ofNat_of_lt (lt_size_of_versionOf? hnumber)⟩
    refine ⟨version, name, ⟨⟨name, ?_, hnumber⟩, fun other hother => ?_⟩, hfind, rfl⟩
    · exact hperm.mem_iff.1 (List.mem_of_find?_eq_some hfind)
    · exact hgreatest other (hperm.mem_iff.2 hother)

/-! ## Requests -/

/-- Without a document that carries no number, the latest one is found among those that do. -/
theorem path?_latest {path : String} (hflat : disk.doesExist (directory.flatPath id) = .ok false) :
    directory.path? disk (.latest id) = .ok (some path) ↔
      ∃ listed, disk.list (directory.versionsPath id) = .ok listed ∧
        directory.latestAmong id listed = some path := by
  have hpath : directory.path? disk (.latest id) = directory.latestPath? disk id := by
    rw [path?, hflat]
    rfl
  rw [hpath, latestPath?]
  cases hlist : disk.list (directory.versionsPath id) with
  | error cause => cases cause <;> simp
  | ok listed => simp [latestAmong]

/-- A version is found in a document that can be read exactly when this is the one that is named by
its number. -/
theorem path?_pinned {version : UInt64} {name content : String}
    (hread : disk.read (below (directory.versionsPath id) name) = .ok content) :
    directory.path? disk (.pinned id version) =
        .ok (some (below (directory.versionsPath id) name)) ↔
      name = pinnedName version := by
  constructor
  · intro h
    obtain ⟨found, -, h⟩ := bind_eq_ok.1 h
    rw [pure_eq_ok] at h
    cases found with
    | false => cases h
    | true => exact (below_injective _ (Option.some.inj h)).symm
  · rintro rfl
    have hexists := Disk.doesExist_of_read hread
    exact bind_eq_ok.2 ⟨true, mapError_eq_ok.2 hexists, rfl⟩

/-- Whatever is answered has the identifier that was asked for. -/
theorem id_of_lookup {request : Request} {component : Component}
    (h : directory.lookup disk request = .ok component) : component.id = request.id := by
  obtain ⟨path, -, h⟩ := bind_eq_ok.1 h
  cases path with
  | none => cases h
  | some path =>
    obtain ⟨text, -, h⟩ := bind_eq_ok.1 h
    cases hread : (Json.parse? text).bind Component.ofJson? with
    | none =>
      rw [hread] at h
      cases h
    | some found =>
      simp only [hread] at h
      by_cases hid : found.id = request.id
      · rw [if_pos hid, pure_eq_ok] at h
        rwa [← h]
      · rw [if_neg hid] at h
        cases h

/-- **The latest version and its number.** Where there is no document without a number, a request
for the latest version finds one of those that are listed. In whatever order they are listed, the
one that is found and read is the first one of the newest version, and a request for this version
finds the same document exactly when its name is the one that is written for the version. Every
component that is answered declares the identifier that was asked for. -/
theorem latest_agrees_iff (directory : ComponentDirectory) (disk : Disk) :
    (∀ id, disk.doesExist (directory.flatPath id) = .ok false →
      (∀ path, directory.path? disk (.latest id) = .ok (some path) ↔
        ∃ listed, disk.list (directory.versionsPath id) = .ok listed ∧
          directory.latestAmong id listed = some path) ∧
      ∀ listed, disk.list (directory.versionsPath id) = .ok listed →
        ∀ order : List String, order.Perm listed → ∀ path content,
          directory.latestAmong id order = some path → disk.read path = .ok content →
          ∃ version name, IsNewest listed version ∧ firstOf order version = some name ∧
            path = below (directory.versionsPath id) name ∧
            (directory.path? disk (.pinned id version) = .ok (some path) ↔
              name = pinnedName version)) ∧
    ∀ request component, directory.lookup disk request = .ok component →
      component.id = request.id := by
  refine ⟨fun id hflat => ⟨fun path => ?_, ?_⟩, fun request component => ?_⟩
  · exact path?_latest hflat
  · intro listed _ order hperm path content hfound hread
    obtain ⟨version, name, hnewest, hfirst, rfl⟩ := isNewest_of_latestAmong hperm hfound
    exact ⟨version, name, hnewest, hfirst, rfl, path?_pinned hread⟩
  · exact id_of_lookup

/-! ## Two directories -/

/-- The directory at `c`. -/
def stored : ComponentDirectory := ⟨"c"⟩

/-- The document of a component, with a version and as few fields as there may be. -/
def numbered (version : UInt64) : String :=
  "\x7b\"id\":\"11111111111111111111111111111111\",\"name\":\"step\",\"version\":" ++
  toString version ++ ",\"implementation\":\x7b\"type\":\"any\"\x7d\x7d"

/-- The path of a numbered document of the component. -/
def numberedPath (name : String) : String := below (stored.versionsPath (.repeating 1)) name

/-- A disk with these documents of the component. -/
def numberedDisk (documents : List (String × String)) : Disk :=
  let versions := documents.map fun (name, text) => (name, FileTree.file text)
  ⟨.directory [("c", .directory [((ComponentId.repeating 1).text, .directory versions)])], []⟩

/-- Two versions, and something else. -/
def tenthDisk : Disk :=
  numberedDisk [("10.json", numbered 10), ("2.json", numbered 2), ("notes.txt", numbered 11)]

/-- The tenth version is the latest one, also when it is listed last, and is found by its number. -/
theorem tenth_found :
    stored.path? tenthDisk (.latest (.repeating 1)) = .ok (some (numberedPath "10.json")) ∧
    IsNewest ["10.json", "2.json", "notes.txt"] 10 ∧
    stored.path? tenthDisk (.pinned (.repeating 1) 10) = .ok (some (numberedPath "10.json")) ∧
    ∃ component, stored.lookup tenthDisk (.latest (.repeating 1)) = .ok component ∧
      component.version = some 10 ∧ component.id = .repeating 1 := by
  have hflat : tenthDisk.doesExist (stored.flatPath (.repeating 1)) = .ok false := by
    decide +kernel
  have hlist : tenthDisk.list (stored.versionsPath (.repeating 1)) =
      .ok ["10.json", "2.json", "notes.txt"] := by decide +kernel
  have hread : tenthDisk.read (numberedPath "10.json") = .ok (numbered 10) := by decide +kernel
  have hanswer : ∃ component, stored.lookup tenthDisk (.latest (.repeating 1)) = .ok component ∧
      component.version = some 10 := by
    rw [← exists_ok_iff]
    decide +kernel
  obtain ⟨hlatest, hids⟩ := latest_agrees_iff stored tenthDisk
  obtain ⟨hfound, horders⟩ := hlatest (.repeating 1) hflat
  obtain ⟨version, name, hnewest, hfirst, hpath, hiff⟩ :=
    horders _ hlist ["notes.txt", "2.json", "10.json"] (by decide) (numberedPath "10.json") _
      (by decide +kernel) hread
  obtain rfl : "10.json" = name := below_injective _ hpath
  have hnumber : versionOf? "10.json" = some version.toNat := key_of_find? hfirst
  have hten : versionOf? "10.json" = some (10 : UInt64).toNat := by decide +kernel
  obtain rfl : version = 10 := UInt64.toNat_inj.1 (Option.some.inj (hnumber.symm.trans hten))
  obtain ⟨component, hanswer, hversion⟩ := hanswer
  refine ⟨?_, hnewest, hiff.2 (by decide +kernel), component, hanswer, hversion, hids _ _ hanswer⟩
  exact (hfound _).2 ⟨_, hlist, by decide +kernel⟩

/-- The seventh version, with zeros before its number. -/
def seventhDisk : Disk := numberedDisk [("007.json", numbered 7)]

/-- The seventh version is the latest one and can be read, and it is not found by its number. -/
theorem seventh_overlooked :
    seventhDisk.doesExist (stored.flatPath (.repeating 1)) = .ok false ∧
    stored.path? seventhDisk (.latest (.repeating 1)) = .ok (some (numberedPath "007.json")) ∧
    seventhDisk.read (numberedPath "007.json") = .ok (numbered 7) ∧
    versionOf? "007.json" = some 7 ∧
    stored.path? seventhDisk (.pinned (.repeating 1) 7) = .ok none := by
  decide +kernel

end ComponentDirectory

end Pipeline
