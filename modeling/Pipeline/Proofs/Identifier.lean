/-
Identifiers and their texts: the written form denotes the identifier it was
written from (`ComponentId.ofText?_text`).

The written form is the hyphenated one, so reading it has to find the hyphens
where writing put them, cut the digits into the same five groups, and read every
digit back. In a manifest a template is known by the text of an identifier only,
and it is enough to know it: different identifiers have different texts.
-/
import Mathlib.Data.List.Basic
import Pipeline.ComponentId

set_option autoImplicit false

namespace Pipeline.ComponentId

/-! ## Digits -/

theorem digit?_digitChar (digit : Fin 16) : digit? (digitChar digit) = some digit := by
  revert digit
  decide

/-- Digits are read back one by one. -/
theorem mapM_digit?_digitChar (digits : List (Fin 16)) :
    (digits.map digitChar).mapM digit? = some digits := by
  induction digits with
  | nil => rfl
  | cons digit digits ih =>
    rw [List.map_cons, List.mapM_cons, digit?_digitChar, ih]
    rfl

/-- Thirty-two digits are read as the identifier that consists of them. -/
theorem ofDigits?_digits (id : ComponentId) : ofDigits? (id.digits.map digitChar) = some id := by
  obtain ⟨digits, hlength⟩ := id
  rw [ofDigits?, mapM_digit?_digitChar]
  exact dif_pos hlength

/-! ## Groups -/

/-- Four hyphens between five groups are found where they were put. -/
theorem ofHyphenated?_groups {first second third fourth : List Char} (fifth : List Char)
    (hfirst : first.length = 8) (hsecond : second.length = 4) (hthird : third.length = 4)
    (hfourth : fourth.length = 4) :
    ofHyphenated?
        (first ++ '-' :: second ++ '-' :: third ++ '-' :: fourth ++ '-' :: fifth) =
      ofDigits? (first ++ second ++ third ++ fourth ++ fifth) := by
  -- Each cut leaves the groups behind it as they are.
  have hcut : ∀ (group rest : List Char) (size : Nat), group.length = size →
      (group ++ rest).splitAt size = (group, rest) := by
    rintro group rest size rfl
    rw [List.splitAt_eq, List.take_left, List.drop_left]
  have hgroups : first ++ '-' :: second ++ '-' :: third ++ '-' :: fourth ++ '-' :: fifth =
      first ++ (('-' :: second) ++ (('-' :: third) ++ (('-' :: fourth) ++ '-' :: fifth))) := by
    simp only [List.append_assoc, List.cons_append]
  rw [hgroups, ofHyphenated?, hcut first _ 8 hfirst]
  simp only [hcut ('-' :: second) _ 5 (by rw [List.length_cons, hsecond]),
    hcut ('-' :: third) _ 5 (by rw [List.length_cons, hthird]),
    hcut ('-' :: fourth) _ 5 (by rw [List.length_cons, hfourth])]

/-- The five groups of the written form are all of the digits. -/
theorem groups_append (characters : List Char) :
    (characters.drop 0).take 8 ++ (characters.drop 8).take 4 ++ (characters.drop 12).take 4 ++
        (characters.drop 16).take 4 ++ (characters.drop 20).take 12 =
      characters.take 32 := by
  have htake : ∀ start size : Nat,
      characters.take start ++ (characters.drop start).take size =
        characters.take (start + size) := by
    intro start size
    rw [List.take_add]
  rw [List.drop_zero, htake 8 4, htake 12 4, htake 16 4, htake 20 12]

/-! ## Texts -/

theorem length_characters (id : ComponentId) : id.characters.length = 36 := by
  have hlength := id.length_digits
  simp only [characters, List.length_append, List.length_cons, List.length_take, List.length_drop,
    List.length_map, hlength]
  omega

/-- The written form denotes the identifier it was written from. -/
theorem ofText?_text (id : ComponentId) : ofText? id.text = some id := by
  have hlength : (id.digits.map digitChar).length = 32 := by
    rw [List.length_map, id.length_digits]
  have hread : ofHyphenated? id.characters = some id := by
    have hgroup : ∀ start size : Nat, start + size ≤ 32 →
        (((id.digits.map digitChar).drop start).take size).length = size := by
      intro start size hle
      rw [List.length_take, List.length_drop, hlength]
      omega
    rw [characters, ofHyphenated?_groups _ (hgroup 0 8 (by omega)) (hgroup 8 4 (by omega))
      (hgroup 12 4 (by omega)) (hgroup 16 4 (by omega)), groups_append,
      List.take_of_length_le (by omega), ofDigits?_digits]
  -- With 36 characters the text is read as the hyphenated form.
  rw [ofText?, text, String.toList_ofList, length_characters]
  exact hread

/-- Different identifiers have different texts. -/
theorem text_injective {left right : ComponentId} (h : left.text = right.text) : left = right := by
  have hleft := ofText?_text left
  rw [h, ofText?_text right] at hleft
  exact (Option.some.inj hleft).symm

end Pipeline.ComponentId
