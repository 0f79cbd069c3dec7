/-
Labels are valid names of a cluster.

A label is made in three steps: runs of foreign characters become single hyphens, the
text is cut, and hyphens at its ends are dropped. No step spoils what an earlier one has
reached, because cutting and dropping leave a part of the text in one piece, and no two
hyphens stand side by side in a part of a text where none do (`Label.single_squeeze`). A
cut text may begin and end with a hyphen; then these are dropped, and something is left
as soon as there is a letter or a digit, since at most one hyphen stands in front of the
first of them. A valid label passes through all steps unchanged (`Label.ofName_of_isLabel`).
-/
import Mathlib
import Pipeline.Manifest.Draft

set_option autoImplicit false

namespace Pipeline

namespace Label

/-! ## Valid labels -/

/-- A small letter, a digit or a hyphen. -/
def IsCharacter (c : Char) : Prop := c.isLower = true ∨ c.isDigit = true ∨ c = '-'

/-- A text that a cluster accepts as a label: of some characters, but not of too many, with single
hyphens, none of which stands at an end. -/
structure IsLabel (limit : Nat) (text : String) : Prop where
  nonempty : text ≠ ""
  length_le : text.length ≤ limit
  characters : ∀ c ∈ text.toList, IsCharacter c
  single : ¬ ['-', '-'] <:+: text.toList
  first : ¬ ['-'] <+: text.toList
  last : ¬ ['-'] <:+ text.toList

/-- The letters and digits of a name, in small letters. -/
def lettersOf (name : String) : List Char :=
  (name.toList.map Char.toLower).filter Char.isAlphanum

/-! ## Characters -/

theorem isCharacter_toLower {c : Char} (h : c.toLower.isAlphanum = true) :
    IsCharacter c.toLower := by
  rw [Char.isAlphanum, Char.isAlpha, Char.isUpper_toLower_eq_false, Bool.false_or,
    Bool.or_eq_true_iff] at h
  rcases h with h | h
  · exact .inl h
  · exact .inr (.inl h)

/-- A character of a label is written as it is, unless it is a hyphen. -/
theorem isAlphanum_of_isCharacter {c : Char} (h : IsCharacter c) (hc : c ≠ '-') :
    c.isAlphanum = true ∧ c.toLower = c := by
  have hupper : c.isUpper = false := by
    rcases h with h | h | h
    · simpa using Char.not_isUpper_of_isLower h
    · simp only [Char.isDigit, Char.isUpper] at h ⊢
      grind
    · exact absurd h hc
  refine ⟨?_, Char.toLower_eq_of_not_isUpper (by rw [hupper]; exact Bool.false_ne_true)⟩
  rw [Char.isAlphanum, Char.isAlpha, hupper, Bool.false_or, Bool.or_eq_true_iff]
  rcases h with h | h | h
  · exact .inl h
  · exact .inr h
  · exact absurd h hc

/-! ## Squeezing -/

theorem squeeze_of_isAlphanum (afterHyphen : Bool) {c : Char} {rest : List Char}
    (h : c.toLower.isAlphanum = true) :
    squeeze afterHyphen (c :: rest) = c.toLower :: squeeze false rest := by
  rw [squeeze, if_pos h]

theorem squeeze_of_foreign (afterHyphen : Bool) {c : Char} {rest : List Char}
    (h : ¬ c.toLower.isAlphanum = true) :
    squeeze afterHyphen (c :: rest) =
      if afterHyphen then squeeze true rest else '-' :: squeeze true rest := by
  rw [squeeze, if_neg h]

theorem isCharacter_of_mem_squeeze {afterHyphen : Bool} {text : List Char} {c : Char}
    (h : c ∈ squeeze afterHyphen text) : IsCharacter c := by
  induction text generalizing afterHyphen with
  | nil => cases h
  | cons d rest ih =>
    by_cases hd : d.toLower.isAlphanum = true
    · rw [squeeze_of_isAlphanum _ hd] at h
      rcases List.mem_cons.1 h with rfl | h
      · exact isCharacter_toLower hd
      · exact ih h
    · rw [squeeze_of_foreign _ hd] at h
      cases afterHyphen with
      | true => exact ih h
      | false =>
        rcases List.mem_cons.1 h with rfl | h
        · exact .inr (.inr rfl)
        · exact ih h

/-- Hyphens stand alone, and none follows one that is there already. -/
theorem single_squeeze (afterHyphen : Bool) (text : List Char) :
    ¬ ['-', '-'] <:+: squeeze afterHyphen text ∧
      (afterHyphen = true → ¬ ['-'] <+: squeeze afterHyphen text) := by
  induction text generalizing afterHyphen with
  | nil => simp [squeeze]
  | cons c rest ih =>
    by_cases hc : c.toLower.isAlphanum = true
    · have hne : '-' ≠ c.toLower := by
        intro heq
        rw [← heq] at hc
        exact absurd hc (by decide)
      rw [squeeze_of_isAlphanum _ hc, List.infix_cons_iff, List.cons_prefix_cons,
        List.cons_prefix_cons]
      simp [hne, (ih false).1]
    · obtain ⟨hinside, hprefix⟩ := ih true
      rw [squeeze_of_foreign _ hc]
      cases afterHyphen with
      | true => exact ih true
      | false =>
        refine ⟨?_, fun h => absurd h Bool.false_ne_true⟩
        rw [if_neg Bool.false_ne_true, List.infix_cons_iff, List.cons_prefix_cons, not_or]
        exact ⟨fun h => hprefix rfl h.2, hinside⟩

/-- A text of the characters of a label with single hyphens is not squeezed any more. -/
theorem squeeze_eq_self {afterHyphen : Bool} {text : List Char}
    (hcharacters : ∀ c ∈ text, IsCharacter c) (hsingle : ¬ ['-', '-'] <:+: text)
    (hfirst : afterHyphen = true → ¬ ['-'] <+: text) : squeeze afterHyphen text = text := by
  induction text generalizing afterHyphen with
  | nil => rfl
  | cons c rest ih =>
    obtain ⟨hc, hrest⟩ := List.forall_mem_cons.1 hcharacters
    rw [List.infix_cons_iff, not_or] at hsingle
    by_cases hhyphen : c = '-'
    · subst hhyphen
      have hafter : afterHyphen = false := by
        rw [← Bool.not_eq_true]
        intro h
        exact hfirst h ⟨rest, rfl⟩
      have hnext : ¬ ['-'] <+: rest := by
        intro h
        exact hsingle.1 (List.cons_prefix_cons.2 ⟨rfl, h⟩)
      rw [squeeze_of_foreign _ (by decide), hafter, ih hrest hsingle.2 fun _ => hnext]
      rfl
    · obtain ⟨halphanum, hlower⟩ := isAlphanum_of_isCharacter hc hhyphen
      rw [squeeze_of_isAlphanum _ (by rw [hlower, halphanum]), hlower,
        ih hrest hsingle.2 fun h => absurd h Bool.false_ne_true]

/-- Squeezing keeps letters and digits. -/
theorem filter_squeeze (afterHyphen : Bool) (text : List Char) :
    (squeeze afterHyphen text).filter Char.isAlphanum =
      (text.map Char.toLower).filter Char.isAlphanum := by
  induction text generalizing afterHyphen with
  | nil => rfl
  | cons c rest ih =>
    rw [List.map_cons]
    by_cases hc : c.toLower.isAlphanum = true
    · rw [squeeze_of_isAlphanum _ hc, List.filter_cons_of_pos hc, List.filter_cons_of_pos hc, ih]
    · rw [squeeze_of_foreign _ hc, List.filter_cons_of_neg hc, ← ih true]
      cases afterHyphen with
      | true => rfl
      | false => exact List.filter_cons_of_neg (by decide)

/-! ## Trimming -/

theorem trim_eq_rdropWhile (text : List Char) :
    trim text = (text.dropWhile (· = '-')).rdropWhile (· = '-') := rfl

/-- A trimmed text is a part of the text in one piece. -/
theorem trim_isInfix (text : List Char) : trim text <:+: text := by
  rw [trim_eq_rdropWhile]
  exact (List.rdropWhile_prefix _ _).isInfix.trans (List.dropWhile_suffix _).isInfix

theorem not_hyphen_prefix_trim (text : List Char) : ¬ ['-'] <+: trim text := by
  intro h
  rw [trim_eq_rdropWhile] at h
  obtain ⟨rest, hrest⟩ := h.trans (List.rdropWhile_prefix _ _)
  have hhead := List.head?_dropWhile_not (· = '-') text
  rw [← hrest] at hhead
  exact absurd hhead (by simp)

theorem not_hyphen_suffix_trim (text : List Char) : ¬ ['-'] <:+ trim text := by
  rintro ⟨before, hbefore⟩
  rw [trim_eq_rdropWhile] at hbefore
  have hlast := List.rdropWhile_last_not (· = '-') (text.dropWhile (· = '-'))
    (by rw [← hbefore]; simp)
  simp [← hbefore] at hlast

/-- A text without hyphens at its ends is not trimmed any more. -/
theorem trim_eq_self {text : List Char} (hfirst : ¬ ['-'] <+: text) (hlast : ¬ ['-'] <:+ text) :
    trim text = text := by
  have hdrop : text.dropWhile (· = '-') = text := by
    cases text with
    | nil => rfl
    | cons c rest =>
      refine List.dropWhile_cons_of_neg fun hc => ?_
      rw [of_decide_eq_true hc] at hfirst
      exact hfirst ⟨rest, rfl⟩
  rw [trim_eq_rdropWhile, hdrop, List.rdropWhile_eq_self_iff]
  intro hnil hc
  rw [← List.dropLast_append_getLast hnil, of_decide_eq_true hc] at hlast
  exact hlast ⟨_, rfl⟩

theorem filter_dropWhile (text : List Char) :
    (text.dropWhile (· = '-')).filter Char.isAlphanum = text.filter Char.isAlphanum := by
  induction text with
  | nil => rfl
  | cons c rest ih =>
    by_cases hc : c = '-'
    · subst hc
      rw [List.dropWhile_cons_of_pos (by simp), List.filter_cons_of_neg (by decide), ih]
    · rw [List.dropWhile_cons_of_neg (by simpa using hc)]

/-- Trimming keeps letters and digits. -/
theorem filter_trim (text : List Char) :
    (trim text).filter Char.isAlphanum = text.filter Char.isAlphanum := by
  rw [trim, List.filter_reverse, filter_dropWhile, List.filter_reverse, List.reverse_reverse,
    filter_dropWhile]

/-! ## Labels of names -/

section OfName

variable {limit : Nat}

/-- What is left of a name: squeezed, cut and trimmed. -/
def remainder (limit : Nat) (name : String) : List Char :=
  trim ((squeeze false name.toList).take limit)

theorem ofName_of_remainder_nil {name : String} (h : remainder limit name = []) :
    ofName limit name = fallback := by
  rw [ofName, ← remainder, h]
  rfl

theorem ofName_of_remainder_ne_nil {name : String} (h : remainder limit name ≠ []) :
    ofName limit name = String.ofList (remainder limit name) := by
  rw [ofName, ← remainder, if_neg (by simpa using h)]

theorem remainder_isInfix (limit : Nat) (name : String) :
    remainder limit name <:+: squeeze false name.toList :=
  (trim_isInfix _).trans (List.take_prefix limit _).isInfix

theorem isCharacter_of_mem_remainder {name : String} {c : Char} (h : c ∈ remainder limit name) :
    IsCharacter c :=
  isCharacter_of_mem_squeeze ((remainder_isInfix limit name).subset h)

/-- What is left begins with a letter or a digit. -/
theorem filter_remainder_ne_nil {name : String} (h : remainder limit name ≠ []) :
    (remainder limit name).filter Char.isAlphanum ≠ [] := by
  obtain ⟨c, rest, hcons⟩ := List.exists_cons_of_ne_nil h
  have hc : IsCharacter c := isCharacter_of_mem_remainder (by rw [hcons]; exact List.mem_cons_self)
  have hhyphen : c ≠ '-' := by
    rintro rfl
    exact not_hyphen_prefix_trim _ ⟨rest, hcons.symm⟩
  rw [hcons, List.filter_cons_of_pos (isAlphanum_of_isCharacter hc hhyphen).1]
  exact List.cons_ne_nil _ _

/-- The letters and digits that are left are the first ones of the name. -/
theorem filter_remainder_prefix (limit : Nat) (name : String) :
    (remainder limit name).filter Char.isAlphanum <+: lettersOf name := by
  rw [remainder, filter_trim, lettersOf, ← filter_squeeze false]
  exact (List.take_prefix limit _).filter _

/-- At most one hyphen stands in front of the first letter or digit, so that a name that has one does
not lose all of them. -/
theorem lettersOf_eq_nil {name : String} (hlimit : 2 ≤ limit) (h : remainder limit name = []) :
    lettersOf name = [] := by
  have htake : ((squeeze false name.toList).take limit).filter Char.isAlphanum = [] := by
    rw [← filter_trim, ← remainder, h]
    rfl
  have hhyphen : ∀ c ∈ (squeeze false name.toList).take limit, c = '-' := by
    intro c hc
    by_contra hne
    have hcharacter := isCharacter_of_mem_squeeze (List.mem_of_mem_take hc)
    exact List.filter_eq_nil_iff.1 htake c hc (isAlphanum_of_isCharacter hcharacter hne).1
  have hsingle := (single_squeeze false name.toList).1
  rw [lettersOf, ← filter_squeeze false]
  obtain ⟨more, rfl⟩ := Nat.exists_eq_add_of_le' hlimit
  generalize squeeze false name.toList = text at htake hhyphen hsingle
  match text with
  | [] => rfl
  | [c] => exact htake
  | c :: d :: rest =>
    obtain rfl := hhyphen c (by simp)
    obtain rfl := hhyphen d (by simp)
    exact absurd ⟨[], rest, rfl⟩ hsingle

theorem isLabel_fallback (hlimit : 8 ≤ limit) : IsLabel limit fallback where
  nonempty := by decide
  length_le := hlimit
  characters := by simp [fallback, IsCharacter]
  single := by decide
  first := by decide
  last := by decide

theorem isLabel_ofName (hlimit : 8 ≤ limit) (name : String) : IsLabel limit (ofName limit name) := by
  by_cases hnil : remainder limit name = []
  · rw [ofName_of_remainder_nil hnil]
    exact isLabel_fallback hlimit
  · rw [ofName_of_remainder_ne_nil hnil]
    refine ⟨?_, ?_, ?_, ?_, ?_, ?_⟩
    · simpa using hnil
    · rw [String.length_ofList]
      exact (trim_isInfix _).length_le.trans (List.length_take_le _ _)
    all_goals rw [String.toList_ofList]
    · exact fun c hc => isCharacter_of_mem_remainder hc
    · exact fun h => (single_squeeze false _).1 (h.trans (remainder_isInfix limit name))
    · exact not_hyphen_prefix_trim _
    · exact not_hyphen_suffix_trim _

theorem squeeze_of_isLabel {text : String} (h : IsLabel limit text) :
    squeeze false text.toList = text.toList :=
  squeeze_eq_self h.characters h.single fun h => absurd h Bool.false_ne_true

theorem lettersOf_of_isLabel {text : String} (h : IsLabel limit text) :
    lettersOf text = text.toList.filter Char.isAlphanum := by
  rw [lettersOf, ← filter_squeeze false, squeeze_of_isLabel h]

/-- A label is its own label. -/
theorem ofName_of_isLabel {text : String} (h : IsLabel limit text) : ofName limit text = text := by
  have hlength : text.toList.length ≤ limit := by
    rw [String.length_toList]
    exact h.length_le
  have hremainder : remainder limit text = text.toList := by
    rw [remainder, squeeze_of_isLabel h, List.take_of_length_le hlength,
      trim_eq_self h.first h.last]
  have hnil : remainder limit text ≠ [] := by
    rw [hremainder]
    simpa using h.nonempty
  rw [ofName_of_remainder_ne_nil hnil, hremainder, String.ofList_toList]

/-- A label has the first letters and digits of its name, or no name to have any from. -/
theorem lettersOf_ofName (hlimit : 8 ≤ limit) (name : String) :
    if lettersOf name = [] then ofName limit name = fallback
    else lettersOf (ofName limit name) ≠ [] ∧ lettersOf (ofName limit name) <+: lettersOf name := by
  have hlabel := isLabel_ofName hlimit name
  have hprefix := filter_remainder_prefix limit name
  by_cases hnil : remainder limit name = []
  · rw [if_pos (lettersOf_eq_nil (by omega) hnil), ofName_of_remainder_nil hnil]
  · have hletters := filter_remainder_ne_nil hnil
    have hname : lettersOf name ≠ [] := by
      intro h
      rw [h, List.prefix_nil] at hprefix
      exact hletters hprefix
    rw [if_neg hname, lettersOf_of_isLabel hlabel, ofName_of_remainder_ne_nil hnil,
      String.toList_ofList]
    exact ⟨hletters, hprefix⟩

end OfName

end Label

/-! ## Generated names -/

/-- **Generated names are valid.** Whatever the name of a workflow, the cluster is told to generate a
name that begins with a label of at most 58 characters and a hyphen. The label has small letters,
digits and single hyphens, and no hyphen at an end; its own label is the label itself. Its letters and
digits are the first ones of the name, and there are some if the name has any; a name without letters
and digits gets a label of its own. -/
theorem Manifest.WorkflowDraft.generateName_valid (draft : WorkflowDraft) (name : String) :
    ∃ label, (draft.generateName name).finish.metadata.generateName = some (label ++ "-") ∧
      Label.IsLabel 58 label ∧ Label.ofName generateNameLimit label = label ∧
      if Label.lettersOf name = [] then label = "workflow"
      else Label.lettersOf label ≠ [] ∧ Label.lettersOf label <+: Label.lettersOf name := by
  have hlimit : 8 ≤ generateNameLimit := by decide
  have hlabel := Label.isLabel_ofName hlimit name
  exact ⟨_, rfl, hlabel, Label.ofName_of_isLabel hlabel, Label.lettersOf_ofName hlimit name⟩

end Pipeline
