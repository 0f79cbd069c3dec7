/-
Which branch runs, and which one is read.

A condition is written twice. As a guard it decides which branch of a conditional
runs; as an expression it decides whose output is taken. The two languages are
given by readers of their texts, as far as conditions over integers need them. In
a guard a placeholder is replaced by the value of the input, and two integers are
compared as numbers. In an expression a bare numeral is a number, and so is the
value of an input that is converted; a quoted string and the value of any other
input are texts, and are compared as such.

A text that was rendered is read back operand by operand, whatever stands in the
names between quotes (`Quoted.scan?_escaped`). So guards compare numbers, and
expressions do if one operand is a literal that is a number for the renderer. Two
inputs, or a literal beyond the range of binary64, are compared as texts, in
which `10` comes before `9`.
-/
import Pipeline.Lowering.Guard
import Pipeline.Proofs.Outcome
import Pipeline.Proofs.Lookup

set_option autoImplicit false

namespace Pipeline

/-! ## Comparing -/

/-- The comparison holds between operands that are ordered so. -/
def Operator.accepts : Operator → Ordering → Bool
  | .eq => Ordering.isEq
  | .ne => Ordering.isNe
  | .lt => Ordering.isLT
  | .le => Ordering.isLE
  | .gt => Ordering.isGT
  | .ge => Ordering.isGE

/-- The comparison holds between two values. -/
def Operator.compares {α : Type} [Ord α] (operator : Operator) (left right : α) : Bool :=
  operator.accepts (compare left right)

/-- The integer that a whole text denotes: digits, after a sign or none. -/
def Numeral.integer? (text : String) : Option Int :=
  let (negative, run) := sign text.toList
  if run ≠ [] ∧ run.all Char.isDigit then
    some (if negative then -(value run : Int) else value run)
  else none

/-! ## Readers -/

/-- The characters up to the closing quote, and what follows it. A backslash takes the next character
literally. -/
def Quoted.scan? : List Char → Option (List Char × List Char)
  | '\'' :: rest => some ([], rest)
  | '\\' :: c :: rest => (scan? rest).map fun (text, rest) => (c :: text, rest)
  | c :: rest => (scan? rest).map fun (text, rest) => (c :: text, rest)
  | [] => none

/-- The path up to the closing braces, and what follows them. -/
def Placeholder.scan? : List Char → Option (List Char × List Char)
  | '}' :: '}' :: rest => some ([], rest)
  | c :: rest => (scan? rest).map fun (path, rest) => (c :: path, rest)
  | [] => none

namespace Comparison

/-- The characters up to a space, and what follows them. -/
def word (text : List Char) : List Char × List Char :=
  (text.takeWhile (· ≠ ' '), text.dropWhile (· ≠ ' '))

/-- Two operands around an operator, with a space on either side of it. -/
def read? {α : Type} (operand? : List Char → Option (α × List Char)) (text : List Char) :
    Option (α × Operator × α) := do
  let (left, rest) ← operand? text
  let (symbol, rest) := word (← rest.dropPrefix? [' '])
  let operator ← Operator.ofSymbol? (String.ofList symbol)
  let (right, rest) ← operand? (← rest.dropPrefix? [' '])
  if rest.isEmpty then return (left, operator, right) else none

end Comparison

namespace Guard

/-- What begins the placeholder of an input. -/
def opening : List Char := "\x7b\x7b".toList ++ "inputs.parameters.".toList

/-- An operand after placeholders were replaced, and what follows it. -/
def operand? (values : String → String) (text : List Char) : Option (String × List Char) :=
  match text.dropPrefix? opening with
  | some rest =>
    (Placeholder.scan? rest).map fun (name, rest) => (values (String.ofList name), rest)
  | none => some (String.ofList (Comparison.word text).1, (Comparison.word text).2)

/-- The guard holds, where its operands are integers. -/
def holds? (values : String → String) (text : String) : Option Bool := do
  let (left, operator, right) ← Comparison.read? (operand? values) text.toList
  return operator.compares (← Numeral.integer? left) (← Numeral.integer? right)

end Guard

namespace Expression

/-- What an operand of an expression evaluates to. -/
inductive Value where
  | number (n : Int)
  | text (text : String)
  deriving DecidableEq

/-- Numbers are compared by size and texts by their characters; one of either kind is an error. -/
def Value.compares? (operator : Operator) : Value → Value → Option Bool
  | .number left, .number right => some (operator.compares left right)
  | .text left, .text right => some (operator.compares left right)
  | _, _ => none

/-- What begins the reference to an input. -/
def opening : List Char := "inputs.parameters".toList ++ ("[".toList ++ ['\''])

/-- What begins the conversion of an input. -/
def conversion : List Char := "asFloat(".toList

/-- The value of an input that is referred to, and what follows the reference. -/
def input? (values : String → String) (text : List Char) : Option (String × List Char) := do
  let (name, rest) ← Quoted.scan? (← text.dropPrefix? opening)
  return (values (String.ofList name), ← rest.dropPrefix? "]".toList)

/-- An operand, whose number is an integer, and what follows it. -/
def operand? (values : String → String) (text : List Char) : Option (Value × List Char) :=
  match text.dropPrefix? conversion with
  | some rest => do
    let (value, rest) ← input? values rest
    return (.number (← Numeral.integer? value), ← rest.dropPrefix? ")".toList)
  | none =>
    match input? values text with
    | some (value, rest) => some (.text value, rest)
    | none =>
      match text.dropPrefix? ['\''] with
      | some quoted =>
        (Quoted.scan? quoted).map fun (text, rest) => (.text (String.ofList text), rest)
      | none => do
        let (numeral, rest) := Comparison.word text
        return (.number (← Numeral.integer? (String.ofList numeral)), rest)

/-- The expression holds, where its operands are of one kind. -/
def holds? (values : String → String) (text : String) : Option Bool := do
  let (left, operator, right) ← Comparison.read? (operand? values) text.toList
  left.compares? operator right

end Expression

/-! ## Texts that are read back -/

theorem dropPrefix?_append (start rest : List Char) :
    (start ++ rest).dropPrefix? start = some rest :=
  List.dropPrefix?_append_of_beq rest (by simp)

theorem dropPrefix?_eq_none {start text : List Char} {c d : Char} (hstart : start.head? = some d)
    (htext : text.head? = some c) (hne : c ≠ d) : text.dropPrefix? start = none := by
  obtain ⟨start, rfl⟩ := List.head?_eq_some_iff.1 hstart
  obtain ⟨text, rfl⟩ := List.head?_eq_some_iff.1 htext
  simp [List.dropPrefix?, hne]

theorem Quoted.scan?_escaped (text rest : List Char) :
    scan? (text.flatMap escape ++ '\'' :: rest) = some (text, rest) := by
  induction text with
  | nil => rfl
  | cons c text ih =>
    rw [List.flatMap_cons, List.append_assoc, escape]
    by_cases hescaped : c = '\\' ∨ c = '\''
    · rw [if_pos hescaped]
      simp [scan?, ih]
    · rw [if_neg hescaped]
      rw [not_or] at hescaped
      rw [List.singleton_append, scan?.eq_3 _ _ hescaped.2 (fun _ _ h _ => hescaped.1 h), ih]
      rfl

theorem Placeholder.scan?_append {text path rest : List Char} (h : scan? text = some (path, rest))
    (more : List Char) : scan? (text ++ more) = some (path, rest ++ more) := by
  fun_induction scan? text generalizing path with
  | case1 tail =>
    cases h
    rfl
  | case2 c tail hopen ih =>
    obtain ⟨⟨path', rest'⟩, hscan, hpath⟩ := Option.map_eq_some_iff.1 h
    cases hpath
    -- There is a character left, so that nothing closes here after the extension either.
    have hopen' : ∀ closed, c = '}' → tail ++ more = '}' :: closed → False := by
      intro closed hc htail
      cases tail with
      | nil => simp [scan?] at hscan
      | cons d tail =>
        rw [List.cons_append, List.cons.injEq] at htail
        exact hopen tail hc (by rw [htail.1])
    rw [List.cons_append, scan?.eq_2 _ _ hopen', ih hscan]
    rfl
  | case3 => cases h

namespace Comparison

/-- Where an operand ends: at the end of the text or at a space. -/
def Ends (rest : List Char) : Prop := rest = [] ∨ ∃ more, rest = ' ' :: more

theorem word_append {text rest : List Char} (htext : ' ' ∉ text) (hrest : Ends rest) :
    word (text ++ rest) = (text, rest) := by
  have hwhole : ∀ c ∈ text, decide (c ≠ ' ') = true := by
    intro c hc
    exact decide_eq_true (ne_of_mem_of_not_mem hc htext)
  rw [word, List.takeWhile_append_of_pos hwhole, List.dropWhile_append_of_pos hwhole]
  rcases hrest with rfl | ⟨more, rfl⟩ <;> simp

/-- A comparison is read back when its operands are. -/
theorem read?_compare {α : Type} {operand? : List Char → Option (α × List Char)}
    {leftText rightText : String} {left right : α} (operator : Operator)
    (hleft : ∀ rest, Ends rest → operand? (leftText.toList ++ rest) = some (left, rest))
    (hright : ∀ rest, Ends rest → operand? (rightText.toList ++ rest) = some (right, rest)) :
    read? operand? (Condition.compare operator leftText rightText).toList =
      some (left, operator, right) := by
  have htext : (Condition.compare operator leftText rightText).toList =
      leftText.toList ++ ' ' :: (operator.symbol.toList ++ ' ' :: rightText.toList) := by
    simp [Condition.compare]
  have hsymbol : word (operator.symbol.toList ++ ' ' :: rightText.toList) =
      (operator.symbol.toList, ' ' :: rightText.toList) :=
    word_append (by cases operator <;> decide) (.inr ⟨_, rfl⟩)
  have hoperand := hright [] (.inl rfl)
  rw [List.append_nil] at hoperand
  rw [htext, read?, hleft _ (.inr ⟨_, rfl⟩)]
  simp [List.dropPrefix?, hsymbol, Operator.ofSymbol?_symbol, hoperand]

end Comparison

/-- An integer is written with digits, behind a sign or none. -/
theorem Numeral.exists_cons_of_integer? {text : String} {n : Int} (h : integer? text = some n) :
    ∃ c run, text.toList = c :: run ∧ (c = '-' ∨ c = '+' ∨ c.isDigit = true) ∧
      ∀ d ∈ run, d.isDigit = true := by
  obtain ⟨⟨hrun, hdigits⟩, -⟩ := Option.ite_none_right_eq_some.1 h
  rw [List.all_eq_true] at hdigits
  cases htext : text.toList with
  | nil => simp [htext] at hrun
  | cons c run =>
    rw [htext] at hdigits
    refine ⟨c, run, rfl, ?_⟩
    split at hdigits
    · rename_i rest hcons
      cases hcons
      exact ⟨.inl rfl, hdigits⟩
    · rename_i rest hcons
      cases hcons
      exact ⟨.inr (.inl rfl), hdigits⟩
    · obtain ⟨hc, hrun⟩ := List.forall_mem_cons.1 hdigits
      exact ⟨.inr (.inr hc), hrun⟩

/-- An integer is one word, and begins like nothing else that is read. -/
theorem Numeral.word_of_integer? {text : String} {n : Int} (h : integer? text = some n) :
    ' ' ∉ text.toList ∧ ∃ c, (∀ rest, (text.toList ++ rest).head? = some c) ∧
      c ≠ '\x7b' ∧ c ≠ 'a' ∧ c ≠ 'i' ∧ c ≠ '\'' := by
  obtain ⟨c, run, htext, hc, hrun⟩ := exists_cons_of_integer? h
  rw [htext]
  refine ⟨?_, c, fun rest => rfl, ?_⟩
  · intro hspace
    rcases List.mem_cons.1 hspace with rfl | hspace
    · revert hc
      decide
    · exact absurd (hrun _ hspace) (by decide)
  · refine ⟨?_, ?_, ?_, ?_⟩ <;>
    · rintro rfl
      revert hc
      decide

/-- The name stands in its placeholder as nothing but itself: no braces in it close too early. -/
def Placeholder.IsRead (name : String) : Prop :=
  scan? (name.toList ++ "\x7d\x7d".toList) = some (name.toList, [])

/-- Every name without closing braces is read. -/
theorem Placeholder.isRead_of_notMem {name : String} (h : '}' ∉ name.toList) : IsRead name := by
  unfold IsRead
  generalize name.toList = path at h
  induction path with
  | nil => decide
  | cons c path ih =>
    rw [List.mem_cons, not_or] at h
    rw [List.cons_append, scan?.eq_2 _ _ fun _ hc _ => h.1 hc.symm, ih h.2]
    rfl

theorem Placeholder.inputParameter_toList (name : String) :
    (inputParameter name).toList = Guard.opening ++ (name.toList ++ "\x7d\x7d".toList) := by
  simp only [inputParameter, braced, Guard.opening, String.toList_append, List.append_assoc]

theorem Quoted.quote_toList (text : String) :
    (quote text).toList = ['\''] ++ (text.toList.flatMap escape ++ ['\'']) := by
  rw [quote, String.toList_ofList, encode]
  rfl

theorem Reference.inputParameter_toList (name : String) :
    (inputParameter name).toList =
      Expression.opening ++ (name.toList.flatMap Quoted.escape ++ (['\''] ++ "]".toList)) := by
  -- Definitions are opened by `rfl`: their equations would be made by spelling out the words.
  have htext : inputParameter name = "inputs.parameters" ++ ("[" ++ Quoted.quote name ++ "]") := rfl
  have hopening : Expression.opening = "inputs.parameters".toList ++ ("[".toList ++ ['\'']) := rfl
  rw [htext, String.toList_append, String.toList_append, String.toList_append,
    Quoted.quote_toList, hopening]
  simp only [List.append_assoc]

namespace Guard

variable {values : String → String} {rest : List Char}

theorem head?_opening : opening.head? = some '\x7b' := by decide

theorem operand?_integer {text : String} {n : Int} (h : Numeral.integer? text = some n)
    (hrest : Comparison.Ends rest) : operand? values (text.toList ++ rest) = some (text, rest) := by
  obtain ⟨hspace, c, hhead, hbrace, -⟩ := Numeral.word_of_integer? h
  unfold operand?
  rw [dropPrefix?_eq_none head?_opening (hhead rest) hbrace]
  simp only [Comparison.word_append hspace hrest, String.ofList_toList]

theorem operand?_placeholder {name : String} (hread : Placeholder.IsRead name) :
    operand? values ((Placeholder.inputParameter name).toList ++ rest) =
      some (values name, rest) := by
  unfold operand?
  rw [Placeholder.inputParameter_toList, List.append_assoc, dropPrefix?_append]
  simp only [Placeholder.scan?_append hread, Option.map_some, List.nil_append, String.ofList_toList]

end Guard

namespace Expression

variable {values : String → String} {rest : List Char}

theorem head?_conversion : conversion.head? = some 'a' := by decide

theorem head?_opening : opening.head? = some 'i' := by decide

theorem input?_eq_none {text : List Char} {c : Char} (htext : text.head? = some c) (hne : c ≠ 'i') :
    input? values text = none := by
  rw [input?, dropPrefix?_eq_none head?_opening htext hne]
  rfl

theorem input?_reference (name : String) :
    input? values ((Reference.inputParameter name).toList ++ rest) = some (values name, rest) := by
  have hscan : Quoted.scan? (name.toList.flatMap Quoted.escape ++ (['\''] ++ "]".toList) ++ rest) =
      some (name.toList, "]".toList ++ rest) := by
    rw [List.append_assoc, List.append_assoc, List.singleton_append, Quoted.scan?_escaped]
  rw [Reference.inputParameter_toList, List.append_assoc, input?, dropPrefix?_append]
  simp only [Option.bind_eq_bind, Option.bind_some, hscan, dropPrefix?_append, String.ofList_toList]
  rfl

theorem operand?_reference (name : String) :
    operand? values ((Reference.inputParameter name).toList ++ rest) =
      some (.text (values name), rest) := by
  have hhead : ((Reference.inputParameter name).toList ++ rest).head? = some 'i' := by
    rw [Reference.inputParameter_toList, List.head?_append, List.head?_append, head?_opening]
    rfl
  unfold operand?
  rw [dropPrefix?_eq_none head?_conversion hhead (by decide), input?_reference]

theorem toList_converted (reference : String) :
    (s!"asFloat({reference})").toList = conversion ++ (reference.toList ++ ")".toList) := by
  unfold conversion
  simp only [toString, String.toList_append, List.append_assoc]

theorem operand?_converted {name : String} {n : Int}
    (hvalue : Numeral.integer? (values name) = some n) :
    operand? values (s!"asFloat({Reference.inputParameter name})".toList ++ rest) =
      some (.number n, rest) := by
  unfold operand?
  rw [toList_converted, List.append_assoc, List.append_assoc, dropPrefix?_append]
  simp only [Option.bind_eq_bind, input?_reference, Option.bind_some, hvalue, dropPrefix?_append]
  rfl

theorem operand?_quoted (text : String) :
    operand? values ((Quoted.quote text).toList ++ rest) = some (.text text, rest) := by
  have hhead : ((Quoted.quote text).toList ++ rest).head? = some '\'' := by
    rw [Quoted.quote_toList]
    rfl
  have hscan : Quoted.scan? (text.toList.flatMap Quoted.escape ++ ['\''] ++ rest) =
      some (text.toList, rest) := by
    rw [List.append_assoc, List.singleton_append, Quoted.scan?_escaped]
  unfold operand?
  rw [dropPrefix?_eq_none head?_conversion hhead (by decide), input?_eq_none hhead (by decide),
    Quoted.quote_toList, List.append_assoc, dropPrefix?_append]
  simp only [hscan, Option.map_some, String.ofList_toList]

theorem operand?_integer {text : String} {n : Int} (h : Numeral.integer? text = some n)
    (hrest : Comparison.Ends rest) :
    operand? values (text.toList ++ rest) = some (.number n, rest) := by
  obtain ⟨hspace, c, hhead, -, ha, hi, hquote⟩ := Numeral.word_of_integer? h
  unfold operand?
  rw [dropPrefix?_eq_none head?_conversion (hhead rest) ha, input?_eq_none (hhead rest) hi,
    dropPrefix?_eq_none rfl (hhead rest) hquote]
  simp only [Comparison.word_append hspace hrest, String.ofList_toList, h, Option.bind_eq_bind,
    Option.bind_some]
  rfl

end Expression

/-! ## Operands -/

namespace Operand

/-- The operand is an integer, written so: a literal, or an input that is declared to hold one string
and is given this one. The placeholder of an input has to be read as such in a guard. -/
inductive HasValue (inputs : List Port) (values : String → String) :
    Operand → String → Int → Prop where
  | literal {text : String} {n : Int} (hvalue : Numeral.integer? text = some n) :
      HasValue inputs values (.literal text) text n
  | data {port declared : Port} {n : Int}
      (hdeclared : Port.find? inputs port.name = some declared)
      (htype : declared.type = .parameter) (hread : Placeholder.IsRead port.name)
      (hvalue : Numeral.integer? (values port.name) = some n) :
      HasValue inputs values (.data port) (values port.name) n

/-- The operand is a number in an expression whose inputs are converted to numbers or not. -/
def isNumber (numeric : Bool) : Operand → Bool
  | .literal text => Numeral.isFinite text
  | .data _ => numeric

/-- Where inputs are converted, everything is a number that the renderer takes for one. -/
theorem isNumber_of_isNumeric {operand : Operand} (h : operand.isNumeric = true) :
    operand.isNumber true = true := by
  cases operand with
  | literal text => exact h
  | data port => rfl

/-- Where they are not, nothing else is a number. -/
theorem isNumber_false (operand : Operand) : operand.isNumber false = operand.isNumeric := by
  cases operand <;> rfl

/-- What the operand is in an expression. -/
def evaluated (operand : Operand) (numeric : Bool) (text : String) (n : Int) : Expression.Value :=
  if operand.isNumber numeric then .number n else .text text

namespace HasValue

variable {inputs : List Port} {values : String → String} {operand : Operand} {text : String}
  {n : Int}

theorem integer? (h : operand.HasValue inputs values text n) : Numeral.integer? text = some n := by
  cases h with
  | literal hvalue => exact hvalue
  | data _ _ _ hvalue => exact hvalue

/-- In a guard the operand is replaced by what it is written as. -/
theorem read_guardText (h : operand.HasValue inputs values text n) :
    ∃ written, operand.guardText inputs = .ok written ∧ ∀ rest, Comparison.Ends rest →
      Guard.operand? values (written.toList ++ rest) = some (text, rest) := by
  cases h with
  | literal hvalue => exact ⟨text, rfl, fun rest hrest => Guard.operand?_integer hvalue hrest⟩
  | @data port declared _ hdeclared htype hread hvalue =>
    have hname : declared.name = port.name := key_of_find? hdeclared
    refine ⟨Placeholder.inputParameter port.name, ?_, fun rest _ =>
      Guard.operand?_placeholder hread⟩
    simp [guardText, comparable, hdeclared, htype, hname, bind, Except.bind, pure, Except.pure]

/-- In an expression the operand is a number or a text. -/
theorem read_expressionText (h : operand.HasValue inputs values text n) (numeric : Bool) :
    ∃ written, operand.expressionText inputs numeric = .ok written ∧
      ∀ rest, Comparison.Ends rest → Expression.operand? values (written.toList ++ rest) =
        some (operand.evaluated numeric text n, rest) := by
  cases h with
  | literal hvalue =>
    rw [expressionText, evaluated, isNumber]
    cases Numeral.isFinite text with
    | true => exact ⟨text, rfl, fun rest hrest => Expression.operand?_integer hvalue hrest⟩
    | false => exact ⟨Quoted.quote text, rfl, fun rest _ => Expression.operand?_quoted text⟩
  | @data port declared _ hdeclared htype hread hvalue =>
    have hname : declared.name = port.name := key_of_find? hdeclared
    have hcomparable : comparable port inputs = .ok declared := by
      simp [comparable, hdeclared, htype]
    rw [expressionText, evaluated, isNumber, hcomparable]
    cases numeric with
    | true =>
      refine ⟨_, rfl, fun rest _ => ?_⟩
      rw [hname]
      exact Expression.operand?_converted hvalue
    | false =>
      refine ⟨Reference.inputParameter declared.name, rfl, fun rest _ => ?_⟩
      rw [hname]
      exact Expression.operand?_reference port.name

end HasValue

end Operand

/-! ## Both forms of a condition -/

namespace Condition

variable {condition : Condition} {inputs : List Port} {values : String → String}
  {leftText rightText : String} {left right : Int}

/-- A literal on one side is a number for the renderer, so that inputs are converted. -/
def isNumeric (condition : Condition) : Bool :=
  condition.left.isNumeric || condition.right.isNumeric

/-- A guard over integers compares them as numbers. -/
theorem holds?_guardText (hleft : condition.left.HasValue inputs values leftText left)
    (hright : condition.right.HasValue inputs values rightText right) :
    ∃ text, condition.guardText inputs = .ok text ∧
      Guard.holds? values text = some (condition.operator.compares left right) := by
  obtain ⟨writtenLeft, hwrittenLeft, hreadLeft⟩ := hleft.read_guardText
  obtain ⟨writtenRight, hwrittenRight, hreadRight⟩ := hright.read_guardText
  refine ⟨compare condition.operator writtenLeft writtenRight, ?_, ?_⟩
  · rw [guardText, hwrittenLeft, hwrittenRight]
    rfl
  · rw [Guard.holds?, Comparison.read?_compare condition.operator hreadLeft hreadRight]
    simp [hleft.integer?, hright.integer?]

/-- An expression compares what its operands are evaluated to. -/
theorem holds?_expressionText (hleft : condition.left.HasValue inputs values leftText left)
    (hright : condition.right.HasValue inputs values rightText right) :
    ∃ text, condition.expressionText inputs = .ok text ∧
      Expression.holds? values text =
        (condition.left.evaluated condition.isNumeric leftText left).compares? condition.operator
          (condition.right.evaluated condition.isNumeric rightText right) := by
  obtain ⟨writtenLeft, hwrittenLeft, hreadLeft⟩ :=
    hleft.read_expressionText condition.isNumeric
  obtain ⟨writtenRight, hwrittenRight, hreadRight⟩ :=
    hright.read_expressionText condition.isNumeric
  refine ⟨compare condition.operator writtenLeft writtenRight, ?_, ?_⟩
  · rw [isNumeric] at hwrittenLeft hwrittenRight
    simp only [expressionText, hwrittenLeft, hwrittenRight]
    rfl
  · rw [Expression.holds?, Comparison.read?_compare condition.operator hreadLeft hreadRight]
    rfl

/-- **Guard and expression agree on numbers only.** Over integers both forms of a condition can be
written. The guard compares the integers. The expression says the same if one operand is a literal
number and no operand is a literal beyond binary64; with no literal number it says the same exactly
when the texts compare like the integers; and one literal number beside one literal that is none for
the renderer cannot be compared at all. -/
theorem guard_agrees_iff (hleft : condition.left.HasValue inputs values leftText left)
    (hright : condition.right.HasValue inputs values rightText right) :
    ∃ guardText expressionText, condition.guardText inputs = .ok guardText ∧
      condition.expressionText inputs = .ok expressionText ∧
      Guard.holds? values guardText = some (condition.operator.compares left right) ∧
      (Expression.holds? values expressionText = Guard.holds? values guardText ↔
        if condition.isNumeric then
          condition.left.isNumber true ∧ condition.right.isNumber true
        else
          condition.operator.compares leftText rightText =
            condition.operator.compares left right) := by
  obtain ⟨guardText, hguardText, hguard⟩ := holds?_guardText hleft hright
  obtain ⟨expressionText, hexpressionText, hexpression⟩ := holds?_expressionText hleft hright
  refine ⟨guardText, expressionText, hguardText, hexpressionText, hguard, ?_⟩
  rw [hguard, hexpression, Operand.evaluated, Operand.evaluated]
  cases hnumeric : condition.isNumeric with
  | true =>
    -- One of the two is a number, so there is nothing to say about two texts.
    have hone : condition.left.isNumber true = true ∨ condition.right.isNumber true = true :=
      (Bool.or_eq_true_iff.1 hnumeric).imp Operand.isNumber_of_isNumeric
        Operand.isNumber_of_isNumeric
    rcases hone with hnumber | hnumber
    · rw [hnumber]
      cases condition.right.isNumber true <;> simp [Expression.Value.compares?]
    · rw [hnumber]
      cases condition.left.isNumber true <;> simp [Expression.Value.compares?]
  | false =>
    obtain ⟨hleftNumeric, hrightNumeric⟩ := Bool.or_eq_false_iff.1 hnumeric
    simp [Operand.isNumber_false, hleftNumeric, hrightNumeric, Expression.Value.compares?]

/-- An input is compared with ten. -/
def belowTen : Condition := ⟨.data ⟨"count", .parameter⟩, .lt, .literal "10"⟩

/-- Both forms say that nine is below ten. -/
theorem belowTen_agrees :
    ∃ guardText expressionText, belowTen.guardText [⟨"count", .parameter⟩] = .ok guardText ∧
      belowTen.expressionText [⟨"count", .parameter⟩] = .ok expressionText ∧
      Guard.holds? (fun _ => "9") guardText = some true ∧
      Expression.holds? (fun _ => "9") expressionText = some true := by
  have hcount : belowTen.left.HasValue [⟨"count", .parameter⟩] (fun _ => "9") "9" 9 :=
    .data rfl rfl (Placeholder.isRead_of_notMem (by decide)) (by decide)
  have hten : belowTen.right.HasValue [⟨"count", .parameter⟩] (fun _ => "9") "10" 10 :=
    .literal (by decide)
  obtain ⟨guardText, expressionText, hguardText, hexpressionText, hguard, hagree⟩ :=
    guard_agrees_iff hcount hten
  refine ⟨guardText, expressionText, hguardText, hexpressionText, hguard, ?_⟩
  rw [hagree.2 (by decide), hguard]
  decide

/-- Two inputs are compared. -/
def firstBelowSecond : Condition :=
  ⟨.data ⟨"a", .parameter⟩, .lt, .data ⟨"b", .parameter⟩⟩

/-- Nine and ten are compared as numbers in the guard and as texts in the expression, so that the one
branch runs and the output of the other one is taken. -/
theorem firstBelowSecond_disagrees :
    let inputs : List Port := [⟨"a", .parameter⟩, ⟨"b", .parameter⟩]
    let values : String → String := fun name => if name = "a" then "9" else "10"
    let guardText := "\x7b\x7binputs.parameters.a\x7d\x7d < \x7b\x7binputs.parameters.b\x7d\x7d"
    let expressionText := "inputs.parameters['a'] < inputs.parameters['b']"
    firstBelowSecond.left.HasValue inputs values "9" 9 ∧
      firstBelowSecond.right.HasValue inputs values "10" 10 ∧
      firstBelowSecond.guardText inputs = .ok guardText ∧
      firstBelowSecond.expressionText inputs = .ok expressionText ∧
      Guard.holds? values guardText = some true ∧
      Expression.holds? values expressionText = some false := by
  intro inputs values guardText expressionText
  refine ⟨.data rfl rfl (Placeholder.isRead_of_notMem (by decide)) (by decide),
    .data rfl rfl (Placeholder.isRead_of_notMem (by decide)) (by decide), ?_⟩
  decide

end Condition

end Pipeline
