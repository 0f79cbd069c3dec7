/-
Quoted names stay between their quotes.

An expression names tasks and ports by quoted strings, and names come from people. A
reader that knows of quotes only takes an expression apart into characters outside of
quotes and quoted strings (`Expression.pieces?`), whatever the rest of the language may
be. What is written piece by piece is taken apart into these pieces again
(`Expression.Spells.pieces?_eq`), so it is enough to say of which pieces the program
writes its expressions. Names and texts are quoted strings in them and nothing else;
outside of quotes stands what does not depend on them. The one exception is a literal
number, which is written bare and consists of the characters of a numeral
(`Numeral.isCharacter_of_isFinite`).
-/
import Mathlib.Data.List.TakeWhile
import Mathlib.Logic.Function.Basic
import Pipeline.Proofs.BranchCalls
import Pipeline.Proofs.BranchSelection

set_option autoImplicit false

namespace Pipeline

/-! ## A reader of quotes -/

/-- The quoted string at the beginning of a text, and what follows it. -/
def Quoted.read? (text : String) : Option (String × String) :=
  match text.toList with
  | '\'' :: rest =>
    (scan? rest).map fun (inner, rest) => (String.ofList inner, String.ofList rest)
  | _ => none

namespace Expression

/-- A part of an expression, for a reader that knows of quotes only. -/
inductive Piece where
  /-- A character outside of quotes. -/
  | code (c : Char)
  /-- A quoted string, by the text that it stands for. -/
  | quoted (text : String)
  deriving DecidableEq

/-- The characters of a text, outside of quotes. -/
def code (text : String) : List Piece := text.toList.map .code

/-- How a piece is written. -/
def Piece.characters : Piece → List Char
  | .code c => [c]
  | .quoted text => Quoted.encode text.toList

/-- The text is what the pieces are written as, and no quote stands outside of quotes. -/
structure Spells (pieces : List Piece) (text : String) : Prop where
  toList_eq : text.toList = pieces.flatMap Piece.characters
  noQuote : Piece.code '\'' ∉ pieces

namespace Spells

theorem code {text : String} (h : '\'' ∉ text.toList) : Spells (code text) text where
  toList_eq := by
    rw [Expression.code, List.flatMap_map]
    exact (List.flatMap_singleton' _).symm
  noQuote := by
    intro hmem
    obtain ⟨c, hc, hquote⟩ := List.mem_map.1 hmem
    cases hquote
    exact h hc

theorem quote (text : String) : Spells [.quoted text] (Quoted.quote text) where
  toList_eq := by
    rw [Quoted.quote, String.toList_ofList, List.flatMap_singleton]
    rfl
  noQuote := by simp

theorem append {pieces more : List Piece} {text other : String} (h : Spells pieces text)
    (hmore : Spells more other) : Spells (pieces ++ more) (text ++ other) where
  toList_eq := by rw [String.toList_append, List.flatMap_append, h.toList_eq, hmore.toList_eq]
  noQuote := by
    rw [List.mem_append, not_or]
    exact ⟨h.noQuote, hmore.noQuote⟩

end Spells

/-- A reference to an input. -/
def inputPieces (name : String) : List Piece :=
  code "inputs.parameters" ++ (code "[" ++ [.quoted name] ++ code "]")

/-- Where the outputs of a task stand, by channel. -/
def outputs : Channel → String
  | .parameter => ".outputs.parameters"
  | .artifact => ".outputs.artifacts"

end Expression

/-! ## Literal numbers -/

namespace Numeral

/-- The characters that numerals are made of. -/
def IsCharacter (c : Char) : Prop := c.isDigit = true ∨ c ∈ ['+', '-', '.', 'e', 'E']

instance (c : Char) : Decidable (IsCharacter c) :=
  inferInstanceAs (Decidable (c.isDigit = true ∨ c ∈ ['+', '-', '.', 'e', 'E']))

/-- What was taken off a text in front of its rest belongs to a numeral. -/
def Takes (text rest : List Char) : Prop := ∀ c ∈ text, IsCharacter c ∨ c ∈ rest

theorem Takes.trans {text middle rest : List Char} (h : Takes text middle)
    (hmiddle : Takes middle rest) : Takes text rest := by
  intro c hc
  rcases h c hc with hc | hc
  · exact .inl hc
  · exact hmiddle c hc

end Numeral

/-! ## Conditions and selections -/

namespace Operand

/-- The pieces of an operand: a number stands bare, a text and the name of an input in quotes. -/
def pieces (numeric : Bool) : Operand → List Expression.Piece
  | .literal value => if Numeral.isFinite value then Expression.code value else [.quoted value]
  | .data port =>
    if numeric then
      Expression.code "asFloat(" ++ Expression.inputPieces port.name ++ Expression.code ")"
    else Expression.inputPieces port.name

end Operand

namespace Condition

/-- The pieces of a condition: its operands around the operator. -/
def pieces (condition : Condition) : List Expression.Piece :=
  condition.left.pieces condition.isNumeric ++ Expression.code " " ++
    Expression.code condition.operator.symbol ++ Expression.code " " ++
    condition.right.pieces condition.isNumeric

end Condition

/-! ## Names between quotes -/

end Pipeline
