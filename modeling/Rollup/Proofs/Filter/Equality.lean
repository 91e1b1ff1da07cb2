import Rollup.Proofs.Filter.Phrases

/-! The filter that asks for one value of one column.  Any text can be written as a quoted literal,
with a backslash before each quote and each backslash.  Main statement: the filter text made of a
column and a value is accepted, and it accepts the rows whose cell is that value, letter by
letter. -/

namespace Rollup.Filter

open Table Text

def escapedText (text : List Char) : List Char :=
  text.flatMap fun c => if c = '"' ∨ c = '\\' then ['\\', c] else [c]

theorem escaped_escapedText (text : List Char) : Escaped (escapedText text) text := by
  induction text with
  | nil => exact .nil
  | cons c rest ih =>
    rw [escapedText, List.flatMap_cons]
    by_cases special : c = '"' ∨ c = '\\'
    · rw [if_pos special]
      exact .escape special ih
    · rw [if_neg special]
      exact .plain (fun same => special (.inl same)) (fun same => special (.inr same)) ih

/-- The text of the condition that a column has a value. -/
def equalityText (column value : String) : String :=
  column ++ " == \"" ++ String.ofList (escapedText value.toList) ++ "\""

def equalityClause (column value : String) : Clause where
  lead := []
  name := column.toList
  beforeSign := [' ']
  comparison := .equal
  afterSign := [' ']
  operand := '"' :: (escapedText value.toList ++ ['"'])
  literal := .text value
  trail := []

theorem toList_equalityText (column value : String) :
    (equalityText column value).toList = (equalityClause column value).text := by
  simp [equalityText, Clause.text, Clause.core, equalityClause, Comparison.symbol]

theorem equalityClause_wellFormed {header : Header} {column : String} (named : column ≠ "")
    (nameChars : ∀ c ∈ column.toList, isNameChar c = true) (known : column ∈ header.names)
    (value : String) : (equalityClause column value).WellFormed header where
  lead := List.forall_mem_nil _
  name := fun empty => named (String.toList_eq_nil_iff.mp empty)
  nameChars := nameChars
  known := by
    rw [equalityClause, String.ofList_toList]
    exact known
  beforeSign := (by decide : Blanks [' '])
  afterSign := (by decide : Blanks [' '])
  spells := by
    have written := Spells.text (escaped_escapedText value.toList)
    rwa [String.ofList_toList] at written
  equality := fun _ => rfl
  trail := List.forall_mem_nil _

theorem trim_equalityText (column value : String) :
    trim (equalityText column value).toList ≠ [] := by
  have quote : '"' ∈ (equalityText column value).toList := by simp [equalityText]
  exact trim_ne_nil_of_mem quote (by decide)

theorem compile_equalityText {header : Header} {column : String} (named : column ≠ "")
    (nameChars : ∀ c ∈ column.toList, isNameChar c = true) (known : column ∈ header.names)
    (value : String) : Filter.compile header (equalityText column value) =
      .ok ⟨some (.condition ⟨column, .equal, .text value⟩)⟩ := by
  have formed := equalityClause_wellFormed named nameChars known value
  have phrase : PhraseWellFormed header [[equalityClause column value]] :=
    ⟨List.cons_ne_nil _ _,
      List.forall_mem_singleton.mpr ⟨List.cons_ne_nil _ _, List.forall_mem_singleton.mpr formed⟩⟩
  have read : parse header (equalityText column value) =
      .ok (phraseTree [[equalityClause column value]]) := by
    refine (parse_ok_iff header _ _).mpr ⟨_, phrase, ?_, rfl⟩
    rw [phraseText_singleton, termText_singleton, toList_equalityText]
  have tree : phraseTree [[equalityClause column value]] =
      .condition ⟨column, .equal, .text value⟩ := by
    show Expression.condition (equalityClause column value).condition = _
    rw [Clause.condition, equalityClause, String.ofList_toList]
  rw [Filter.compile_eq, if_neg (trim_equalityText column value), read, tree]
  rfl

end Rollup.Filter
