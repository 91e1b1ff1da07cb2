import Rollup.Filter.Parser

/-! The grammar of filter texts.  A clause is a column, a comparison and a literal, with blanks
before, between and after them; a term is clauses with `&&` between them, and a phrase is terms
with `||` between them.  A literal is a quoted text, in which a backslash stands for itself unless
a quote or a backslash follows it, or a number of digits with at most one point.  The tree of a
phrase joins what is several, and leaves alone what is single. -/

namespace Rollup.Filter

open Table

def Blanks (cs : List Char) : Prop := ∀ c ∈ cs, Text.isAsciiBlank c = true

instance (cs : List Char) : Decidable (Blanks cs) := List.decidableBAll _ cs

/-- The content of a quoted text as it is written, and the text that it stands for. -/
inductive Escaped : List Char → List Char → Prop where
  | nil : Escaped [] []
  | plain {c : Char} {raw text : List Char} (notQuote : c ≠ '"') (notBackslash : c ≠ '\\')
      (tail : Escaped raw text) : Escaped (c :: raw) (c :: text)
  | escape {c : Char} {raw text : List Char} (special : c = '"' ∨ c = '\\')
      (tail : Escaped raw text) : Escaped ('\\' :: c :: raw) (c :: text)
  | backslash {c : Char} {raw text : List Char} (notQuote : c ≠ '"') (notBackslash : c ≠ '\\')
      (tail : Escaped (c :: raw) text) : Escaped ('\\' :: c :: raw) ('\\' :: text)

structure IsUnsigned (body : List Char) : Prop where
  chars : ∀ c ∈ body, isNumeralChar c = true
  digit : ∃ c ∈ body, c.isDigit = true
  points : body.count '.' ≤ 1

def IsNumber (digits : List Char) : Prop :=
  ∃ body, (digits = body ∨ digits = '-' :: body) ∧ IsUnsigned body

/-- How a literal is written. -/
inductive Spells : List Char → Literal → Prop where
  | text {raw text : List Char} (escaped : Escaped raw text) :
      Spells ('"' :: (raw ++ ['"'])) (.text (String.ofList text))
  | number {digits : List Char} {value : Float} (shape : IsNumber digits)
      (read : Decimal.read? digits = some value) : Spells digits (.number value)

/-- One condition as it is written, with the blanks around its parts. -/
structure Clause where
  lead : List Char
  name : List Char
  beforeSign : List Char
  comparison : Comparison
  afterSign : List Char
  operand : List Char
  literal : Literal
  trail : List Char

namespace Clause

/-- The text of a clause up to the end of its literal. -/
def core (clause : Clause) : List Char :=
  clause.lead ++ (clause.name ++ (clause.beforeSign ++ (clause.comparison.symbol.toList ++
    (clause.afterSign ++ clause.operand))))

def text (clause : Clause) : List Char := clause.core ++ clause.trail

def condition (clause : Clause) : Condition where
  column := String.ofList clause.name
  comparison := clause.comparison
  literal := clause.literal

structure WellFormed (header : Header) (clause : Clause) : Prop where
  lead : Blanks clause.lead
  name : clause.name ≠ []
  nameChars : ∀ c ∈ clause.name, isNameChar c = true
  known : String.ofList clause.name ∈ header.names
  beforeSign : Blanks clause.beforeSign
  afterSign : Blanks clause.afterSign
  spells : Spells clause.operand clause.literal
  equality : clause.literal.isText = true → clause.comparison.isOrdering = false
  trail : Blanks clause.trail

end Clause

def termText (clauses : List Clause) : List Char :=
  ['&', '&'].intercalate (clauses.map Clause.text)

def termTree (clauses : List Clause) : Expression :=
  joinedBy .all (clauses.map fun clause => .condition clause.condition)

/-- Terms with `||` between them. -/
def phraseText (terms : List (List Clause)) : List Char :=
  ['|', '|'].intercalate (terms.map termText)

def phraseTree (terms : List (List Clause)) : Expression :=
  joinedBy .any (terms.map termTree)

theorem termText_singleton (clause : Clause) : termText [clause] = clause.text :=
  List.intercalate_singleton

theorem termText_cons (clause : Clause) {others : List Clause} (more : others ≠ []) :
    termText (clause :: others) = clause.text ++ '&' :: '&' :: termText others := by
  have mapped : others.map Clause.text ≠ [] := by simpa using more
  rw [termText, List.map_cons, List.intercalate_cons_of_ne_nil mapped, List.append_assoc]
  rfl

theorem phraseText_singleton (clauses : List Clause) : phraseText [clauses] = termText clauses :=
  List.intercalate_singleton

theorem phraseText_cons (clauses : List Clause) {others : List (List Clause)}
    (more : others ≠ []) :
    phraseText (clauses :: others) = termText clauses ++ '|' :: '|' :: phraseText others := by
  have mapped : others.map termText ≠ [] := by simpa using more
  rw [phraseText, List.map_cons, List.intercalate_cons_of_ne_nil mapped, List.append_assoc]
  rfl

structure TermWellFormed (header : Header) (clauses : List Clause) : Prop where
  nonempty : clauses ≠ []
  formed : ∀ clause ∈ clauses, clause.WellFormed header

structure PhraseWellFormed (header : Header) (terms : List (List Clause)) : Prop where
  nonempty : terms ≠ []
  formed : ∀ clauses ∈ terms, TermWellFormed header clauses

end Rollup.Filter
