import Rollup.Table.Fields
import Rollup.Table.Record

/-! Quotes in a record, told without looking ahead.  A quote inside a quoted field shuts it, and a
quote at once after that opens it again, so the mode after some symbols hangs on these symbols
alone.  The same modes serve bytes and characters.  Main statements: text whose quotes stand in
pairs never leaves an open field, and, read from anywhere else, never ends inside one. -/

namespace Rollup.Table

/-- Text in which quotes stand in pairs, as they do inside a quoted field. -/
inductive Paired {α : Type} (quote : α) : List α → Prop where
  | nil : Paired quote []
  | other {symbol : α} {rest : List α} (differs : symbol ≠ quote) (tail : Paired quote rest) :
      Paired quote (symbol :: rest)
  | pair {rest : List α} (tail : Paired quote rest) : Paired quote (quote :: quote :: rest)

theorem Paired.append {α : Type} {quote : α} {first second : List α} (left : Paired quote first)
    (right : Paired quote second) : Paired quote (first ++ second) := by
  induction left with
  | nil => exact right
  | other differs _ ih => exact .other differs ih
  | pair _ ih => exact .pair ih

theorem Paired.split {α : Type} {quote symbol : α} {first second : List α}
    (paired : Paired quote (first ++ symbol :: second)) (differs : symbol ≠ quote) :
    Paired quote first ∧ Paired quote second := by
  generalize whole : first ++ symbol :: second = text at paired
  induction paired generalizing first with
  | nil => simp at whole
  | @other head rest other tail ih =>
    cases first with
    | nil =>
      obtain ⟨-, rfl⟩ := List.cons.inj whole
      exact ⟨.nil, tail⟩
    | cons _ more =>
      obtain ⟨rfl, same⟩ := List.cons.inj whole
      have parts := ih same
      exact ⟨.other other parts.1, parts.2⟩
  | @pair rest tail ih =>
    match first with
    | [] => exact absurd (List.cons.inj whole).1 differs
    | [_] =>
      obtain ⟨-, same⟩ := List.cons.inj whole
      exact absurd (List.cons.inj same).1 differs
    | _ :: _ :: more =>
      obtain ⟨rfl, same⟩ := List.cons.inj whole
      obtain ⟨rfl, equal⟩ := List.cons.inj same
      have parts := ih equal
      exact ⟨.pair parts.1, parts.2⟩

/-- The symbols with a meaning of their own in a record. -/
structure Marks (α : Type) where
  delimiter : α
  quote : α
  isPadding : α → Bool

/-- Where in a field some symbols lead.  A field is `shut` by a quote that may still turn out to
be the first of two, and `closed` after it. -/
inductive Mode where
  | start
  | bare
  | quoted
  | shut
  | closed
  deriving DecidableEq, Repr

section

variable {α : Type} [DecidableEq α] (marks : Marks α)

def Mode.next (symbol : α) : Mode → Mode
  | .start =>
    if symbol = marks.delimiter then .start
    else if symbol = marks.quote then .quoted
    else if marks.isPadding symbol then .start
    else .bare
  | .bare => if symbol = marks.delimiter then .start else .bare
  | .quoted => if symbol = marks.quote then .shut else .quoted
  | .shut =>
    if symbol = marks.quote then .quoted
    else if symbol = marks.delimiter then .start
    else .closed
  | .closed => if symbol = marks.delimiter then .start else .closed

def Mode.after (mode : Mode) (symbols : List α) : Mode :=
  symbols.foldl (fun before symbol => before.next marks symbol) mode

@[simp] theorem Mode.after_nil (mode : Mode) : mode.after marks [] = mode := rfl

@[simp] theorem Mode.after_cons (mode : Mode) (symbol : α) (rest : List α) :
    mode.after marks (symbol :: rest) = (mode.next marks symbol).after marks rest := rfl

@[simp] theorem Mode.after_append (mode : Mode) (first second : List α) :
    mode.after marks (first ++ second) = (mode.after marks first).after marks second :=
  List.foldl_append

theorem Mode.next_quoted_of_ne {symbol : α} (other : symbol ≠ marks.quote) :
    Mode.quoted.next marks symbol = .quoted := by
  simp [Mode.next, other]

theorem Paired.after_quoted {text : List α} (paired : Paired marks.quote text) :
    Mode.quoted.after marks text = .quoted := by
  induction paired with
  | nil => rfl
  | other differs _ ih =>
    rw [Mode.after_cons, Mode.next_quoted_of_ne marks differs]
    exact ih
  | pair _ ih => simpa [Mode.next] using ih

theorem Mode.next_ne_quoted {mode : Mode} {symbol : α} (outside : mode ≠ .quoted)
    (differs : symbol ≠ marks.quote) : mode.next marks symbol ≠ .quoted := by
  cases mode <;> grind [Mode.next]

theorem Mode.after_pair_ne_quoted {mode : Mode} (outside : mode ≠ .quoted) :
    mode.after marks [marks.quote, marks.quote] ≠ .quoted := by
  cases mode <;> grind [Mode.next, Mode.after_cons, Mode.after_nil]

theorem Paired.after_ne_quoted {text : List α} (paired : Paired marks.quote text) {mode : Mode}
    (outside : mode ≠ .quoted) : mode.after marks text ≠ .quoted := by
  induction paired generalizing mode with
  | nil => exact outside
  | other differs _ ih => exact ih (Mode.next_ne_quoted marks outside differs)
  | pair _ ih => exact ih (Mode.after_pair_ne_quoted marks outside)

theorem Mode.next_congr {β : Type} [DecidableEq β] {marks : Marks α} {others : Marks β}
    {symbol : α} {other : β}
    (delimiters : symbol = marks.delimiter ↔ other = others.delimiter)
    (quotes : symbol = marks.quote ↔ other = others.quote)
    (padding : marks.isPadding symbol = others.isPadding other) (mode : Mode) :
    mode.next marks symbol = mode.next others other := by
  cases mode <;> simp only [Mode.next, delimiters, quotes, padding]

/-- Every occurrence of a symbol lies inside quotes. -/
def Enclosed (symbol : α) (mode : Mode) (symbols : List α) : Prop :=
  ∀ before after, symbols = before ++ symbol :: after → mode.after marks before = .quoted

theorem enclosed_nil (symbol : α) (mode : Mode) : Enclosed marks symbol mode [] := by
  intro before after same
  simp at same

theorem enclosed_cons_iff (symbol : α) (mode : Mode) (first : α) (rest : List α) :
    Enclosed marks symbol mode (first :: rest) ↔
      (first = symbol → mode = .quoted) ∧ Enclosed marks symbol (mode.next marks first) rest := by
  constructor
  · intro enclosed
    constructor
    · rintro rfl
      exact enclosed [] rest rfl
    · rintro before after rfl
      exact enclosed (first :: before) after rfl
  · rintro ⟨head, tail⟩ before after same
    cases before with
    | nil =>
      obtain ⟨rfl, -⟩ := List.cons.inj same
      exact head rfl
    | cons _ before =>
      obtain ⟨rfl, equal⟩ := List.cons.inj same
      exact tail before after equal

theorem enclosed_append_iff (symbol : α) (mode : Mode) (first second : List α) :
    Enclosed marks symbol mode (first ++ second) ↔
      Enclosed marks symbol mode first ∧
        Enclosed marks symbol (mode.after marks first) second := by
  induction first generalizing mode with
  | nil => simp [enclosed_nil]
  | cons head tail ih =>
    rw [List.cons_append, enclosed_cons_iff, enclosed_cons_iff, ih, Mode.after_cons, and_assoc]

theorem enclosed_of_not_mem {symbol : α} {symbols : List α} (absent : symbol ∉ symbols)
    (mode : Mode) : Enclosed marks symbol mode symbols := by
  rintro before after rfl
  simp at absent

theorem Paired.enclosed {symbol : α} {text : List α} (paired : Paired marks.quote text)
    (differs : symbol ≠ marks.quote) : Enclosed marks symbol .quoted text := by
  rintro before after rfl
  exact (paired.split differs).1.after_quoted

end

def byteMarks (delimiter : UInt8) : Marks UInt8 := ⟨delimiter, quote, isPadding⟩

def charMarks (delimiter : Char) : Marks Char := ⟨delimiter, '"', isPaddingChar⟩

end Rollup.Table
