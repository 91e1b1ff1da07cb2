import Rollup.Proofs.Table.Grammar
import Rollup.Proofs.Table.Quoting

/-! Modes of written cells.  A well-formed cell ends outside quotes, so the delimiter behind it
starts a field afresh and the cells of a record can be judged one by one.  Main statement: all
line feeds of a record lie inside quotes exactly when no bare cell holds one. -/

namespace Rollup.Table

theorem paired_of_not_mem {α : Type} {quote : α} {text : List α} (absent : quote ∉ text) :
    Paired quote text := by
  induction text with
  | nil => exact .nil
  | cons first rest ih =>
    rw [List.mem_cons, not_or] at absent
    exact .other (Ne.symm absent.1) (ih absent.2)

theorem paired_doubled (content : List Char) : Paired '"' (doubled content) := by
  induction content with
  | nil => exact .nil
  | cons c rest ih =>
    by_cases same : c = '"'
    · subst same
      exact .pair ih
    · rw [doubled_cons same]
      exact .other same ih

theorem Padding.quote_not_mem {delimiter : Char} {cs : List Char}
    (padding : Padding delimiter cs) : '"' ∉ cs := by
  intro member
  exact absurd (padding '"' member).1 (by decide)

theorem Padding.lineFeed_not_mem {delimiter : Char} {cs : List Char}
    (padding : Padding delimiter cs) : '\n' ∉ cs := by
  intro member
  exact absurd (padding '\n' member).1 (by decide)

theorem Cell.wellFormed_front {delimiter : Char} {first second : List Char}
    (formed : (Cell.bare (first ++ second)).WellFormed delimiter) :
    (Cell.bare first).WellFormed delimiter := by
  obtain ⟨absent, unquoted⟩ := formed
  refine ⟨fun member => absent (List.mem_append_left second member), ?_⟩
  intro quoted
  rw [List.dropWhile_append] at unquoted
  cases shape : first.dropWhile isPaddingChar with
  | nil => simp [shape] at quoted
  | cons c rest =>
    rw [shape] at quoted unquoted
    exact unquoted quoted

/-- No line feed stands in the open in such a cell. -/
def Cell.Flat : Cell → Prop
  | bare raw => '\n' ∉ raw
  | quoted _ _ _ => True

section

variable {delimiter : Char} {cells : List Cell}

theorem Mode.after_padding {cs : List Char} (padding : Padding delimiter cs) :
    Mode.start.after (charMarks delimiter) cs = .start := by
  induction cs with
  | nil => rfl
  | cons c rest ih =>
    obtain ⟨blank, other⟩ := padding c List.mem_cons_self
    have notQuote : c ≠ '"' := fun same => padding.quote_not_mem (by simp [same])
    have step : Mode.start.next (charMarks delimiter) c = .start := by
      simp [Mode.next, charMarks, other, notQuote, blank]
    rw [Mode.after_cons, step]
    exact ih fun d member => padding d (List.mem_cons_of_mem c member)

theorem Mode.after_bare {raw : List Char} (absent : delimiter ∉ raw) :
    Mode.bare.after (charMarks delimiter) raw = .bare := by
  induction raw with
  | nil => rfl
  | cons c rest ih =>
    rw [List.mem_cons, not_or] at absent
    have step : Mode.bare.next (charMarks delimiter) c = .bare := if_neg (Ne.symm absent.1)
    rw [Mode.after_cons, step]
    exact ih absent.2

theorem Mode.after_bareCell {raw : List Char} (formed : (Cell.bare raw).WellFormed delimiter) :
    Mode.start.after (charMarks delimiter) raw ≠ .quoted := by
  induction raw with
  | nil => exact nofun
  | cons c rest ih =>
    obtain ⟨absent, unquoted⟩ := formed
    rw [List.mem_cons, not_or] at absent
    have other : c ≠ delimiter := Ne.symm absent.1
    by_cases blank : isPaddingChar c = true
    · have one : Padding delimiter [c] := by
        intro d member
        cases List.mem_singleton.mp member
        exact ⟨blank, other⟩
      rw [← List.singleton_append, Mode.after_append, Mode.after_padding one]
      rw [List.dropWhile_cons_of_pos blank] at unquoted
      exact ih ⟨absent.2, unquoted⟩
    · rw [List.dropWhile_cons_of_neg blank] at unquoted
      have notQuote : c ≠ '"' := by simpa using unquoted
      have step : Mode.start.next (charMarks delimiter) c = .bare := by
        simp [Mode.next, charMarks, other, notQuote, blank]
      rw [Mode.after_cons, step, Mode.after_bare absent.2]
      decide

theorem Mode.after_opening {before : List Char} (notQuote : delimiter ≠ '"')
    (padding : Padding delimiter before) (content : List Char) :
    Mode.start.after (charMarks delimiter) (before ++ '"' :: doubled content) = .quoted := by
  have opening : Mode.start.next (charMarks delimiter) '"' = .quoted := by
    simp [Mode.next, charMarks, Ne.symm notQuote]
  rw [Mode.after_append, Mode.after_padding padding, Mode.after_cons, opening]
  exact (paired_doubled content).after_quoted (charMarks delimiter)

theorem Mode.after_cell {cell : Cell} (notQuote : delimiter ≠ '"')
    (formed : cell.WellFormed delimiter) :
    Mode.start.after (charMarks delimiter) cell.text ≠ .quoted := by
  cases cell with
  | bare raw => exact Mode.after_bareCell formed
  | quoted before content after =>
    obtain ⟨leading, trailing⟩ := formed
    have shape : (Cell.quoted before content after).text =
        (before ++ '"' :: doubled content) ++ '"' :: after := by
      simp [Cell.text]
    rw [shape, Mode.after_append, Mode.after_opening notQuote leading, Mode.after_cons]
    exact (paired_of_not_mem trailing.quote_not_mem).after_ne_quoted (charMarks delimiter) nofun

theorem Mode.next_delimiter {mode : Mode} (notQuote : delimiter ≠ '"')
    (outside : mode ≠ .quoted) : mode.next (charMarks delimiter) delimiter = .start := by
  cases mode with
  | quoted => exact absurd rfl outside
  | _ => simp [Mode.next, charMarks, notQuote]

theorem Mode.after_begun (notQuote : delimiter ≠ '"')
    (formed : ∀ cell ∈ cells, cell.WellFormed delimiter) :
    Mode.start.after (charMarks delimiter) (begun delimiter cells) = .start := by
  induction cells with
  | nil => rfl
  | cons cell rest ih =>
    have first := formed cell List.mem_cons_self
    have closed := Mode.next_delimiter notQuote (Mode.after_cell notQuote first)
    have shape : begun delimiter (cell :: rest) =
        cell.text ++ delimiter :: begun delimiter rest := by
      simp [begun]
    rw [shape, Mode.after_append, Mode.after_cons, closed]
    exact ih fun other member => formed other (List.mem_cons_of_mem cell member)

theorem Mode.after_rowText (notQuote : delimiter ≠ '"')
    (formed : ∀ cell ∈ cells, cell.WellFormed delimiter) :
    Mode.start.after (charMarks delimiter) (rowText delimiter cells) ≠ .quoted := by
  by_cases some : cells = []
  · subst some
    exact nofun
  · have parts := List.dropLast_concat_getLast some
    have last := formed _ (List.getLast_mem some)
    have others : ∀ cell ∈ cells.dropLast, cell.WellFormed delimiter :=
      fun cell member => formed cell (List.dropLast_subset cells member)
    rw [← parts, rowText_append, Mode.after_append, Mode.after_begun notQuote others]
    exact Mode.after_cell notQuote last

theorem Cell.enclosed_iff {cell : Cell} (notQuote : delimiter ≠ '"')
    (formed : cell.WellFormed delimiter) :
    Enclosed (charMarks delimiter) '\n' .start cell.text ↔ cell.Flat := by
  cases cell with
  | bare raw =>
    constructor
    · intro enclosed member
      obtain ⟨before, after, rfl⟩ := List.append_of_mem member
      exact Mode.after_bareCell (Cell.wellFormed_front formed) (enclosed before after rfl)
    · intro flat
      exact enclosed_of_not_mem _ flat _
  | quoted before content after =>
    obtain ⟨leading, trailing⟩ := formed
    have opening : Mode.start.next (charMarks delimiter) '"' = .quoted := by
      simp [Mode.next, charMarks, Ne.symm notQuote]
    refine iff_of_true ?_ trivial
    rw [Cell.text, enclosed_append_iff, Mode.after_padding leading, enclosed_cons_iff, opening,
      enclosed_append_iff, enclosed_cons_iff]
    have other : ∀ {conclusion : Prop}, '"' = '\n' → conclusion :=
      fun same => absurd same (by decide)
    refine ⟨enclosed_of_not_mem _ leading.lineFeed_not_mem _, other, ?_, other, ?_⟩
    · have differs : '\n' ≠ '"' := by decide
      exact (paired_doubled content).enclosed (charMarks delimiter) differs
    · exact enclosed_of_not_mem _ trailing.lineFeed_not_mem _

theorem enclosed_rowText_iff (notQuote : delimiter ≠ '"') (notLineFeed : delimiter ≠ '\n')
    (formed : ∀ cell ∈ cells, cell.WellFormed delimiter) :
    Enclosed (charMarks delimiter) '\n' .start (rowText delimiter cells) ↔
      ∀ cell ∈ cells, cell.Flat := by
  induction cells with
  | nil => exact iff_of_true (enclosed_nil _ _ _) nofun
  | cons cell others ih =>
    have first := formed cell List.mem_cons_self
    have head := Cell.enclosed_iff notQuote first
    cases others with
    | nil => simpa [rowText] using head
    | cons next more =>
      have tail := ih fun other member => formed other (List.mem_cons_of_mem cell member)
      have closed := Mode.next_delimiter notQuote (Mode.after_cell notQuote first)
      rw [rowText, enclosed_append_iff, enclosed_cons_iff, closed, head, tail,
        List.forall_mem_cons (l := next :: more)]
      simp [notLineFeed]

end

end Rollup.Table
