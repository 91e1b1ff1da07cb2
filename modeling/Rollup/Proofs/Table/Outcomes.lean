import Rollup.Proofs.Table.Enclosure
import Rollup.Proofs.Table.Splitting

/-! What splitting tells about a record.  The values of its cells, a character that may not stand
behind a closing quote, and a quote that nothing closes are three shapes of a text, and no text has
two of them.  Main statement: splitting ends in each of its outcomes exactly for the texts of that
shape, with the values or the place that the shape gives, and there is one value more than there
are delimiters outside quoted content. -/

namespace Rollup.Table

/-- A character that is neither padding nor a delimiter follows a quoted cell, and it is the first
one that does so: everything in front of that cell is cells in order, each with its delimiter.  A
quote right behind the closing one would double it instead. -/
def StraysAt (delimiter : Char) (text : List Char) (found : Char) (column : Nat) : Prop :=
  ∃ cells before content after rest,
    (∀ cell ∈ cells, cell.WellFormed delimiter) ∧
    (Cell.quoted before content after).WellFormed delimiter ∧
    text = begun delimiter cells ++ ((Cell.quoted before content after).text ++ found :: rest) ∧
    found ≠ delimiter ∧ isPaddingChar found = false ∧ (after = [] → found ≠ '"') ∧
    column = (begun delimiter cells ++ (Cell.quoted before content after).text).length + 1

/-- The last field opens with a quote in this column, and every further quote is one of a pair. -/
def OpensAt (delimiter : Char) (text : List Char) (column : Nat) : Prop :=
  ∃ cells before content,
    (∀ cell ∈ cells, cell.WellFormed delimiter) ∧ Padding delimiter before ∧
    text = begun delimiter cells ++ (before ++ '"' :: doubled content) ∧
    column = (begun delimiter cells ++ before).length + 1

/-- The number of delimiters that stand outside quoted content. -/
def openDelimiters (delimiter : Char) : Mode → List Char → Nat
  | _, [] => 0
  | mode, c :: rest =>
    (if c = delimiter ∧ mode ≠ .quoted then 1 else 0) +
      openDelimiters delimiter (mode.next (charMarks delimiter) c) rest

section

variable {delimiter : Char} {cells : List Cell}

theorem openDelimiters_append (mode : Mode) (first second : List Char) :
    openDelimiters delimiter mode (first ++ second) = openDelimiters delimiter mode first +
      openDelimiters delimiter (mode.after (charMarks delimiter) first) second := by
  induction first generalizing mode with
  | nil => rw [List.nil_append, openDelimiters, Mode.after_nil, Nat.zero_add]
  | cons c rest ih =>
    rw [List.cons_append, openDelimiters, openDelimiters, ih, Mode.after_cons, Nat.add_assoc]

theorem openDelimiters_of_enclosed {mode : Mode} {text : List Char}
    (enclosed : Enclosed (charMarks delimiter) delimiter mode text) :
    openDelimiters delimiter mode text = 0 := by
  induction text generalizing mode with
  | nil => rfl
  | cons c rest ih =>
    obtain ⟨head, tail⟩ := (enclosed_cons_iff _ _ _ _ _).mp enclosed
    have inside : ¬(c = delimiter ∧ mode ≠ .quoted) := fun both => both.2 (head both.1)
    rw [openDelimiters, if_neg inside, ih tail]

theorem Cell.enclosed_delimiter {cell : Cell} (notQuote : delimiter ≠ '"')
    (formed : cell.WellFormed delimiter) :
    Enclosed (charMarks delimiter) delimiter .start cell.text := by
  cases cell with
  | bare raw => exact enclosed_of_not_mem _ formed.1 _
  | quoted before content after =>
    obtain ⟨leading, trailing⟩ := formed
    have opening : Mode.start.next (charMarks delimiter) '"' = .quoted := by
      simp [Mode.next, charMarks, Ne.symm notQuote]
    rw [Cell.text, enclosed_append_iff, Mode.after_padding leading, enclosed_cons_iff, opening,
      enclosed_append_iff, enclosed_cons_iff]
    refine ⟨enclosed_of_not_mem _ leading.not_mem _, (absurd · (Ne.symm notQuote)), ?_,
      (absurd · (Ne.symm notQuote)), ?_⟩
    · exact (paired_doubled content).enclosed (charMarks delimiter) notQuote
    · exact enclosed_of_not_mem _ trailing.not_mem _

theorem openDelimiters_begun (notQuote : delimiter ≠ '"')
    (formed : ∀ cell ∈ cells, cell.WellFormed delimiter) :
    openDelimiters delimiter .start (begun delimiter cells) = cells.length := by
  induction cells with
  | nil => rfl
  | cons cell others ih =>
    have first := formed cell List.mem_cons_self
    have outside := Mode.after_cell notQuote first
    have none := openDelimiters_of_enclosed (Cell.enclosed_delimiter notQuote first)
    have later := ih fun other member => formed other (List.mem_cons_of_mem cell member)
    have shape : begun delimiter (cell :: others) =
        cell.text ++ delimiter :: begun delimiter others := by
      simp [begun]
    rw [shape, openDelimiters_append, none, openDelimiters, if_pos ⟨rfl, outside⟩,
      Mode.next_delimiter notQuote outside, later, List.length_cons, Nat.zero_add, Nat.add_comm]

theorem length_eq_openDelimiters (notQuote : delimiter ≠ '"') (some : cells ≠ [])
    (formed : ∀ cell ∈ cells, cell.WellFormed delimiter) :
    cells.length = openDelimiters delimiter .start (rowText delimiter cells) + 1 := by
  have parts := List.dropLast_concat_getLast some
  have last := formed _ (List.getLast_mem some)
  have others : ∀ cell ∈ cells.dropLast, cell.WellFormed delimiter :=
    fun cell member => formed cell (List.dropLast_subset cells member)
  have none := openDelimiters_of_enclosed (Cell.enclosed_delimiter notQuote last)
  have counted : openDelimiters delimiter .start (rowText delimiter cells) =
      cells.dropLast.length := by
    rw [← parts, rowText_append, openDelimiters_append, Mode.after_begun notQuote others, none,
      openDelimiters_begun notQuote others, List.dropLast_concat, Nat.add_zero]
  have positive := List.length_pos_iff.mpr some
  rw [counted, List.length_dropLast]
  omega

theorem splitFrom_open (content : List Char) (column opened : Nat) (reversed : List Char) :
    splitFrom delimiter column (.quoted opened reversed) (doubled content) =
      .error (.unterminatedQuote opened) := by
  induction content generalizing column reversed with
  | nil => rfl
  | cons c more ih =>
    by_cases same : c = '"'
    · subst same
      rw [doubled_quote, splitFrom, if_pos rfl, if_pos rfl, ih]
    · rw [doubled_cons same, splitFrom_quoted_other same, ih]

variable {text : List Char}

theorem splitFrom_of_straysAt {found : Char} {column : Nat} (notQuote : delimiter ≠ '"')
    (strays : StraysAt delimiter text found column) :
    splitFrom delimiter 1 .start text = .error (.textAfterQuote found column) := by
  obtain ⟨cells, before, content, after, rest, formed, cell, rfl, outside, ink, single, rfl⟩ :=
    strays
  have other : after = [] → (found :: rest).head? ≠ some '"' := by
    intro nothing
    simpa using single nothing
  have position : 1 + (begun delimiter cells).length +
        (Cell.quoted before content after).text.length =
      (begun delimiter cells ++ (Cell.quoted before content after).text).length + 1 := by
    rw [List.length_append]
    omega
  rw [splitFrom_begun notQuote formed, splitFrom_quotedCell notQuote cell other, splitFrom,
    if_neg outside, if_neg (by simp [ink]), position]
  rfl

theorem splitFrom_of_opensAt {column : Nat} (notQuote : delimiter ≠ '"')
    (opens : OpensAt delimiter text column) :
    splitFrom delimiter 1 .start text = .error (.unterminatedQuote column) := by
  obtain ⟨cells, before, content, formed, padding, rfl, rfl⟩ := opens
  have position : 1 + (begun delimiter cells).length + before.length =
      (begun delimiter cells ++ before).length + 1 := by
    rw [List.length_append]
    omega
  rw [splitFrom_begun notQuote formed, splitFrom_padding padding, splitFrom,
    if_neg (Ne.symm notQuote), if_pos rfl, splitFrom_open, position]
  rfl

end

/-- A record gives values, a stray character or an open quote exactly when it has the shape for
it, and nothing else. -/
theorem splitFields_outcomes (delimiter : Char) (notQuote : delimiter ≠ '"') (record : String) :
    (∀ values, splitFields delimiter record = .ok values ↔
      ∃ cells, cells ≠ [] ∧ (∀ cell ∈ cells, cell.WellFormed delimiter) ∧
        record.toList = rowText delimiter cells ∧ cells.map Cell.value = values) ∧
    (∀ values, splitFields delimiter record = .ok values →
      values.length = openDelimiters delimiter .start record.toList + 1) ∧
    (∀ found column, splitFields delimiter record = .error (.textAfterQuote found column) ↔
      StraysAt delimiter record.toList found column) ∧
    (∀ column, splitFields delimiter record = .error (.unterminatedQuote column) ↔
      OpensAt delimiter record.toList column) ∧
    splitFields delimiter record ≠ .error .invalidUtf8 := by
  have split := splitFields_split delimiter record
  have read : ∀ values, splitFields delimiter record = .ok values →
      ∃ cells, cells ≠ [] ∧ (∀ cell ∈ cells, cell.WellFormed delimiter) ∧
        record.toList = rowText delimiter cells ∧ cells.map Cell.value = values := by
    intro values result
    rw [result] at split
    cases split with
    | @fields cells some formed same => exact ⟨cells, some, formed, same, rfl⟩
  refine ⟨?_, ?_, ?_, ?_, ?_⟩
  · refine fun values => ⟨read values, ?_⟩
    rintro ⟨cells, some, formed, same, rfl⟩
    rw [splitFields, same]
    exact splitFrom_rowText notQuote some formed 1
  · intro values result
    obtain ⟨cells, some, formed, same, rfl⟩ := read values result
    rw [List.length_map, same]
    exact length_eq_openDelimiters notQuote some formed
  · refine fun found column => ⟨?_, splitFrom_of_straysAt notQuote⟩
    intro result
    rw [result] at split
    cases split with
    | textAfterQuote formed cell same outside ink single =>
      exact ⟨_, _, _, _, _, formed, cell, same, outside, ink, single, rfl⟩
  · refine fun column => ⟨?_, splitFrom_of_opensAt notQuote⟩
    intro result
    rw [result] at split
    cases split with
    | unterminated formed padding same => exact ⟨_, _, _, formed, padding, same, rfl⟩
  · intro result
    rw [result] at split
    cases split

/-- Between tabs, which then pad no field: quoted content with a tab and a quote in it, a stray
letter, and a quote that the doubled one does not close. -/
theorem splitFields_outcomes_tab :
    '\t' ≠ '"' ∧
    splitFields '\t' "\"a\"\"\t\" \t b \tc" = .ok ["a\"\t", "b", "c"] ∧
    openDelimiters '\t' .start "\"a\"\"\t\" \t b \tc".toList = 2 ∧
    splitFields '\t' "x\t \"y\" z" = .error (.textAfterQuote 'z' 8) ∧
    splitFields '\t' "x\t \"y\"\"z" = .error (.unterminatedQuote 4) := by
  have notQuote : '\t' ≠ '"' := by decide
  obtain ⟨fields, count, -, -, -⟩ :=
    splitFields_outcomes '\t' notQuote "\"a\"\"\t\" \t b \tc"
  obtain ⟨-, -, stray, -, -⟩ := splitFields_outcomes '\t' notQuote "x\t \"y\" z"
  obtain ⟨-, -, -, opened, -⟩ := splitFields_outcomes '\t' notQuote "x\t \"y\"\"z"
  have read : splitFields '\t' "\"a\"\"\t\" \t b \tc" = .ok ["a\"\t", "b", "c"] :=
    (fields _).mpr ⟨[.quoted [] ['a', '"', '\t'] [' '], .bare [' ', 'b', ' '], .bare ['c']],
      by decide, by decide, by decide, by decide⟩
  refine ⟨notQuote, read, ?_, ?_, ?_⟩
  · exact (Nat.succ.inj (count _ read)).symm
  · exact (stray 'z' 8).mpr ⟨[.bare ['x']], [' '], ['y'], [' '], [], by decide, by decide,
      by decide, by decide, by decide, by decide, by decide⟩
  · exact (opened 4).mpr ⟨[.bare ['x']], [' '], ['y', '"', 'z'], by decide, by decide,
      by decide, by decide⟩

end Rollup.Table
