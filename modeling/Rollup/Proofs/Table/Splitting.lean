import Rollup.Proofs.Table.Grammar

/-! Splitting follows the grammar.  Each part of a cell moves the splitting on in a way of its own,
and behind a whole cell it stands in a field that holds the value of the cell.  Main statement: a
record written as well-formed cells is split into exactly their values. -/

namespace Rollup.Table

section

variable {delimiter : Char} {rest : List Char}

theorem splitFrom_padding {before : List Char} (padding : Padding delimiter before)
    (column : Nat) :
    splitFrom delimiter column .start (before ++ rest) =
      splitFrom delimiter (column + before.length) .start rest := by
  induction before generalizing column with
  | nil => rfl
  | cons c more ih =>
    obtain ⟨blank, other⟩ := padding c List.mem_cons_self
    have notQuote : c ≠ '"' := by
      rintro rfl
      exact absurd blank (by decide)
    have later : Padding delimiter more :=
      fun d member => padding d (List.mem_cons_of_mem c member)
    rw [List.cons_append, splitFrom, if_neg other, if_neg notQuote, if_pos blank, ih later,
      List.length_cons, Nat.add_right_comm, Nat.add_assoc]

theorem splitFrom_bare {raw : List Char} (absent : delimiter ∉ raw) (column : Nat)
    (reversed : List Char) :
    splitFrom delimiter column (.bare reversed) (raw ++ rest) =
      splitFrom delimiter (column + raw.length) (.bare (raw.reverse ++ reversed)) rest := by
  induction raw generalizing column reversed with
  | nil => rfl
  | cons c more ih =>
    rw [List.mem_cons, not_or] at absent
    rw [List.cons_append, splitFrom, if_neg (Ne.symm absent.1), ih absent.2, List.length_cons,
      Nat.add_right_comm, Nat.add_assoc, List.reverse_cons, List.append_assoc,
      List.singleton_append]

theorem splitFrom_closed {after : List Char} (padding : Padding delimiter after) (column : Nat)
    (reversed : List Char) :
    splitFrom delimiter column (.closed reversed) (after ++ rest) =
      splitFrom delimiter (column + after.length) (.closed reversed) rest := by
  induction after generalizing column with
  | nil => rfl
  | cons c more ih =>
    obtain ⟨blank, other⟩ := padding c List.mem_cons_self
    have later : Padding delimiter more :=
      fun d member => padding d (List.mem_cons_of_mem c member)
    rw [List.cons_append, splitFrom, if_neg other, if_pos blank, ih later, List.length_cons,
      Nat.add_right_comm, Nat.add_assoc]

theorem splitFrom_quote (single : rest.head? ≠ some '"') (column opened : Nat)
    (reversed : List Char) :
    splitFrom delimiter column (.quoted opened reversed) ('"' :: rest) =
      splitFrom delimiter (column + 1) (.closed reversed) rest := by
  cases rest with
  | nil => simp [splitFrom]
  | cons next more =>
    have other : next ≠ '"' := by simpa using single
    rw [splitFrom, if_pos rfl, if_neg other]

theorem splitFrom_quoted_other {c : Char} (notQuote : c ≠ '"') (column opened : Nat)
    (reversed : List Char) :
    splitFrom delimiter column (.quoted opened reversed) (c :: rest) =
      splitFrom delimiter (column + 1) (.quoted opened (c :: reversed)) rest := by
  cases rest with
  | nil => simp [splitFrom, notQuote]
  | cons next more => rw [splitFrom, if_neg notQuote]

theorem splitFrom_quoted (single : rest.head? ≠ some '"') (content : List Char)
    (column opened : Nat) (reversed : List Char) :
    splitFrom delimiter column (.quoted opened reversed) (doubled content ++ '"' :: rest) =
      splitFrom delimiter (column + (doubled content).length + 1)
        (.closed (content.reverse ++ reversed)) rest := by
  induction content generalizing column reversed with
  | nil => exact splitFrom_quote single column opened reversed
  | cons c more ih =>
    by_cases same : c = '"'
    · subst same
      have length : (doubled ('"' :: more)).length = (doubled more).length + 2 := rfl
      rw [doubled_quote, List.cons_append, List.cons_append, splitFrom, if_pos rfl, if_pos rfl,
        ih, List.reverse_cons, List.append_assoc, List.singleton_append, ← doubled_quote, length]
      congr 1
      omega
    · rw [doubled_cons same, List.cons_append, splitFrom_quoted_other same, ih,
        List.reverse_cons, List.append_assoc, List.singleton_append, List.length_cons]
      congr 1
      omega

theorem splitFrom_delimiter {field : Field} {value : String} (complete : field.value? = .ok value)
    (column : Nat) :
    splitFrom delimiter column field (delimiter :: rest) =
      (splitFrom delimiter (column + 1) .start rest).map (value :: ·) := by
  cases field with
  | start =>
    cases complete
    rw [splitFrom, if_pos rfl]
  | bare reversed =>
    cases complete
    rw [splitFrom, if_pos rfl, bare_value_bind]
  | quoted opened reversed => cases complete
  | closed reversed =>
    cases complete
    rw [splitFrom, if_pos rfl]

/-- Behind a bare cell stands a field with its value: padding is passed over, and the first
character after it begins the field. -/
theorem splitFrom_bareCell {raw : List Char} (formed : (Cell.bare raw).WellFormed delimiter)
    (column : Nat) :
    ∃ field, field.value? = .ok (Cell.bare raw).value ∧
      splitFrom delimiter column .start (raw ++ rest) =
        splitFrom delimiter (column + raw.length) field rest := by
  induction raw generalizing column with
  | nil => exact ⟨.start, rfl, rfl⟩
  | cons c more ih =>
    obtain ⟨absent, unquoted⟩ := formed
    rw [List.mem_cons, not_or] at absent
    have length : column + (c :: more).length = column + 1 + more.length := by
      rw [List.length_cons]
      omega
    by_cases blank : isPaddingChar c = true
    · have notQuote : c ≠ '"' := by
        rintro rfl
        exact absurd blank (by decide)
      rw [List.dropWhile_cons_of_pos blank] at unquoted
      obtain ⟨field, complete, same⟩ := ih ⟨absent.2, unquoted⟩ (column + 1)
      refine ⟨field, ?_, ?_⟩
      · rw [complete, Cell.value, Cell.value, List.dropWhile_cons_of_pos blank]
      · rw [List.cons_append, splitFrom, if_neg (Ne.symm absent.1), if_neg notQuote,
          if_pos blank, same, length]
    · rw [List.dropWhile_cons_of_neg blank] at unquoted
      have notQuote : c ≠ '"' := by simpa using unquoted
      refine ⟨.bare (more.reverse ++ [c]), ?_, ?_⟩
      · rw [Field.value?, Cell.value, List.dropWhile_cons_of_neg blank, List.reverse_append,
          List.reverse_reverse, List.reverse_singleton, List.singleton_append]
      · rw [List.cons_append, splitFrom, if_neg (Ne.symm absent.1), if_neg notQuote,
          if_neg blank, splitFrom_bare absent.2, length]

theorem splitFrom_quotedCell {before content after : List Char} (notQuote : delimiter ≠ '"')
    (formed : (Cell.quoted before content after).WellFormed delimiter)
    (single : after = [] → rest.head? ≠ some '"') (column : Nat) :
    splitFrom delimiter column .start ((Cell.quoted before content after).text ++ rest) =
      splitFrom delimiter (column + (Cell.quoted before content after).text.length)
        (.closed content.reverse) rest := by
  obtain ⟨leading, trailing⟩ := formed
  have closing : (after ++ rest).head? ≠ some '"' := by
    cases after with
    | nil => exact single rfl
    | cons c more =>
      intro same
      have blank := (trailing c List.mem_cons_self).1
      rw [List.cons_append, List.head?_cons, Option.some.injEq] at same
      rw [same] at blank
      exact absurd blank (by decide)
  have length : column + (Cell.quoted before content after).text.length =
      column + before.length + 1 + (doubled content).length + 1 + after.length := by
    simp only [Cell.text, List.length_append, List.length_cons]
    omega
  rw [length, Cell.text, List.append_assoc, splitFrom_padding leading, List.cons_append,
    List.append_assoc, List.cons_append, splitFrom, if_neg (Ne.symm notQuote), if_pos rfl,
    splitFrom_quoted closing, splitFrom_closed trailing, List.append_nil]

theorem splitFrom_cell {cell : Cell} (notQuote : delimiter ≠ '"')
    (formed : cell.WellFormed delimiter) (single : rest.head? ≠ some '"') (column : Nat) :
    ∃ field, field.value? = .ok cell.value ∧
      splitFrom delimiter column .start (cell.text ++ rest) =
        splitFrom delimiter (column + cell.text.length) field rest := by
  cases cell with
  | bare raw => exact splitFrom_bareCell formed column
  | quoted before content after =>
    refine ⟨.closed content.reverse, ?_,
      splitFrom_quotedCell notQuote formed (fun _ => single) column⟩
    rw [Field.value?, Cell.value, List.reverse_reverse]

variable {cells : List Cell}

theorem splitFrom_begun (notQuote : delimiter ≠ '"')
    (formed : ∀ cell ∈ cells, cell.WellFormed delimiter) (column : Nat) :
    splitFrom delimiter column .start (begun delimiter cells ++ rest) =
      (splitFrom delimiter (column + (begun delimiter cells).length) .start rest).map
        (cells.map Cell.value ++ ·) := by
  induction cells generalizing column with
  | nil =>
    show splitFrom delimiter column .start rest =
      (splitFrom delimiter column .start rest).map ([] ++ ·)
    cases splitFrom delimiter column .start rest <;> rfl
  | cons cell others ih =>
    have first := formed cell List.mem_cons_self
    let tail := begun delimiter others ++ rest
    have single : (delimiter :: tail).head? ≠ some '"' := by simpa using notQuote
    obtain ⟨field, complete, same⟩ := splitFrom_cell notQuote first single column
    have later := ih (fun other member => formed other (List.mem_cons_of_mem cell member))
      (column + cell.text.length + 1)
    have shape : begun delimiter (cell :: others) ++ rest = cell.text ++ delimiter :: tail := by
      simp [begun, tail]
    have length : column + (begun delimiter (cell :: others)).length =
        column + cell.text.length + 1 + (begun delimiter others).length := by
      simp only [begun, List.flatMap_cons, List.length_append, List.length_singleton]
      omega
    rw [shape, same, splitFrom_delimiter complete, later, length]
    cases splitFrom delimiter _ .start rest <;> rfl

theorem splitFrom_rowText (notQuote : delimiter ≠ '"') (some : cells ≠ [])
    (formed : ∀ cell ∈ cells, cell.WellFormed delimiter) (column : Nat) :
    splitFrom delimiter column .start (rowText delimiter cells) =
      .ok (cells.map Cell.value) := by
  have parts := List.dropLast_concat_getLast some
  have last := formed _ (List.getLast_mem some)
  have others : ∀ cell ∈ cells.dropLast, cell.WellFormed delimiter :=
    fun cell member => formed cell (List.dropLast_subset cells member)
  obtain ⟨field, complete, same⟩ := @splitFrom_cell _ [] _ notQuote last nofun
    (column + (begun delimiter cells.dropLast).length)
  rw [List.append_nil] at same
  rw [← parts, rowText_append, splitFrom_begun notQuote others, same, splitFrom, complete,
    List.map_append]
  rfl

theorem splitFields_rowText (notQuote : delimiter ≠ '"') (some : cells ≠ [])
    (formed : ∀ cell ∈ cells, cell.WellFormed delimiter) :
    splitFields delimiter (String.ofList (rowText delimiter cells)) =
      .ok (cells.map Cell.value) := by
  rw [splitFields, String.toList_ofList]
  exact splitFrom_rowText notQuote some formed 1

end

end Rollup.Table
