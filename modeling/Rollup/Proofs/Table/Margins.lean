import Mathlib.Data.List.Forall2
import Rollup.Proofs.Table.Splitting
import Rollup.Proofs.Text.Trimming

/-! The margins of bare cells.  Behind a bare cell every blank is cut, in front of it only padding
is, so a cell is trimmed on both sides exactly when no other blank stands in front of its first
character that is not blank.  Main statement: which bare cells of a record are trimmed, and that
respacing cells that are trimmed does not change a value. -/

namespace Rollup.Table

open Text

namespace Cell

/-- In front of what a bare cell says, if it says anything, stands nothing but padding. -/
def Flush : Cell → Prop
  | bare raw => Halts isBlank (raw.dropWhile isPaddingChar) ∨ trim raw = []
  | quoted _ _ _ => True

instance : (cell : Cell) → Decidable cell.Flush
  | bare _ => inferInstanceAs (Decidable (_ ∨ _))
  | quoted _ _ _ => inferInstanceAs (Decidable True)

/-- Two cells that differ at most in the blanks around a bare one. -/
inductive Respaced : Cell → Cell → Prop where
  | bare {raw other : List Char} (same : trim raw = trim other) :
      Respaced (.bare raw) (.bare other)
  | quoted (before content after : List Char) :
      Respaced (.quoted before content after) (.quoted before content after)

end Cell

theorem trim_dropWhile_padding (raw : List Char) :
    trim (raw.dropWhile isPaddingChar) = trim raw := by
  induction raw with
  | nil => rfl
  | cons c rest ih =>
    by_cases padding : isPaddingChar c = true
    · have blank := isBlank_of_isPaddingChar c padding
      rw [List.dropWhile_cons_of_pos padding, ih, trim, trim, trimStart, trimStart,
        List.dropWhile_cons_of_pos blank]
    · rw [List.dropWhile_cons_of_neg padding]

namespace Cell

theorem toList_value_bare (raw : List Char) :
    (bare raw).value.toList = trimEnd (raw.dropWhile isPaddingChar) :=
  String.toList_ofList

theorem halts_reverse_value_bare (raw : List Char) :
    Halts isBlank (bare raw).value.toList.reverse := by
  rw [toList_value_bare, trimEnd, List.reverse_reverse]
  exact halts_dropWhile isBlank _

theorem halts_value_bare_iff (raw : List Char) :
    Halts isBlank (bare raw).value.toList ↔ (bare raw).Flush := by
  rw [toList_value_bare, halts_trimEnd_iff, trim_dropWhile_padding]
  rfl

theorem value_bare_eq_trim_iff (raw : List Char) :
    (bare raw).value.toList = trim raw ↔ (bare raw).Flush := by
  rw [← halts_value_bare_iff, toList_value_bare, ← trimEnd_eq_trim_iff, trim_dropWhile_padding]

theorem Respaced.value_eq {first second : Cell} (respaced : Respaced first second)
    (flush : first.Flush) (flush' : second.Flush) : first.value = second.value := by
  cases respaced with
  | @bare raw other same =>
    apply String.toList_inj.mp
    rw [(value_bare_eq_trim_iff raw).mpr flush, (value_bare_eq_trim_iff other).mpr flush', same]
  | quoted before content after => rfl

end Cell

theorem values_of_respaced {cells others : List Cell}
    (respaced : List.Forall₂ Cell.Respaced cells others) (flush : ∀ cell ∈ cells, cell.Flush)
    (flush' : ∀ other ∈ others, other.Flush) : cells.map Cell.value = others.map Cell.value := by
  induction respaced with
  | nil => rfl
  | cons first later ih =>
    obtain ⟨here, there⟩ := List.forall_mem_cons.mp flush
    obtain ⟨here', there'⟩ := List.forall_mem_cons.mp flush'
    rw [List.map_cons, List.map_cons, first.value_eq here here', ih there there']

structure WrittenAs (delimiter : Char) (cells : List Cell) (record : String) : Prop where
  nonempty : cells ≠ []
  formed : ∀ cell ∈ cells, cell.WellFormed delimiter
  text : record.toList = rowText delimiter cells

theorem WrittenAs.splitFields {delimiter : Char} {cells : List Cell} {record : String}
    (written : WrittenAs delimiter cells record) (notQuote : delimiter ≠ '"') :
    splitFields delimiter record = .ok (cells.map Cell.value) := by
  have split := splitFields_rowText notQuote written.nonempty written.formed
  rwa [← written.text, String.ofList_toList] at split

theorem exists_writtenAs {delimiter : Char} {record : String} {values : List String}
    (read : splitFields delimiter record = .ok values) :
    ∃ cells, WrittenAs delimiter cells record := by
  have split := splitFields_split delimiter record
  rw [read] at split
  cases split with
  | @fields cells some formed same => exact ⟨cells, some, formed, same⟩

/-- The values of a record are those of its cells.  A bare cell gives a value that no blank ends,
and that is its trimmed text, and begins with no blank, exactly if the cell is flush.  Records
whose cells are flush and differ only in the blanks around bare ones have the same values. -/
theorem splitFields_margins (delimiter : Char) (notQuote : delimiter ≠ '"') (record : String)
    (values : List String) (read : splitFields delimiter record = .ok values) :
    (∃ cells, WrittenAs delimiter cells record) ∧
    ∀ cells, WrittenAs delimiter cells record →
      cells.map Cell.value = values ∧
      (∀ raw, .bare raw ∈ cells →
        let value := (Cell.bare raw).value.toList
        Halts isBlank value.reverse ∧
        (value = trim raw ↔ (Cell.bare raw).Flush) ∧
        (Halts isBlank value ↔ (Cell.bare raw).Flush)) ∧
      ∀ others other, WrittenAs delimiter others other →
        List.Forall₂ Cell.Respaced cells others →
        (∀ cell ∈ cells, cell.Flush) → (∀ cell ∈ others, cell.Flush) →
        splitFields delimiter other = .ok values := by
  refine ⟨exists_writtenAs read, fun cells written => ?_⟩
  have same : cells.map Cell.value = values :=
    Except.ok.inj ((written.splitFields notQuote).symm.trans read)
  refine ⟨same, fun raw _ => ?_, fun others other written' respaced flush flush' => ?_⟩
  · exact ⟨Cell.halts_reverse_value_bare raw, Cell.value_bare_eq_trim_iff raw,
      Cell.halts_value_bare_iff raw⟩
  · rw [written'.splitFields notQuote, ← values_of_respaced respaced flush flush', same]

/-- A wide blank behind a cell, padding in front of it, blanks and nothing else, and quoted content
whose blanks stay; and the same cells with other blanks around the bare ones. -/
theorem splitFields_margins_respaced :
    let record := " \ta\u3000,\" q \" ,\u00a0 "
    let other := "a\r\n,\" q \" ,"
    ',' ≠ '"' ∧ splitFields ',' record = .ok ["a", " q ", ""] ∧
      splitFields ',' other = .ok ["a", " q ", ""] := by
  intro record other
  have notQuote : ',' ≠ '"' := by decide
  have read : splitFields ',' record = .ok ["a", " q ", ""] := by decide
  let quoted := Cell.quoted [] [' ', 'q', ' '] [' ']
  let cells := [.bare [' ', '\t', 'a', '\u3000'], quoted, .bare ['\u00a0', ' ']]
  let others := [.bare ['a', '\r', '\n'], quoted, .bare []]
  have written : WrittenAs ',' cells record := ⟨by decide, by decide, by decide⟩
  have written' : WrittenAs ',' others other := ⟨by decide, by decide, by decide⟩
  have respaced : List.Forall₂ Cell.Respaced cells others :=
    .cons (.bare (by decide)) (.cons (.quoted _ _ _) (.cons (.bare (by decide)) .nil))
  obtain ⟨-, told⟩ := splitFields_margins ',' notQuote record _ read
  exact ⟨notQuote, read,
    (told cells written).2.2 others other written' respaced (by decide) (by decide)⟩

/-- A blank that is no padding is cut behind a cell but kept in front of it, and so the record
without these blanks has other values. -/
theorem splitFields_keeps_indent :
    let record := "x,\u00a0a\u00a0"
    let raw := ['\u00a0', 'a', '\u00a0']
    WrittenAs ',' [.bare ['x'], .bare raw] record ∧
      splitFields ',' record = .ok ["x", "\u00a0a"] ∧
      "\u00a0a".toList ≠ trim raw ∧ ¬Halts isBlank "\u00a0a".toList ∧
      splitFields ',' "x,a" = .ok ["x", "a"] :=
  ⟨⟨by decide, by decide, by decide⟩, by decide, by decide, by decide, by decide⟩

end Rollup.Table
