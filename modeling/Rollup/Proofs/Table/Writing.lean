import Rollup.Proofs.Table.Lines

/-! How a table may be written.  It is written record by record: blank lines, the cells, each bare
or in quotes, with delimiters between them, and a line break, which only the last record may lack.
Main statement: under the rules for bare cells every record ends outside quotes, keeps its line
feeds inside them, is not blank, and means the values that were written. -/

namespace Rollup.Table

open Text

/-- How a value is written: as it is, or in quotes with padding around them. -/
inductive Style where
  | bare
  | quoted (before after : List Char)
  deriving DecidableEq, Repr

structure Entry where
  value : String
  style : Style
  deriving DecidableEq, Repr

namespace Entry

def cell (entry : Entry) : Cell :=
  match entry.style with
  | .bare => .bare entry.value.toList
  | .quoted before after => .quoted before entry.value.toList after

/-- Quotes protect any value.  Without them it holds neither the delimiter nor part of a line
break, does not begin with a quote, and is not blank at either end. -/
def Allowed (delimiter : Char) (entry : Entry) : Prop :=
  match entry.style with
  | .bare =>
    delimiter ∉ entry.value.toList ∧ '\r' ∉ entry.value.toList ∧ '\n' ∉ entry.value.toList ∧
      entry.value.toList.head? ≠ some '"' ∧
      entry.value.toList.head?.any isBlank = false ∧
      entry.value.toList.getLast?.any isBlank = false
  | .quoted before after => Padding delimiter before ∧ Padding delimiter after

instance (delimiter : Char) : (entry : Entry) → Decidable (entry.Allowed delimiter)
  | ⟨_, .bare⟩ => inferInstanceAs (Decidable (_ ∧ _))
  | ⟨_, .quoted _ _⟩ => inferInstanceAs (Decidable (_ ∧ _))

end Entry

def isLineBlank (c : Char) : Bool := c = ' ' || c = '\t' || c = '\x0C' || c = '\r'

def BlankLine (delimiter : Char) (cs : List Char) : Prop :=
  ∀ c ∈ cs, isLineBlank c = true ∧ c ≠ delimiter

instance (delimiter : Char) (cs : List Char) : Decidable (BlankLine delimiter cs) :=
  List.decidableBAll _ cs

/-- One record with the blank lines in front of it and the line break behind it. -/
structure Line where
  blanks : List (List Char × LineBreak) := []
  entries : List Entry
  terminator : LineBreak := .lineFeed

def LineBreak.text : LineBreak → List Char
  | .lineFeed => ['\n']
  | .carriageReturnLineFeed => ['\r', '\n']

namespace Line

def cells (line : Line) : List Cell := line.entries.map Entry.cell

def values (line : Line) : List String := line.entries.map Entry.value

def lead (line : Line) : List Char := line.blanks.flatMap fun blank => blank.1 ++ blank.2.text

/-- A single cell that is bare and empty would be a blank line itself. -/
structure Allowed (delimiter : Char) (line : Line) : Prop where
  blanks : ∀ blank ∈ line.blanks, BlankLine delimiter blank.1
  some : line.entries ≠ []
  entries : ∀ entry ∈ line.entries, entry.Allowed delimiter
  seen : line.entries ≠ [⟨"", .bare⟩]

instance (delimiter : Char) (line : Line) : Decidable (line.Allowed delimiter) :=
  decidable_of_iff
    ((∀ blank ∈ line.blanks, BlankLine delimiter blank.1) ∧ line.entries ≠ [] ∧
      (∀ entry ∈ line.entries, entry.Allowed delimiter) ∧ line.entries ≠ [⟨"", .bare⟩])
    ⟨fun ⟨blanks, filled, entries, seen⟩ => ⟨blanks, filled, entries, seen⟩,
      fun allowed => ⟨allowed.blanks, allowed.some, allowed.entries, allowed.seen⟩⟩

end Line

/-- The text of a table, whose last record has its line break or has lost it. -/
def tableText (delimiter : Char) (ended : Bool) : List Line → List Char
  | [] => []
  | line :: rest =>
    let terminator := if rest.isEmpty && !ended then [] else line.terminator.text
    line.lead ++ (rowText delimiter line.cells ++ (terminator ++ tableText delimiter ended rest))

def Line.bytes (delimiter : UInt8) (line : Line) : List UInt8 :=
  Utf8.encode (String.ofList (rowText (charOf delimiter) line.cells))

def tableBytes (delimiter : UInt8) (ended : Bool) (lines : List Line) : List UInt8 :=
  Utf8.encode (String.ofList (tableText (charOf delimiter) ended lines))

theorem trimEnd_of_last {cs : List Char} (last : cs.getLast?.any isBlank = false) :
    trimEnd cs = cs := by
  by_cases some : cs = []
  · subst some
    rfl
  · rw [List.getLast?_eq_some_getLast some] at last
    rw [← List.dropLast_concat_getLast some]
    exact trimEnd_append_of_last _ _ last

theorem dropWhile_of_head {cs : List Char} (head : cs.head?.any isBlank = false) :
    cs.dropWhile isPaddingChar = cs := by
  cases cs with
  | nil => rfl
  | cons c rest =>
    have ink : isBlank c = false := head
    apply List.dropWhile_cons_of_neg
    intro padding
    rw [isBlank_of_isPaddingChar c padding] at ink
    cases ink

namespace Entry.Allowed

variable {delimiter : Char} {entry : Entry}

theorem formed (allowed : entry.Allowed delimiter) : entry.cell.WellFormed delimiter := by
  obtain ⟨value, style⟩ := entry
  cases style with
  | bare =>
    obtain ⟨absent, -, -, unquoted, head, -⟩ := allowed
    refine ⟨absent, ?_⟩
    rwa [dropWhile_of_head head]
  | quoted before after => exact allowed

theorem value_cell (allowed : entry.Allowed delimiter) : entry.cell.value = entry.value := by
  obtain ⟨value, style⟩ := entry
  cases style with
  | bare =>
    obtain ⟨-, -, -, -, head, last⟩ := allowed
    calc
      String.ofList (trimEnd (value.toList.dropWhile isPaddingChar))
        = String.ofList (trimEnd value.toList) := by rw [dropWhile_of_head head]
      _ = String.ofList value.toList := by rw [trimEnd_of_last last]
      _ = value := String.ofList_toList
  | quoted before after => exact String.ofList_toList

theorem flat (allowed : entry.Allowed delimiter) : entry.cell.Flat := by
  obtain ⟨value, style⟩ := entry
  cases style with
  | bare => exact allowed.2.2.1
  | quoted before after => trivial

theorem getLast?_text (allowed : entry.Allowed delimiter) :
    entry.cell.text.getLast? ≠ some '\r' := by
  obtain ⟨value, style⟩ := entry
  intro last
  cases style with
  | bare => exact allowed.2.1 (List.mem_of_getLast? last)
  | quoted before after =>
    have shape : (Entry.mk value (.quoted before after)).cell.text =
        (before ++ '"' :: doubled value.toList) ++ '"' :: after := by
      simp [Entry.cell, Cell.text]
    have final := List.getLast?_eq_some_getLast (List.cons_ne_nil '"' after)
    rw [shape, List.getLast?_append, final, Option.some_or, ← final] at last
    rcases List.mem_cons.mp (List.mem_of_getLast? last) with same | member
    · exact absurd same (by decide)
    · exact absurd (allowed.2 '\r' member).1 (by decide)

end Entry.Allowed

theorem encode_lineBreak (terminator : LineBreak) :
    Utf8.encode (String.ofList terminator.text) = terminator.bytes := by
  cases terminator <;> decide

theorem getLast?_rowText {delimiter : Char} {cells : List Cell}
    (notReturn : delimiter ≠ '\r') (kept : ∀ cell ∈ cells, cell.text.getLast? ≠ some '\r') :
    (rowText delimiter cells).getLast? ≠ some '\r' := by
  induction cells with
  | nil => exact nofun
  | cons cell others ih =>
    cases others with
    | nil => exact kept cell List.mem_cons_self
    | cons next more =>
      have later := ih fun other member => kept other (List.mem_cons_of_mem cell member)
      rw [rowText, List.getLast?_append, List.getLast?_cons, Option.some_or]
      cases final : (rowText delimiter (next :: more)).getLast? with
      | none => simpa using notReturn
      | some c => simpa [final] using later

theorem Line.forall_cells {line : Line} {property : Cell → Prop} :
    (∀ cell ∈ line.cells, property cell) ↔ ∀ entry ∈ line.entries, property entry.cell :=
  List.forall_mem_map

namespace Line.Allowed

variable {delimiter : UInt8} {line : Line}

theorem cells_ne_nil (allowed : line.Allowed (charOf delimiter)) : line.cells ≠ [] := by
  simpa [Line.cells] using allowed.some

theorem values_cells (allowed : line.Allowed (charOf delimiter)) :
    line.cells.map Cell.value = line.values := by
  rw [Line.cells, Line.values, List.map_map]
  apply List.map_congr_left
  intro entry member
  exact (allowed.entries entry member).value_cell

theorem written (allowed : line.Allowed (charOf delimiter)) :
    Written delimiter line.cells (line.bytes delimiter) := by
  refine ⟨allowed.cells_ne_nil, ?_, rfl⟩
  refine Line.forall_cells.mpr ?_
  intro entry member
  exact (allowed.entries entry member).formed

theorem unbroken (separates : Separates delimiter) (allowed : line.Allowed (charOf delimiter)) :
    Unbroken delimiter (line.bytes delimiter) := by
  rw [allowed.written.unbroken_iff separates]
  refine Line.forall_cells.mpr ?_
  intro entry member
  exact (allowed.entries entry member).flat

theorem whole (separates : Separates delimiter) (allowed : line.Allowed (charOf delimiter))
    (terminator : LineBreak) : Whole (line.bytes delimiter) terminator := by
  intro _
  apply getLast?_encode_ne
  apply getLast?_rowText separates.charOf_ne_carriageReturn
  refine Line.forall_cells.mpr ?_
  intro entry member
  exact (allowed.entries entry member).getLast?_text

theorem decodeRecord_bytes (separates : Separates delimiter)
    (allowed : line.Allowed (charOf delimiter)) :
    decodeRecord delimiter (line.bytes delimiter) = .ok line.values :=
  (decodeRecord_ok_iff separates line.values).mpr
    ⟨line.cells, allowed.written, allowed.values_cells⟩

/-- A written record is not blank: two cells have a delimiter between them, and a single one has
a quote or a character that is not blank. -/
theorem filled (allowed : line.Allowed (charOf delimiter)) :
    isBlankRecord delimiter (line.bytes delimiter) = false := by
  rw [← Bool.not_eq_true, Line.bytes, isBlankRecord_encode_iff]
  intro blank
  match shape : line.entries with
  | [] => exact allowed.some shape
  | first :: second :: more =>
    have member : charOf delimiter ∈ rowText (charOf delimiter) line.cells := by
      simp [Line.cells, shape, rowText]
    exact (blank _ member).1 rfl
  | [⟨value, .quoted before after⟩] =>
    have member : '"' ∈ rowText (charOf delimiter) line.cells := by
      simp [Line.cells, shape, rowText, Entry.cell, Cell.text]
    exact absurd (blank _ member).2 (by decide)
  | [⟨value, .bare⟩] =>
    have text : rowText (charOf delimiter) line.cells = value.toList := by
      simp [Line.cells, shape, rowText, Entry.cell, Cell.text]
    have entry := allowed.entries ⟨value, .bare⟩ (by simp [shape])
    obtain ⟨-, -, -, -, head, -⟩ := entry
    cases cs : value.toList with
    | nil =>
      have empty : value = "" := String.toList_eq_nil_iff.mp cs
      exact allowed.seen (by rw [shape, empty])
    | cons c rest =>
      have ink : isBlank c = false := by simpa [cs] using head
      have white := (blank c (by simp [text, cs])).2
      rw [isBlank_of_isAsciiBlank c white] at ink
      cases ink

end Line.Allowed

theorem not_lineFeed_of_isLineBlank {c : Char} (blank : isLineBlank c = true) : c ≠ '\n' := by
  rintro rfl
  exact absurd blank (by decide)

theorem isAsciiBlank_of_isLineBlank {c : Char} (blank : isLineBlank c = true) :
    isAsciiBlank c = true := by
  simp only [isLineBlank, Bool.or_eq_true, decide_eq_true_eq] at blank
  rcases blank with ((rfl | rfl) | rfl) | rfl <;> decide

theorem exists_blank_stem {delimiter : UInt8} (separates : Separates delimiter) {blank : List Char}
    (allowed : BlankLine (charOf delimiter) blank) (terminator : LineBreak) :
    ∃ stem, Utf8.encode (String.ofList (blank ++ terminator.text)) = stem ++ [lineFeed] ∧
      lineFeed ∉ stem ∧ isBlankRecord delimiter stem = true := by
  have shape : ∃ cs, blank ++ terminator.text = cs ++ ['\n'] ∧
      BlankLine (charOf delimiter) cs := by
    cases terminator with
    | lineFeed => exact ⟨blank, rfl, allowed⟩
    | carriageReturnLineFeed =>
      refine ⟨blank ++ ['\r'], by simp [LineBreak.text], ?_⟩
      intro c member
      rcases List.mem_append.mp member with before | last
      · exact allowed c before
      · cases List.mem_singleton.mp last
        exact ⟨by decide, separates.charOf_ne_carriageReturn.symm⟩
  obtain ⟨cs, same, white⟩ := shape
  refine ⟨Utf8.encode (String.ofList cs), ?_, ?_, ?_⟩
  · rw [same, Utf8.encode_ofList_append]
    rfl
  · rw [lineFeed_mem_encode_iff]
    exact fun member => not_lineFeed_of_isLineBlank (white '\n' member).1 rfl
  · rw [isBlankRecord_encode_iff]
    intro c member
    exact ⟨(white c member).2, isAsciiBlank_of_isLineBlank (white c member).1⟩

end Rollup.Table
