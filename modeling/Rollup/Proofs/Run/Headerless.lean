import Rollup.Proofs.Run.Insertion

/-! A table without a header row against the same table under a row of made-up names.  The line of
names is one written record that means these names, so behind it the table with a header is read
from where the other one starts, and the row that waited there is the first row here.  Main
statement: both runs are the same, whatever follows the first record. -/

namespace Rollup

open Table Text

namespace Table

/-- A line of made-up names, each in quotes. -/
def nameLine (delimiter : Char) (count : Nat) : String :=
  joined (String.singleton delimiter)
    ((List.range count).map fun i => "\"column_" ++ Decimal.natural i ++ "\"") ++ "\n"

def namesWritten (count : Nat) : Line where
  entries := (Header.synthesized count).names.map (⟨·, .quoted [] []⟩)

theorem values_namesWritten (count : Nat) :
    (namesWritten count).values = (Header.synthesized count).names := by
  rw [Line.values, namesWritten, List.map_map]
  exact List.map_id _

theorem namesWritten_allowed {count : Nat} (some : count ≠ 0) (delimiter : Char) :
    (namesWritten count).Allowed delimiter := by
  have names : (Header.synthesized count).names ≠ [] := by simpa [Header.synthesized] using some
  refine ⟨List.forall_mem_nil _, ?_, ?_, ?_⟩
  · simpa [namesWritten] using names
  · intro entry member
    obtain ⟨name, -, rfl⟩ := List.mem_map.mp member
    exact ⟨List.forall_mem_nil _, List.forall_mem_nil _⟩
  · intro bare
    have style := congrArg (List.map Entry.style) bare
    rw [namesWritten, List.map_map] at style
    cases of : (Header.synthesized count).names with
    | nil => exact names of
    | cons name others => simp [of] at style

theorem not_quote_of_mem_name {i : Nat} {c : Char}
    (member : c ∈ ("column_" ++ Decimal.natural i).toList) : c ≠ '"' := by
  rw [String.toList_append, List.mem_append] at member
  rintro rfl
  rcases member with letter | digit
  · exact absurd letter (by decide)
  · rw [Decimal.natural, String.toList_ofList] at digit
    have decimal := Nat.isDigit_of_mem_toDigits (by decide) (by decide) digit
    exact absurd decimal (by decide)

theorem doubled_of_not_mem {content : List Char} (plain : ∀ c ∈ content, c ≠ '"') :
    doubled content = content := by
  induction content with
  | nil => rfl
  | cons c rest ih =>
    obtain ⟨other, others⟩ := List.forall_mem_cons.mp plain
    rw [doubled_cons other, ih others]

theorem rowText_eq_intercalate (delimiter : Char) (cells : List Cell) :
    rowText delimiter cells = [delimiter].intercalate (cells.map Cell.text) := by
  induction cells with
  | nil => rfl
  | cons cell others ih =>
    cases others with
    | nil => exact List.intercalate_singleton.symm
    | cons next more =>
      rw [rowText, ih]
      simp only [List.map_cons, List.intercalate_cons_cons, List.append_assoc]
      rfl

theorem encode_nameLine (delimiter : UInt8) (count : Nat) :
    Utf8.encode (nameLine (charOf delimiter) count) =
      (namesWritten count).bytes delimiter ++ [lineFeed] := by
  have cells : (namesWritten count).cells.map Cell.text =
      (List.range count).map fun i => ("\"column_" ++ Decimal.natural i ++ "\"").toList := by
    simp only [Line.cells, namesWritten, Header.synthesized, List.map_map]
    apply List.map_congr_left
    intro i _
    have same := doubled_of_not_mem fun c => not_quote_of_mem_name (i := i) (c := c)
    simp only [Function.comp_apply, Entry.cell, Cell.text, same]
    simp
  have text : nameLine (charOf delimiter) count =
      String.ofList (rowText (charOf delimiter) (namesWritten count).cells ++ ['\n']) := by
    apply String.toList_injective
    rw [nameLine, joined, String.toList_append, String.toList_intercalate, List.map_map,
      String.toList_ofList, rowText_eq_intercalate, cells]
    simp [Function.comp_def]
  rw [text, Utf8.encode_ofList_append, Line.bytes]
  rfl

/-- A source under the line of names is read from its start once the names are known. -/
theorem contentOf_under_names {delimiter : UInt8} (separates : Separates delimiter) {count : Nat}
    (some : count ≠ 0) (input : String) (source : Source) :
    let named := .bytes (Utf8.encode (nameLine (charOf delimiter) count)) :: source
    let header := Header.synthesized count
    contentOf ⟨delimiter, true⟩ input (filled delimiter { source := named }) =
      .ok ⟨input, header,
        courseOf input header delimiter 0 (filled delimiter { source := source })⟩ := by
  intro named header
  have allowed := namesWritten_allowed some (charOf delimiter)
  have ahead : Feed.ahead { source := named } =
      (namesWritten count).bytes delimiter ++ LineBreak.lineFeed.bytes ++ source.ahead :=
    congrArg (· ++ source.ahead) (encode_nameLine delimiter count)
  obtain ⟨after, left, still, read⟩ := nextRecord_of_line ahead (allowed.whole separates _)
    (allowed.unbroken separates) (allowed.written.modeOf_ne_quoted separates)
  have first := nextFilled_of_filled read allowed.filled
  have alike : after.Alike { source := source } := ⟨left, still⟩
  rw [filled_eq, first]
  dsimp only [contentOf]
  rw [allowed.decodeRecord_bytes separates, values_namesWritten, filled, alike.drain_same]
  rfl

theorem contentOf_headerless {delimiter : UInt8} (input : String) {source : Source}
    {first : List UInt8} {ending : Ending} {rest : Feed} {fields : List String}
    (read : nextFilled delimiter { source := source } = (.record first ending, rest))
    (split : decodeRecord delimiter first = .ok fields) :
    let header := Header.synthesized fields.length
    contentOf ⟨delimiter, false⟩ input (filled delimiter { source := source }) =
      .ok ⟨input, header,
        courseOf input header delimiter 0 (filled delimiter { source := source })⟩ := by
  intro header
  rw [filled_eq, read]
  dsimp only [contentOf]
  rw [split]
  rfl

end Table

/-- Whatever the first record that is not blank holds, provided that it can be split. -/
theorem run_headerless {settings : Settings} {delimiter : UInt8}
    (accepted : settings.delimiterByte = .ok delimiter) (headless : settings.hasHeader = false)
    (input : String) {source : Source} {first : List UInt8} {ending : Ending} {rest : Feed}
    {fields : List String}
    (read : nextFilled delimiter { source := source } = (.record first ending, rest))
    (split : decodeRecord delimiter first = .ok fields) :
    settings.run input source =
      { settings with hasHeader := true }.run input
        (.bytes (Utf8.encode (nameLine settings.delimiter fields.length)) :: source) := by
  have separates := separates_of_delimiterByte accepted
  have some : fields.length ≠ 0 := by
    obtain ⟨cells, written, rfl⟩ := (decodeRecord_ok_iff separates fields).mp split
    simpa using written.some
  have spoken : settings.dialect = .ok ⟨delimiter, false⟩ := by
    rw [Settings.dialect_of_delimiterByte accepted, headless]
  have spoken' : { settings with hasHeader := true }.dialect = .ok ⟨delimiter, true⟩ :=
    Settings.dialect_of_delimiterByte (by exact accepted)
  have char : charOf delimiter = settings.delimiter := by
    rw [charOf, Settings.toNat_delimiterByte accepted, Char.ofNat_toNat]
  have opened := contentOf_headerless input read split
  have opened' := contentOf_under_names separates some input source
  rw [char] at opened'
  rw [Settings.run_of_content spoken opened, Settings.run_of_content spoken' opened']
  rfl

/-- Blank lines first, then rows that are short, that have a surplus field and that cannot be
split, under a filter. -/
theorem run_headerless_ragged_rows :
    let settings : Settings :=
      { groupBy := ["column_0"], aggregations := ["count", "max(column_1)"],
        filter? := some "column_1 != \"\"", hasHeader := false, delimiter := ';' }
    let table := Text.Utf8.encode " \r\n\nb;2\na\n\"x\"y;1\nb;10;z"
    ∃ analysis, (settings.run "t.csv" [.bytes table]).result = .ok analysis ∧
      analysis.parsedRows = 3 ∧ analysis.matchedRows = 2 ∧ analysis.malformedRows = 1 ∧
      settings.run "t.csv" [.bytes table] = { settings with hasHeader := true }.run "t.csv"
        [.bytes (Utf8.encode "\"column_0\";\"column_1\"\n"), .bytes table] := by
  intro settings table
  have accepted : settings.delimiterByte = .ok 0x3B := by rfl
  have first : (nextFilled 0x3B { source := [.bytes table] }).1 =
      .record [0x62, 0x3B, 0x32] (.line .lineFeed) := by decide +kernel
  have split : decodeRecord 0x3B [0x62, 0x3B, 0x32] = .ok ["b", "2"] := by rfl
  have line : Utf8.encode (nameLine settings.delimiter 2) =
      Utf8.encode "\"column_0\";\"column_1\"\n" := by decide +kernel
  have same := run_headerless accepted rfl "t.csv" (Prod.ext first rfl) split
  rw [List.length_cons, List.length_singleton, line] at same
  obtain ⟨analysis, ran⟩ : ∃ analysis,
      (settings.run "t.csv" [.bytes table]).result = .ok analysis :=
    exists_ok_of_toBool (by decide +kernel)
  have counts : (settings.run "t.csv" [.bytes table]).result.toOption.map
      (fun analysis => (analysis.parsedRows, analysis.matchedRows, analysis.malformedRows)) =
      some (3, 2, 1) := by decide +kernel
  rw [ran] at counts
  simp only [Except.toOption, Option.map_some, Option.some.injEq, Prod.mk.injEq] at counts
  exact ⟨analysis, ran, counts.1, counts.2.1, counts.2.2, same⟩

end Rollup
