import Rollup.Proofs.Group.Selection
import Rollup.Proofs.Run.Independence
import Rollup.Proofs.Table.Records

/-! Every record is accounted for.  A run counts rows, records it cannot split, rows that the filter
lets through and the rows of each group, and it reports the bad records one by one.  Main statement:
after a run that succeeds these numbers agree with each other and with the records of its source. -/

namespace Rollup

open Table Rollup.Filter Rollup.Group

/-- Of a successful run: the records behind the header are its rows and its malformed records, the
filtered rows are those of all groups together, and the malformed records are reported in order,
under the numbers from one on, each with the reason for which it could not be split. -/
theorem run_accounts_for_records {settings : Settings} {input : String} {source : Source}
    {analysis : Analysis} (ran : (settings.run input source).result = .ok analysis) :
    ∃ dialect first rest fields filter,
      settings.dialect = .ok dialect ∧
      recordsOf dialect.delimiter (drain dialect.delimiter { source := source }) =
        first :: rest ∧
      decodeRecord dialect.delimiter first = .ok fields ∧
      Filter.compile (dialect.headerOf fields) (settings.filter?.getD "") = .ok filter ∧
      let body := dialect.bodyOf (first :: rest)
      let rows := rowsIn (dialect.headerOf fields) dialect.delimiter body
      let spoiled := spoiledIn dialect.delimiter body
      let told := (settings.run input source).malformed
      analysis.totalRows = analysis.parsedRows + analysis.malformedRows ∧
      analysis.totalRows = body.length ∧
      analysis.parsedRows = rows.length ∧
      analysis.matchedRows = (rows.filter filter.accepts).length ∧
      (analysis.groups.map (·.2.count)).sum = analysis.matchedRows ∧
      told.length = analysis.malformedRows ∧
      told.map (·.ordinal) = List.range' 1 analysis.malformedRows ∧
      (told.map fun report => (report.preview, report.reason)) =
        spoiled.map fun (record, reason) => (preview record, reason) := by
  obtain ⟨dialect, content, spoken, opened, ended⟩ := (settings.run_ok_iff _ _ _).mp ran
  obtain ⟨named, calm, prepared, checked, rfl⟩ := (settings.runOf_ok_iff _ _).mp ended
  obtain ⟨first, rest, fields, records, split, header, rows, skipped⟩ :=
    exists_records_of_content opened named calm
  obtain ⟨-, -, compiled, -⟩ := Settings.prepare_parts checked
  have told : (settings.run input source).malformed = content.course.skipped := by
    rw [Settings.run_of_content spoken opened, Settings.runOf_of_prepared named checked]
    rfl
  rw [header] at compiled rows
  have parsed := congrArg List.length rows
  have malformed := (congrArg List.length skipped).trans (length_reports _ _)
  refine ⟨dialect, first, rest, fields, prepared.filter, spoken, records, split, compiled, rfl,
    ?_, parsed, ?_, Grouping.sum_count_groups _ _, congrArg List.length told, ?_, ?_⟩
  · rw [← length_rowsIn_add_spoiledIn (dialect.headerOf fields) dialect.delimiter, ← parsed,
      ← malformed]
    rfl
  · rw [← rows]
    rfl
  · rw [told, skipped, ordinal_reports, ← malformed]
    rfl
  · rw [told, skipped, told_reports]

/-- Two records that cannot be split, the second behind a blank line and cut at the end of the
input. -/
theorem run_accounts_for_records_open_quote :
    let settings : Settings := { groupBy := ["a"], filter? := some "b != \"2\"" }
    let source : Source :=
      [.bytes (Text.Utf8.encode "a,b\n1,2\n\"x\"y,3\n \n"), .interruption,
        .bytes (Text.Utf8.encode "3,4\n5,\"6\n7,8")]
    ∃ analysis, (settings.run "t.csv" source).result = .ok analysis ∧
      analysis.totalRows = 5 ∧ analysis.parsedRows = 3 ∧ analysis.malformedRows = 2 ∧
      (analysis.groups.map (·.2.count)).sum = analysis.matchedRows ∧
      (settings.run "t.csv" source).malformed.map (·.ordinal) = [1, 2] := by
  intro settings source
  obtain ⟨analysis, ran⟩ : ∃ analysis, (settings.run "t.csv" source).result = .ok analysis :=
    exists_ok_of_toBool (by decide +kernel)
  obtain ⟨dialect, first, rest, fields, filter, spoken, records, split, -, total, body, parsed, -,
    counts, -, ordinals, -⟩ := run_accounts_for_records ran
  obtain rfl : dialect = ⟨0x2C, true⟩ := Except.ok.inj (spoken.symm.trans (by rfl))
  have known : recordsOf 0x2C (drain 0x2C { source := source }) =
      ["a,b", "1,2", "\"x\"y,3", "3,4", "5,\"6", "7,8"].map Text.Utf8.encode := by
    decide +kernel
  have listed := records.symm.trans known
  obtain ⟨rfl, rfl⟩ := List.cons.inj listed
  obtain rfl : fields = ["a", "b"] := Except.ok.inj (split.symm.trans (by rfl))
  have five : analysis.totalRows = 5 := body
  have three : analysis.parsedRows = 3 := parsed.trans (by decide +kernel)
  have two : analysis.malformedRows = 2 := by omega
  exact ⟨analysis, ran, five, three, two, counts, by rw [ordinals, two]; rfl⟩

end Rollup
