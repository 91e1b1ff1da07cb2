import Rollup.Proofs.Run.Outline
import Rollup.Proofs.Table.Scan
import Rollup.Proofs.Table.Steps

/-! A source that fails.  The bytes in front of the failure are read as far as they make complete
lines, the rest of them is dropped, and the failure is told once.  Main statement: header, rows and
reports of such a source are those of its complete lines, the failure is the last item, and no run
succeeds. -/

namespace Rollup

open Table

section

variable {front : Source}

/-- However its bytes are delivered, a source that fails returns its complete lines first. -/
theorem drain_of_failure (delimiter : UInt8) (calm : front.failures = 0) (reason : String)
    (after : Source) :
    ∃ lines, drain delimiter { source := front ++ .failure reason :: after } =
        lines ++ .failure reason :: drain delimiter { source := after } ∧
      (∀ outcome ∈ lines, outcome.IsLine) ∧
      lines.filterMap Outcome.bytes? = openLines delimiter front.unread := by
  obtain ⟨ahead, stop⟩ := Source.before_failure calm reason after
  let feed : Feed := { source := front ++ .failure reason :: after }
  have stopped : feed.stop? = some (reason, after) := stop
  obtain ⟨lines, drained, ended, found⟩ := drain_of_stop delimiter stopped
  exact ⟨lines, drained, ended, found.trans (congrArg (openLines delimiter) ahead)⟩

theorem filled_of_failure (delimiter : UInt8) (calm : front.failures = 0) (reason : String)
    (after : Source) :
    ∃ records, filled delimiter { source := front ++ .failure reason :: after } =
        records ++ .failure reason :: filled delimiter { source := after } ∧
      (∀ outcome ∈ records, outcome.IsRecord) ∧
      (openLines delimiter front.unread).filter (!isBlankRecord delimiter ·) =
        records.filterMap Outcome.bytes? := by
  obtain ⟨lines, drained, ended, found⟩ := drain_of_failure delimiter calm reason after
  refine ⟨lines.filter (Outcome.isFilled delimiter), ?_, ?_, ?_⟩
  · rw [filled, drained, List.filter_append, List.filter_cons_of_pos rfl, filled]
  · intro outcome member
    obtain ⟨bytes, terminator, same⟩ := ended outcome (List.mem_filter.mp member).1
    exact ⟨bytes, .line terminator, same⟩
  · rw [← found]
    exact recordsOf_eq_filterMap delimiter lines

theorem steps_of_failure {rows : Rows} {header : Header} {delimiter : UInt8}
    {records : List (List UInt8)} {failed : TableError}
    (course : rows.course =
      Course.after ⟨[], some failed⟩ (eventsOf header delimiter 0 records)) (count : Nat) :
    let items := (rowsIn header delimiter records).map .ok ++ [.error failed]
    (rows.steps count).map RowStep.item? =
      (List.range count).map (fun place => items[place]?) ∧
    (items.length ≤ count → (rows.steps count).flatMap RowStep.skipped =
      reports 0 (spoiledIn delimiter records)) := by
  have listed : rows.course.rows = rowsIn header delimiter records := by
    rw [course, rows_after_eventsOf]
    exact List.append_nil _
  have told : rows.course.skipped = reports 0 (spoiledIn delimiter records) := by
    rw [course, skipped_after_eventsOf]
    exact List.append_nil _
  have yielded : rows.course.items =
      (rowsIn header delimiter records).map .ok ++ [.error failed] := by
    rw [Course.items, listed, course]
    rfl
  refine ⟨yielded ▸ rows.item_steps count, ?_⟩
  intro long
  rw [List.length_append, List.length_map] at long
  rw [← told]
  apply rows.skipped_steps
  rw [listed]
  exact long

theorem run_ne_ok_of_failure (settings : Settings) (input : String) (calm : front.failures = 0)
    (reason : String) (after : Source) (analysis : Analysis) :
    (settings.run input (front ++ .failure reason :: after)).result ≠ .ok analysis := by
  intro ran
  obtain ⟨dialect, content, -, opened, ended⟩ := (settings.run_ok_iff _ _ _).mp ran
  obtain ⟨-, finished, -⟩ := (settings.runOf_ok_iff _ _).mp ended
  obtain ⟨records, parts, -, -⟩ := filled_of_failure dialect.delimiter calm reason after
  have all := isRecord_of_content opened (finished_not_mem_filled _ _) finished
  obtain ⟨bytes, ending, same⟩ := all (.failure reason) (by simp [parts])
  cases same

/-- Of a source that fails: its complete lines are returned, and nothing but the failure for the
bytes behind them; without a record among the lines the table does not open, and a first record
that cannot be split is no header; otherwise the items are the rows of the records, then the failure
and nothing more, and the reports are those of the other records; and no run succeeds. -/
theorem rows_of_failing_source (dialect : Dialect) (input : String) (calm : front.failures = 0)
    (reason : String) (after : Source) :
    let delimiter := dialect.delimiter
    let source := front ++ .failure reason :: after
    let failed := TableError.unreadable input reason
    (∃ lines, drain delimiter { source := source } =
        lines ++ .failure reason :: drain delimiter { source := after } ∧
      (∀ outcome ∈ lines, outcome.IsLine) ∧
      lines.filterMap Outcome.bytes? = openLines delimiter front.unread) ∧
    (match (openLines delimiter front.unread).filter (!isBlankRecord delimiter ·) with
      | [] => Rows.ofSource dialect input source = .error failed
      | first :: rest =>
        match decodeRecord delimiter first with
        | .error spoiled => Rows.ofSource dialect input source = .error (.badHeader input spoiled)
        | .ok fields =>
          ∃ rows, Rows.ofSource dialect input source = .ok rows ∧
            rows.header = dialect.headerOf fields ∧
            let body := dialect.bodyOf (first :: rest)
            let items := (rowsIn rows.header delimiter body).map .ok ++ [.error failed]
            ∀ count,
              (rows.steps count).map RowStep.item? =
                (List.range count).map (fun place => items[place]?) ∧
              (items.length ≤ count → (rows.steps count).flatMap RowStep.skipped =
                reports 0 (spoiledIn delimiter body))) ∧
    ∀ (settings : Settings) (analysis : Analysis),
      (settings.run input source).result ≠ .ok analysis := by
  intro delimiter source failed
  refine ⟨drain_of_failure delimiter calm reason after, ?_, fun settings =>
    run_ne_ok_of_failure settings input calm reason after⟩
  obtain ⟨records, parts, all, found⟩ := filled_of_failure delimiter calm reason after
  rw [found]
  match records with
  | [] =>
    refine (ofSource_error_iff dialect input source failed).mpr ?_
    rw [parts]
    rfl
  | outcome :: rest =>
    obtain ⟨⟨bytes, ending, rfl⟩, others⟩ := List.forall_mem_cons.mp all
    show match decodeRecord delimiter bytes with | .error _ => _ | .ok _ => _
    cases split : decodeRecord delimiter bytes with
    | error spoiled =>
      refine (ofSource_error_iff dialect input source _).mpr ?_
      rw [parts, List.cons_append, contentOf_record, split]
    | ok fields =>
      have content := contentOf_records input split ending others
        (.failure reason :: filled delimiter { source := after })
      rw [← parts] at content
      obtain ⟨rows, opened, held⟩ := (exists_rows_iff dialect input source _).mpr content
      obtain ⟨-, header, course⟩ := Content.mk.inj held
      refine ⟨rows, opened, header, ?_⟩
      rw [← header] at course
      exact fun count => steps_of_failure course count

/-- The source fails inside an open quote, and what can be read afterwards would close it. -/
theorem rows_of_failing_source_open_quote :
    let front : Source :=
      [.bytes (Text.Utf8.encode "a,b\r\n1,2\n \n\"x\"y,3\n4,\"5"), .interruption,
        .bytes (Text.Utf8.encode "\n6,7\n8")]
    let source := front ++ .failure "reset" :: [.bytes (Text.Utf8.encode "\",9\n")]
    ∃ rows, Rows.ofSource {} "t.csv" source = .ok rows ∧
      (rows.steps 4).map RowStep.item? =
        [some (.ok (.ofValues ⟨["a", "b"]⟩ ["1", "2"])),
          some (.error (.unreadable "t.csv" "reset")), none, none] ∧
      (rows.steps 4).flatMap RowStep.skipped = [⟨1, "\"x\"y,3", .textAfterQuote 'y' 4⟩] := by
  intro front source
  have known : (openLines 0x2C front.unread).filter (!isBlankRecord 0x2C ·) =
      ["a,b", "1,2", "\"x\"y,3"].map Text.Utf8.encode := by
    decide +kernel
  have split : decodeRecord 0x2C (Text.Utf8.encode "a,b") = .ok ["a", "b"] := by rfl
  have calm : front.failures = 0 := by decide
  obtain ⟨-, opened, -⟩ := rows_of_failing_source {} "t.csv" calm "reset"
    [.bytes (Text.Utf8.encode "\",9\n")]
  dsimp only at opened
  rw [known] at opened
  simp only [List.map_cons, split] at opened
  obtain ⟨rows, opened, header, steps⟩ := opened
  have columns : rows.header = ⟨["a", "b"]⟩ := header
  have items : rowsIn rows.header 0x2C (["1,2", "\"x\"y,3"].map Text.Utf8.encode) =
      [.ofValues ⟨["a", "b"]⟩ ["1", "2"]] := by
    rw [columns]
    rfl
  obtain ⟨yielded, told⟩ := steps 4
  refine ⟨rows, opened, ?_, ?_⟩
  · rw [yielded]
    show (List.range 4).map (fun place => ((rowsIn rows.header 0x2C
      (["1,2", "\"x\"y,3"].map Text.Utf8.encode)).map _ ++ _)[place]?) = _
    rw [items]
    rfl
  · rw [told]
    · decide +kernel
    · show ((rowsIn rows.header 0x2C (["1,2", "\"x\"y,3"].map Text.Utf8.encode)).map _ ++ _).length
        ≤ 4
      rw [items]
      decide

end

end Rollup
