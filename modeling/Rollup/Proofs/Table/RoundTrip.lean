import Rollup.Proofs.Table.Writing

/-! Reading undoes writing.  The next record that is not blank is the next one written, so each
step over the rows yields the values of one line and leaves the text of the others.  Main
statement: whatever choices were made in writing, opening the table gives the header as it was
written and reading it gives the rows, with no record passed over. -/

namespace Rollup.Table

open Text

section

variable {delimiter : UInt8} {feed : Feed}

theorem nextFilled_of_blanks (separates : Separates delimiter)
    {blanks : List (List Char × LineBreak)} {rest : List UInt8}
    (allowed : ∀ blank ∈ blanks, BlankLine (charOf delimiter) blank.1)
    (ahead : feed.ahead =
      Utf8.encode (String.ofList (blanks.flatMap fun blank => blank.1 ++ blank.2.text)) ++ rest) :
    ∃ after : Feed, after.ahead = rest ∧ after.stop? = feed.stop? ∧
      nextFilled delimiter feed = nextFilled delimiter after := by
  induction blanks generalizing feed with
  | nil => exact ⟨feed, ahead, rfl, rfl⟩
  | cons blank more ih =>
    have first := allowed blank List.mem_cons_self
    obtain ⟨stem, same, flat, white⟩ := exists_blank_stem separates first blank.2
    rw [List.flatMap_cons, Utf8.encode_ofList_append, same, List.append_assoc,
      List.append_assoc, List.singleton_append] at ahead
    obtain ⟨between, left, still, skipped⟩ := nextFilled_of_blankLine ahead flat white
    obtain ⟨after, last, calm, passed⟩ :=
      ih (fun other member => allowed other (List.mem_cons_of_mem blank member)) left
    exact ⟨after, last, calm.trans still, skipped.trans passed⟩

theorem nextFilled_of_line (separates : Separates delimiter) (calm : feed.stop? = none)
    {ended : Bool} {line : Line} {rest : List Line} (allowed : line.Allowed (charOf delimiter))
    (ahead : feed.ahead = tableBytes delimiter ended (line :: rest)) :
    ∃ ending, ∃ after : Feed,
      after.ahead = tableBytes delimiter ended rest ∧ after.stop? = none ∧
      nextFilled delimiter feed = (.record (line.bytes delimiter) ending, after) := by
  have filled := allowed.filled
  have unbroken := allowed.unbroken separates
  have outside := allowed.written.modeOf_ne_quoted separates
  rw [tableBytes, tableText, Utf8.encode_ofList_append] at ahead
  obtain ⟨first, left, still, skipped⟩ := nextFilled_of_blanks separates allowed.blanks ahead
  have quiet : first.stop? = none := still.trans calm
  rw [Utf8.encode_ofList_append, Utf8.encode_ofList_append] at left
  by_cases final : (rest.isEmpty && !ended) = true
  · rw [if_pos final] at left
    rw [Bool.and_eq_true, List.isEmpty_iff] at final
    obtain ⟨rfl, -⟩ := final
    have nothing : Utf8.encode (String.ofList []) = [] := rfl
    have all : first.ahead = line.bytes delimiter := by
      rwa [tableText, nothing, List.append_nil, List.append_nil] at left
    have some : first.ahead ≠ [] := by
      rw [all]
      intro empty
      rw [empty] at filled
      cases filled
    rw [← all] at unbroken outside filled ⊢
    obtain ⟨after, gone, stop, read⟩ :=
      nextRecord_of_input separates.not_quote quiet some unbroken outside
    exact ⟨_, after, gone, stop.trans quiet, skipped.trans (nextFilled_of_filled read filled)⟩
  · rw [if_neg final, encode_lineBreak, ← List.append_assoc] at left
    obtain ⟨after, gone, stop, read⟩ :=
      nextRecord_of_line left (allowed.whole separates _) unbroken outside
    exact ⟨_, after, gone, stop.trans quiet, skipped.trans (nextFilled_of_filled read filled)⟩

end

namespace Rows

def drain (rows : Rows) : List (Except TableError Row) × Rows :=
  match read : rows.next.item? with
  | none => ([], rows.next.rest)
  | some item =>
    have := rows.weight_next (by simp [read])
    let later := drain rows.next.rest
    (item :: later.1, later.2)
termination_by rows.weight

theorem drain_eq (rows : Rows) : rows.drain =
    match rows.next.item? with
    | none => ([], rows.next.rest)
    | some item => (item :: rows.next.rest.drain.1, rows.next.rest.drain.2) := by
  rw [drain]
  dsimp only
  generalize rows.next.item? = item?
  cases item? <;> rfl

theorem pass_eq {σ : Type} (onRow : σ → Row → σ) (onMalformed : σ → Malformed → σ) (state : σ)
    (rows : Rows) : rows.pass onRow onMalformed state =
    let seen := rows.next.skipped.foldl onMalformed state
    match rows.next.item? with
    | none => ⟨seen, none, rows.next.rest⟩
    | some (.error reason) => ⟨seen, some reason, rows.next.rest⟩
    | some (.ok row) => rows.next.rest.pass onRow onMalformed (onRow seen row) := by
  rw [pass]
  dsimp only
  generalize rows.next.item? = item?
  match item? with
  | none => rfl
  | some (.error reason) => rfl
  | some (.ok row) => rfl

theorem fold_eq {σ : Type} (onRow : σ → Row → σ) (onMalformed : σ → Malformed → σ) (state : σ)
    (rows : Rows) : rows.fold onRow onMalformed state =
    let seen := rows.next.skipped.foldl onMalformed state
    match rows.next.item? with
    | none => (seen, none)
    | some (.error reason) => (seen, some reason)
    | some (.ok row) => rows.next.rest.fold onRow onMalformed (onRow seen row) := by
  rw [fold, pass_eq]
  dsimp only
  generalize rows.next.item? = item?
  match item? with
  | none => rfl
  | some (.error reason) => rfl
  | some (.ok row) => rfl

/-- Rows whose feed holds the text of some lines and has nothing else to give. -/
structure Holds (ended : Bool) (lines : List Line) (rows : Rows) (feed : Feed) : Prop where
  waiting : rows.pending? = none
  opened : rows.feed? = some feed
  calm : feed.stop? = none
  ahead : feed.ahead = tableBytes rows.delimiter ended lines

variable {ended : Bool} {line : Line} {lines : List Line} {rows : Rows} {feed : Feed}

def rowOf (rows : Rows) (line : Line) : Row := Row.ofValues rows.header line.values

theorem Holds.next_line (holds : rows.Holds ended (line :: lines) feed)
    (separates : Separates rows.delimiter) (allowed : line.Allowed (charOf rows.delimiter)) :
    ∃ after : Feed,
      let left : Rows := { rows with feed? := some after, rowsRead := rows.rowsRead + 1 }
      left.Holds ended lines after ∧
        rows.next = { item? := some (.ok (rows.rowOf line)), rest := left } := by
  obtain ⟨ending, after, left, still, read⟩ :=
    nextFilled_of_line separates holds.calm allowed holds.ahead
  have decoded := allowed.decodeRecord_bytes separates
  have found : findFields rows.delimiter rows.malformed feed = (.fields line.values after, []) := by
    rw [findFields_eq, read]
    simp only [decoded]
  refine ⟨after, ⟨holds.waiting, rfl, still, left⟩, ?_⟩
  simp only [next, holds.waiting, holds.opened, found, List.length_nil, Nat.add_zero, emit, rowOf]

theorem Holds.next_end (holds : rows.Holds ended [] feed) :
    rows.next = { item? := none, rest := rows.close } := by
  obtain ⟨after, finished⟩ :
      ∃ after, nextRecord rows.delimiter feed = (.finished, after) :=
    nextRecord_of_nothing holds.calm holds.ahead
  have found : findFields rows.delimiter rows.malformed feed = (.finished, []) := by
    rw [findFields_eq, nextFilled_eq, finished]
  simp only [next, holds.waiting, holds.opened, found, List.length_nil, Nat.add_zero, close]

theorem Holds.drain (holds : rows.Holds ended lines feed) (separates : Separates rows.delimiter)
    (allowed : ∀ line ∈ lines, line.Allowed (charOf rows.delimiter)) :
    rows.drain.1 = (lines.map rows.rowOf).map .ok ∧ rows.drain.2.malformed = rows.malformed := by
  induction lines generalizing rows feed with
  | nil =>
    rw [drain_eq, holds.next_end]
    exact ⟨rfl, rfl⟩
  | cons line others ih =>
    obtain ⟨after, later, step⟩ := holds.next_line separates (allowed line List.mem_cons_self)
    obtain ⟨items, count⟩ :=
      ih later separates fun other member => allowed other (List.mem_cons_of_mem line member)
    rw [drain_eq, step]
    exact ⟨congrArg (_ :: ·) items, count⟩

/-- Whoever folds over the rows sees every row, and no record that was passed over. -/
theorem Holds.fold {σ : Type} (onRow : σ → Row → σ) (onMalformed : σ → Malformed → σ) (state : σ)
    (holds : rows.Holds ended lines feed) (separates : Separates rows.delimiter)
    (allowed : ∀ line ∈ lines, line.Allowed (charOf rows.delimiter)) :
    rows.fold onRow onMalformed state = ((lines.map rows.rowOf).foldl onRow state, none) := by
  induction lines generalizing rows feed state with
  | nil =>
    rw [fold_eq, holds.next_end]
    rfl
  | cons line others ih =>
    obtain ⟨after, later, step⟩ := holds.next_line separates (allowed line List.mem_cons_self)
    have rest := ih (onRow state (rows.rowOf line)) later separates fun other member =>
      allowed other (List.mem_cons_of_mem line member)
    rw [fold_eq, step]
    exact rest

end Rows

theorem Rows.ofSource_of_lines {delimiter : UInt8} (separates : Separates delimiter)
    {ended : Bool} {header : Line} {lines : List Line} {source : Source}
    (allowed : header.Allowed (charOf delimiter))
    (calm : ({ source := source } : Feed).stop? = none)
    (ahead : ({ source := source } : Feed).ahead = tableBytes delimiter ended (header :: lines))
    (input : String) :
    ∃ feed : Feed,
      let rows : Rows :=
        { input := input, header := ⟨header.values⟩, delimiter := delimiter, feed? := some feed }
      rows.Holds ended lines feed ∧
        ofSource { delimiter := delimiter } input source = .ok rows := by
  obtain ⟨ending, after, left, still, read⟩ := nextFilled_of_line separates calm allowed ahead
  have decoded := allowed.decodeRecord_bytes separates
  refine ⟨after, ⟨rfl, rfl, still, left⟩, ?_⟩
  simp only [ofSource, read, decoded, if_true]

/-- However a table was written, reading it gives its header, its rows in their order, and nothing
else. -/
theorem read_written_table {settings : Settings} {delimiter : UInt8}
    (accepted : settings.delimiterByte = .ok delimiter) {header : Line} {lines : List Line}
    (allowed : ∀ line ∈ header :: lines, line.Allowed (charOf delimiter))
    (aligned : ∀ line ∈ lines, line.entries.length = header.entries.length)
    {source : Source} (calm : source.failures = 0) {ended : Bool}
    (written : source.unread = tableBytes delimiter ended (header :: lines))
    (input : String) :
    ∃ (rows : Rows) (items : List Row),
      Rows.ofSource { delimiter := delimiter, hasHeader := true } input source = .ok rows ∧
      rows.header = ⟨header.values⟩ ∧
      rows.drain.1 = items.map .ok ∧
      items.map Row.values = lines.map Line.values ∧
      (∀ item ∈ items, item.header = ⟨header.values⟩) ∧
      rows.drain.2.malformed = 0 ∧
      ∀ {σ : Type} (onRow : σ → Row → σ) (onMalformed : σ → Malformed → σ) (state : σ),
        rows.fold onRow onMalformed state = (items.foldl onRow state, none) := by
  have separates := separates_of_delimiterByte accepted
  have still : ({ source := source } : Feed).stop? = none :=
    (Source.stop?_eq_none_iff source).mpr calm
  rw [Source.unread_eq_ahead source still] at written
  obtain ⟨head, others⟩ := List.forall_mem_cons.mp allowed
  obtain ⟨feed, holds, opened⟩ := Rows.ofSource_of_lines separates head still written input
  obtain ⟨items, count⟩ := holds.drain separates others
  refine ⟨_, _, opened, rfl, items, ?_, ?_, count, ?_⟩
  · rw [List.map_map]
    apply List.map_congr_left
    intro line member
    apply fitted_of_length
    rw [Line.values, Header.size, Line.values, List.length_map, List.length_map]
    exact aligned line member
  · intro item member
    obtain ⟨line, -, rfl⟩ := List.mem_map.mp member
    rfl
  · intro σ onRow onMalformed state
    exact holds.fold onRow onMalformed state separates others

/-- Blanks in front of the header, padding around quotes, a line break inside them, and no line
break at the end. -/
theorem read_written_table_comma :
    let header : Line :=
      ⟨[(['\r', ' '], .carriageReturnLineFeed)],
        [⟨"id", .bare⟩, ⟨"note", .quoted [' '] ['\t']⟩], .carriageReturnLineFeed⟩
    let line : Line := ⟨[], [⟨"1", .bare⟩, ⟨"\"a\",\r\nb ", .quoted [] []⟩], .lineFeed⟩
    let source : Source :=
      [.interruption, .bytes (Utf8.encode "\r \r\nid, \"note\"\t\r\n1,\"\"\"a\"\",\r\nb \"")]
    ({} : Settings).delimiterByte = .ok 0x2C ∧
    (∀ written ∈ [header, line], written.Allowed (charOf 0x2C)) ∧
    (∀ written ∈ [line], written.entries.length = header.entries.length) ∧
    source.failures = 0 ∧
    source.unread = tableBytes 0x2C false [header, line] ∧
    ∃ (rows : Rows) (items : List Row),
      Rows.ofSource { delimiter := 0x2C, hasHeader := true } "t.csv" source = .ok rows ∧
      rows.header = ⟨["id", "note"]⟩ ∧
      rows.drain.1 = items.map .ok ∧
      items.map Row.values = [["1", "\"a\",\r\nb "]] ∧
      rows.drain.2.malformed = 0 := by
  intro header line source
  have accepted : ({} : Settings).delimiterByte = .ok 0x2C := by rfl
  have allowed : ∀ written ∈ [header, line], written.Allowed (charOf 0x2C) := by
    decide +kernel
  have aligned : ∀ written ∈ [line], written.entries.length = header.entries.length := by
    decide
  have calm : source.failures = 0 := by decide
  have written : source.unread = tableBytes 0x2C false [header, line] := by decide +kernel
  obtain ⟨rows, items, opened, names, drained, values, -, count, -⟩ :=
    read_written_table accepted allowed aligned calm written "t.csv"
  exact ⟨accepted, allowed, aligned, calm, written, rows, items, opened, names, drained, values,
    count⟩

end Rollup.Table
