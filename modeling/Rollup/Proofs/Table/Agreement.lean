import Rollup.Proofs.Table.Decoding

/-! Records and fields agree on quotes.  What one call returns holds no line feed in the open, and
it ends inside an open quote exactly when the call says so, which is the same question the
splitting of the record asks.  Main statement: in a whole drain a record that ended in the open is
never refused for an open quote, one that did not is always refused, and a record that is read
keeps its line feeds in quoted cells. -/

namespace Rollup.Table

theorem Paired.around_lineBreak {first second : List UInt8} {terminator : LineBreak}
    (paired : Paired quote (first ++ terminator.bytes ++ second)) :
    Paired quote first ∧ Paired quote second := by
  have parts : ∃ between, Paired quote (first ++ between ++ lineFeed :: second) ∧
      (between = [] ∨ between = [carriageReturn]) := by
    cases terminator with
    | lineFeed => exact ⟨[], by simpa [LineBreak.bytes] using paired, .inl rfl⟩
    | carriageReturnLineFeed =>
      exact ⟨[carriageReturn], by simpa [LineBreak.bytes] using paired, .inr rfl⟩
  obtain ⟨between, whole, shape⟩ := parts
  obtain ⟨left, right⟩ := whole.split (by decide)
  refine ⟨?_, right⟩
  rcases shape with rfl | rfl
  · rwa [List.append_nil] at left
  · exact (left.split (by decide)).1

theorem OpenField.front {delimiter : UInt8} {bytes before inside more : List UInt8}
    {terminator : LineBreak}
    (opened : OpenField delimiter bytes before (inside ++ terminator.bytes ++ more)) :
    OpenField delimiter (before ++ quote :: inside) before inside :=
  ⟨rfl, opened.start, opened.paired.around_lineBreak.1⟩

theorem OpenField.modeOf_eq_quoted {delimiter : UInt8} {bytes before inside : List UInt8}
    (opened : OpenField delimiter bytes before inside) (notQuote : delimiter ≠ quote) :
    modeOf delimiter bytes = .quoted := by
  have start : Mode.start.after (byteMarks delimiter) before = .start := opened.start
  have opening : Mode.start.next (byteMarks delimiter) quote = .quoted := by
    simp [Mode.next, byteMarks, Ne.symm notQuote]
  calc
    modeOf delimiter bytes =
        (Mode.start.after (byteMarks delimiter) before).after (byteMarks delimiter)
          (quote :: inside) := by rw [modeOf, opened.parts, Mode.after_append]
    _ = Mode.quoted.after (byteMarks delimiter) inside := by
      rw [start, Mode.after_cons, opening]
    _ = .quoted := opened.paired.after_quoted (byteMarks delimiter)

theorem Unbroken.front {delimiter : UInt8} {first second : List UInt8}
    (unbroken : Unbroken delimiter (first ++ second)) : Unbroken delimiter first := by
  rw [Unbroken, enclosed_append_iff] at unbroken
  exact unbroken.1

namespace Reading

variable {delimiter : UInt8} {feed : Feed} {result : Outcome × Feed} {bytes : List UInt8}
  {ending : Ending}

theorem unbroken (reading : Reading delimiter feed result)
    (returned : result.1 = .record bytes ending) : Unbroken delimiter bytes := by
  cases reading with
  | line _ unbroken =>
    cases returned
    exact unbroken
  | failure => cases returned
  | finished => cases returned
  | input _ _ _ unbroken =>
    cases returned
    exact unbroken
  | unterminated _ _ unbroken =>
    cases returned
    exact unbroken
  | @cut before inside _ terminator _ _ _ unbroken opened =>
    cases returned
    rw [opened.parts, List.append_assoc inside, ← List.cons_append, ← List.append_assoc]
      at unbroken
    exact unbroken.front

theorem modeOf_eq_quoted_iff (reading : Reading delimiter feed result)
    (notQuote : delimiter ≠ quote) (returned : result.1 = .record bytes ending) :
    modeOf delimiter bytes = .quoted ↔ ∃ cut, ending = .openQuote cut := by
  cases reading with
  | line _ _ outside =>
    cases returned
    exact iff_of_false outside nofun
  | failure => cases returned
  | finished => cases returned
  | input _ _ _ _ outside =>
    cases returned
    exact iff_of_false outside nofun
  | unterminated _ _ _ opened =>
    cases returned
    exact iff_of_true (opened.modeOf_eq_quoted notQuote) ⟨_, rfl⟩
  | cut _ _ _ opened =>
    cases returned
    exact iff_of_true (opened.front.modeOf_eq_quoted notQuote) ⟨_, rfl⟩

end Reading

theorem exists_call_of_mem_drain {delimiter : UInt8} {feed : Feed} {outcome : Outcome}
    (returned : outcome ∈ drain delimiter feed) :
    ∃ origin, (nextRecord delimiter origin).1 = outcome := by
  fun_induction drain delimiter feed with
  | case1 feed step more lighter ih =>
    rcases List.mem_cons.mp returned with same | later
    · exact ⟨feed, same.symm⟩
    · exact ih later
  | case2 => cases returned

section

variable {delimiter : UInt8} {cells : List Cell} {bytes : List UInt8}

theorem Written.lineFeed_inside (separates : Separates delimiter)
    (written : Written delimiter cells bytes) (unbroken : Unbroken delimiter bytes) :
    ∀ cell ∈ cells, '\n' ∈ cell.text → ∃ before content after,
      cell = .quoted before content after ∧ '\n' ∉ before ∧ '\n' ∉ after := by
  intro cell member feed
  have flat := (written.unbroken_iff separates).mp unbroken cell member
  cases cell with
  | bare raw => exact absurd feed flat
  | quoted before content after =>
    obtain ⟨leading, trailing⟩ := written.formed _ member
    exact ⟨before, content, after, rfl, leading.lineFeed_not_mem, trailing.lineFeed_not_mem⟩

theorem mem_of_mem_trimEnd {c : Char} {cs : List Char} (member : c ∈ Text.trimEnd cs) :
    c ∈ cs := by
  have inside := List.dropWhile_subset Text.isBlank (List.mem_reverse.mp member)
  exact List.mem_reverse.mp inside

theorem Written.bare_value_flat (separates : Separates delimiter)
    (written : Written delimiter cells bytes) (unbroken : Unbroken delimiter bytes) :
    ∀ raw, .bare raw ∈ cells → '\n' ∉ (Cell.bare raw).value.toList := by
  intro raw member feed
  have flat : '\n' ∉ raw := (written.unbroken_iff separates).mp unbroken _ member
  rw [Cell.value, String.toList_ofList] at feed
  exact flat (List.dropWhile_subset _ (mem_of_mem_trimEnd feed))

end

/-- For every record of a drain: one that ended in the open is not refused for an open quote, one
that ended inside quotes is refused, and one that is read holds its line feeds in quoted cells,
whichever way it is written as cells. -/
theorem drain_agrees_with_decodeRecord {settings : Settings} {delimiter : UInt8}
    (accepted : settings.delimiterByte = .ok delimiter) {feed : Feed} {bytes : List UInt8}
    {ending : Ending} (returned : .record bytes ending ∈ drain delimiter feed) :
    ((∃ terminator, ending = .line terminator) ∨ ending = .input →
      ∀ column, decodeRecord delimiter bytes ≠ .error (.unterminatedQuote column)) ∧
    ((∃ cut, ending = .openQuote cut) →
      ∃ reason, decodeRecord delimiter bytes = .error reason) ∧
    ∀ values, decodeRecord delimiter bytes = .ok values →
      (∃ cells, Written delimiter cells bytes) ∧
      ∀ cells, Written delimiter cells bytes →
        cells.map Cell.value = values ∧
        (∀ cell ∈ cells, '\n' ∈ cell.text → ∃ before content after,
          cell = .quoted before content after ∧ '\n' ∉ before ∧ '\n' ∉ after) ∧
        ∀ raw, .bare raw ∈ cells → '\n' ∉ (Cell.bare raw).value.toList := by
  have separates := separates_of_delimiterByte accepted
  obtain ⟨origin, call⟩ := exists_call_of_mem_drain returned
  have reading := nextRecord_reading delimiter origin
  have mode := reading.modeOf_eq_quoted_iff separates.not_quote call
  refine ⟨?_, ?_, ?_⟩
  · intro outside column read
    obtain ⟨cut, rfl⟩ := mode.mp (modeOf_of_unterminated separates read)
    rcases outside with ⟨_, other⟩ | other <;> cases other
  · intro inside
    cases read : decodeRecord delimiter bytes with
    | error reason => exact ⟨reason, rfl⟩
    | ok values =>
      obtain ⟨cells, written, -⟩ := (decodeRecord_ok_iff separates values).mp read
      exact absurd (mode.mpr inside) (written.modeOf_ne_quoted separates)
  · intro values read
    have unbroken := reading.unbroken call
    obtain ⟨known, written, -⟩ := (decodeRecord_ok_iff separates values).mp read
    refine ⟨⟨known, written⟩, ?_⟩
    intro cells written
    refine ⟨?_, written.lineFeed_inside separates unbroken,
      written.bare_value_flat separates unbroken⟩
    have again := (decodeRecord_ok_iff separates _).mpr ⟨cells, written, rfl⟩
    rw [read] at again
    exact (Except.ok.inj again).symm

/-- A line break inside quotes stays in its record, and a quote that is never closed refuses the
record it is in. -/
theorem drain_agrees_with_decodeRecord_comma :
    let feed := Feed.ofBytes (Text.Utf8.encode "a,\"b\nc\"\r\n\"d")
    let closed := Text.Utf8.encode "a,\"b\nc\""
    let opened := Text.Utf8.encode "\"d"
    ({} : Settings).delimiterByte = .ok 0x2C ∧
    .record closed (.line .carriageReturnLineFeed) ∈ drain 0x2C feed ∧
    .record opened (.openQuote none) ∈ drain 0x2C feed ∧
    (∀ column, decodeRecord 0x2C closed ≠ .error (.unterminatedQuote column)) ∧
    ∃ reason, decodeRecord 0x2C opened = .error reason := by
  intro feed closed opened
  have accepted : ({} : Settings).delimiterByte = .ok 0x2C := by rfl
  have first : .record closed (.line .carriageReturnLineFeed) ∈ drain 0x2C feed := by
    decide +kernel
  have second : .record opened (.openQuote none) ∈ drain 0x2C feed := by
    decide +kernel
  have read := drain_agrees_with_decodeRecord accepted first
  have refused := drain_agrees_with_decodeRecord accepted second
  exact ⟨accepted, first, second, read.1 (.inl ⟨_, rfl⟩), refused.2.1 ⟨_, rfl⟩⟩

end Rollup.Table
