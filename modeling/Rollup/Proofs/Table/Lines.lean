import Rollup.Proofs.Table.Agreement
import Rollup.Table.Rows

/-! What a call returns, read off the bytes ahead.  The first line feed in the open ends the
record, and no other call can do with the feed what this one does.  Main statement: blank lines in
front of a record leave no trace, whichever line breaks end them. -/

namespace Rollup.Table

section

variable {delimiter : UInt8} {feed : Feed}

theorem open_lineFeed_unique {first second more others : List UInt8}
    (same : first ++ lineFeed :: more = second ++ lineFeed :: others)
    (unbroken : Unbroken delimiter first) (outside : modeOf delimiter first ≠ .quoted)
    (unbroken' : Unbroken delimiter second) (outside' : modeOf delimiter second ≠ .quoted) :
    first = second ∧ more = others := by
  rcases List.append_eq_append_iff.mp same with ⟨between, longer, tail⟩ | ⟨between, longer, tail⟩
  · cases between with
    | nil =>
      rw [List.append_nil] at longer
      exact ⟨longer.symm, (List.cons.inj tail).2⟩
    | cons byte between =>
      obtain ⟨rfl, -⟩ := List.cons.inj tail
      exact absurd (unbroken' first between longer) outside
  · cases between with
    | nil =>
      rw [List.append_nil] at longer
      exact ⟨longer, (List.cons.inj tail).2.symm⟩
    | cons byte between =>
      obtain ⟨rfl, -⟩ := List.cons.inj tail
      exact absurd (unbroken second between longer) outside'

theorem exists_stem {bytes : List UInt8} {terminator : LineBreak} (whole : Whole bytes terminator)
    (unbroken : Unbroken delimiter bytes) (outside : modeOf delimiter bytes ≠ .quoted) :
    ∃ stem, bytes ++ terminator.bytes = stem ++ [lineFeed] ∧
      dropCarriageReturn stem = (bytes, terminator) ∧
      Unbroken delimiter stem ∧ modeOf delimiter stem ≠ .quoted := by
  cases terminator with
  | lineFeed =>
    have kept : bytes.getLast? ≠ some carriageReturn := whole rfl
    exact ⟨bytes, rfl, if_neg kept, unbroken, outside⟩
  | carriageReturnLineFeed =>
    have differs : carriageReturn ≠ quote := by decide
    refine ⟨bytes ++ [carriageReturn], by simp [LineBreak.bytes], ?_, ?_, ?_⟩
    · simp [dropCarriageReturn]
    · rw [Unbroken, enclosed_append_iff]
      exact ⟨unbroken, enclosed_of_not_mem _ (by decide) _⟩
    · rw [modeOf, Mode.after_append]
      exact Mode.next_ne_quoted (byteMarks delimiter) outside differs

theorem nextRecord_of_lineFeed {stem rest : List UInt8}
    (ahead : feed.ahead = stem ++ lineFeed :: rest) (unbroken : Unbroken delimiter stem)
    (outside : modeOf delimiter stem ≠ .quoted) :
    ∃ after : Feed, after.ahead = rest ∧ after.stop? = feed.stop? ∧
      nextRecord delimiter feed =
        (.record (dropCarriageReturn stem).1 (.line (dropCarriageReturn stem).2), after) := by
  have broken : ¬Unbroken delimiter feed.ahead :=
    fun whole => outside (whole stem rest ahead)
  have reading := nextRecord_reading delimiter feed
  generalize nextRecord delimiter feed = result at reading ⊢
  cases reading with
  | @line bytes terminator after read unbroken' outside' whole =>
    obtain ⟨stem', parts, drop, stemUnbroken, stemOutside⟩ := exists_stem whole unbroken' outside'
    have both : stem' ++ lineFeed :: after.ahead = stem ++ lineFeed :: rest := calc
      stem' ++ lineFeed :: after.ahead = stem' ++ [lineFeed] ++ after.ahead := by simp
      _ = bytes ++ terminator.bytes ++ after.ahead := by rw [parts]
      _ = feed.ahead := read.ahead.symm
      _ = stem ++ lineFeed :: rest := ahead
    obtain ⟨rfl, same⟩ :=
      open_lineFeed_unique both stemUnbroken stemOutside unbroken outside
    refine ⟨after, same, read.stop, ?_⟩
    rw [drop]
  | failure whole => exact absurd whole broken
  | finished empty =>
    rw [empty] at ahead
    simp at ahead
  | input _ _ _ whole => exact absurd whole broken
  | unterminated _ _ whole => exact absurd whole broken
  | cut _ _ whole => exact absurd whole broken

theorem nextRecord_of_line {bytes rest : List UInt8} {terminator : LineBreak}
    (ahead : feed.ahead = bytes ++ terminator.bytes ++ rest) (whole : Whole bytes terminator)
    (unbroken : Unbroken delimiter bytes) (outside : modeOf delimiter bytes ≠ .quoted) :
    ∃ after : Feed, after.ahead = rest ∧ after.stop? = feed.stop? ∧
      nextRecord delimiter feed = (.record bytes (.line terminator), after) := by
  obtain ⟨stem, parts, drop, stemUnbroken, stemOutside⟩ := exists_stem whole unbroken outside
  rw [parts, List.append_assoc, List.singleton_append] at ahead
  have read := nextRecord_of_lineFeed ahead stemUnbroken stemOutside
  rwa [drop] at read

theorem nextRecord_of_input (notQuote : delimiter ≠ quote) (calm : feed.stop? = none)
    (some : feed.ahead ≠ []) (unbroken : Unbroken delimiter feed.ahead)
    (outside : modeOf delimiter feed.ahead ≠ .quoted) :
    ∃ after : Feed, after.ahead = [] ∧ after.stop? = feed.stop? ∧
      nextRecord delimiter feed = (.record feed.ahead .input, after) := by
  have reading := nextRecord_reading delimiter feed
  generalize nextRecord delimiter feed = result at reading ⊢
  cases reading with
  | @line bytes terminator after read unbroken' outside' whole =>
    obtain ⟨stem, parts, -, -, stemOutside⟩ := exists_stem whole unbroken' outside'
    rw [read.ahead, parts, List.append_assoc, List.singleton_append] at unbroken
    exact absurd (unbroken stem after.ahead rfl) stemOutside
  | failure _ stop => exact absurd (calm.symm.trans stop) nofun
  | finished empty => exact absurd empty some
  | @input after _ _ read => exact ⟨after, read.of_all.2, read.stop, rfl⟩
  | unterminated _ _ _ opened => exact absurd (opened.modeOf_eq_quoted notQuote) outside
  | cut _ _ _ opened => exact absurd (opened.modeOf_eq_quoted notQuote) outside

theorem nextRecord_of_nothing (calm : feed.stop? = none) (empty : feed.ahead = []) :
    ∃ after, nextRecord delimiter feed = (.finished, after) := by
  have reading := nextRecord_reading delimiter feed
  generalize nextRecord delimiter feed = result at reading ⊢
  cases reading with
  | @line bytes terminator after read =>
    have nothing := read.ahead.symm.trans empty
    cases terminator <;> simp [LineBreak.bytes] at nothing
  | failure _ stop =>
    rw [calm] at stop
    cases stop
  | @finished after => exact ⟨after, rfl⟩
  | input some => exact absurd empty some
  | unterminated _ _ _ opened =>
    have nothing := opened.parts.symm.trans empty
    simp at nothing
  | cut _ _ _ opened =>
    have nothing := opened.parts.symm.trans empty
    simp at nothing

theorem nextFilled_eq : nextFilled delimiter feed =
    match nextRecord delimiter feed with
    | (.record bytes ending, rest) =>
      if isBlankRecord delimiter bytes then nextFilled delimiter rest
      else (.record bytes ending, rest)
    | stopped => stopped := by
  rw [nextFilled]
  dsimp only
  generalize nextRecord delimiter feed = step
  obtain ⟨outcome, rest⟩ := step
  cases outcome <;> rfl

theorem nextFilled_of_filled {bytes : List UInt8} {ending : Ending} {rest : Feed}
    (read : nextRecord delimiter feed = (.record bytes ending, rest))
    (filled : isBlankRecord delimiter bytes = false) :
    nextFilled delimiter feed = (.record bytes ending, rest) := by
  rw [nextFilled_eq, read]
  exact if_neg (by simp [filled])

theorem findFields_eq (before : Nat) : findFields delimiter before feed =
    match nextFilled delimiter feed with
    | (.record bytes _, rest) =>
      match decodeRecord delimiter bytes with
      | .ok values => (.fields values rest, [])
      | .error reason =>
        let later := findFields delimiter (before + 1) rest
        (later.1, ⟨before + 1, preview bytes, reason⟩ :: later.2)
    | (.failure reason, _) => (.failure reason, [])
    | (.finished, _) => (.finished, []) := by
  rw [findFields]
  dsimp only
  generalize nextFilled delimiter feed = step
  obtain ⟨outcome, rest⟩ := step
  cases outcome <;> rfl

theorem isBlankRecord_append (first second : List UInt8) :
    isBlankRecord delimiter (first ++ second) =
      (isBlankRecord delimiter first && isBlankRecord delimiter second) :=
  List.all_append

theorem isBlankRecord_encode_iff (cs : List Char) :
    isBlankRecord delimiter (Text.Utf8.encode (String.ofList cs)) = true ↔
      ∀ c ∈ cs, c ≠ charOf delimiter ∧ Text.isAsciiBlank c = true := by
  rw [Text.Utf8.encode_ofList]
  induction cs with
  | nil => simp [isBlankRecord]
  | cons c rest ih =>
    have head : isBlankRecord delimiter (String.utf8EncodeChar c) = true ↔
        c ≠ charOf delimiter ∧ Text.isAsciiBlank c = true := by
      by_cases low : c.toNat < 0x80
      · have same : UInt8.ofNat c.toNat = delimiter ↔ c = charOf delimiter := by
          rw [ofNat_toNat_eq_iff low, ← toNat_charOf, Char.toNat_inj]
        have code := Text.Utf8.toNat_ofNat_char low
        simp [Text.Utf8.encodeChar_ascii low, isBlankRecord, Text.isAsciiBlank, same, code]
      · have high : 0x80 ≤ c.toNat := Nat.not_lt.mp low
        have inked : ∀ n, 0x80 ≤ n → Text.isAsciiBlankCode n = false := by
          intro n large
          simp only [Text.isAsciiBlankCode, Bool.or_eq_false_iff, beq_eq_false_iff_ne]
          omega
        refine iff_of_false ?_ ?_
        · intro blank
          obtain ⟨byte, member⟩ := List.exists_mem_of_ne_nil _
            (@String.utf8EncodeChar_ne_nil c)
          have far := Text.Utf8.high_of_mem_encodeChar high member
          have both := List.all_eq_true.mp blank byte member
          simp [inked _ far] at both
        · rintro ⟨-, blank⟩
          rw [Text.isAsciiBlank, inked _ high] at blank
          cases blank
    rw [List.flatMap_cons, isBlankRecord_append, Bool.and_eq_true, head, ih,
      List.forall_mem_cons]

/-- A blank line leaves no trace, also when its last carriage return goes with the line break. -/
theorem nextFilled_of_blankLine {stem rest : List UInt8}
    (ahead : feed.ahead = stem ++ lineFeed :: rest) (flat : lineFeed ∉ stem)
    (blank : isBlankRecord delimiter stem = true) :
    ∃ after : Feed, after.ahead = rest ∧ after.stop? = feed.stop? ∧
      nextFilled delimiter feed = nextFilled delimiter after := by
  have blanks := List.all_eq_true.mp blank
  have unquoted : quote ∉ stem := by
    intro member
    have both := blanks quote member
    rw [Bool.and_eq_true] at both
    exact absurd both.2 (by decide)
  have outside : modeOf delimiter stem ≠ .quoted :=
    (paired_of_not_mem unquoted).after_ne_quoted (byteMarks delimiter) nofun
  obtain ⟨after, left, still, read⟩ :=
    nextRecord_of_lineFeed ahead (enclosed_of_not_mem _ flat _) outside
  have kept : isBlankRecord delimiter (dropCarriageReturn stem).1 = true := by
    apply List.all_eq_true.mpr
    intro byte member
    exact blanks byte (mem_of_mem_dropCarriageReturn member)
  refine ⟨after, left, still, ?_⟩
  rw [nextFilled_eq, read]
  exact if_pos kept

end

end Rollup.Table
