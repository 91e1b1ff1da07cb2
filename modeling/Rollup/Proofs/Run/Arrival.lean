import Rollup.Proofs.Run.Outline
import Rollup.Proofs.Table.Arrival
import Rollup.Proofs.Table.Steps

/-! Cuts between reads and interruptions are not seen.  Two tables are alike when they differ in
their feeds only and the feeds are alike; each step yields the same from both and leaves both
alike.  Main statement: a source without failures gives the same records, the same header, the same
steps over the rows and the same run as all of its bytes in one read. -/

namespace Rollup

open Table

namespace Table

inductive Found.Alike : Found → Found → Prop where
  | fields (values : List String) {rest rest' : Feed} (left : rest.Alike rest') :
      Alike (.fields values rest) (.fields values rest')
  | failure (reason : String) : Alike (.failure reason) (.failure reason)
  | finished : Alike .finished .finished

namespace Feed.Alike

theorem nextFilled_same {first second : Feed} (alike : first.Alike second) (delimiter : UInt8) :
    (nextFilled delimiter first).1 = (nextFilled delimiter second).1 ∧
      (nextFilled delimiter first).2.Alike (nextFilled delimiter second).2 := by
  obtain ⟨same, left⟩ := alike.nextRecord_same delimiter
  have lighter := nextRecord_weight delimiter first
  rw [nextFilled_eq, nextFilled_eq]
  generalize nextRecord delimiter first = step at same left lighter ⊢
  generalize nextRecord delimiter second = step' at same left ⊢
  obtain ⟨outcome, rest⟩ := step
  obtain ⟨outcome', rest'⟩ := step'
  obtain rfl : outcome = outcome' := same
  cases outcome with
  | finished => exact ⟨rfl, left⟩
  | failure reason => exact ⟨rfl, left⟩
  | record bytes ending =>
    have smaller : rest.weight < first.weight := lighter nofun
    dsimp only
    split
    · exact nextFilled_same left delimiter
    · exact ⟨rfl, left⟩
termination_by first.weight

theorem findFields_same {first second : Feed} (alike : first.Alike second) (delimiter : UInt8)
    (before : Nat) :
    (findFields delimiter before first).1.Alike (findFields delimiter before second).1 ∧
      (findFields delimiter before first).2 = (findFields delimiter before second).2 := by
  obtain ⟨same, left⟩ := alike.nextFilled_same delimiter
  have lighter := nextFilled_weight delimiter first
  rw [findFields_eq, findFields_eq]
  generalize nextFilled delimiter first = step at same left lighter ⊢
  generalize nextFilled delimiter second = step' at same left ⊢
  obtain ⟨outcome, rest⟩ := step
  obtain ⟨outcome', rest'⟩ := step'
  obtain rfl : outcome = outcome' := same
  cases outcome with
  | finished => exact ⟨.finished, rfl⟩
  | failure reason => exact ⟨.failure reason, rfl⟩
  | record bytes ending =>
    have smaller : rest.weight < first.weight := lighter nofun
    dsimp only
    cases decodeRecord delimiter bytes with
    | ok values => exact ⟨.fields values left, rfl⟩
    | error reason =>
      obtain ⟨found, skipped⟩ := findFields_same left delimiter (before + 1)
      exact ⟨found, congrArg (_ :: ·) skipped⟩
termination_by first.weight

end Feed.Alike

structure Rows.Alike (first second : Rows) : Prop where
  same : second = { first with feed? := second.feed? }
  feeds : Option.Rel Feed.Alike first.feed? second.feed?

structure RowStep.Alike (first second : RowStep) : Prop where
  item : first.item? = second.item?
  skipped : first.skipped = second.skipped
  rest : first.rest.Alike second.rest

/-- What a caller sees of a step: what it yields, and how the table stands after it. -/
structure Notice where
  item? : Option (Except TableError Row)
  skipped : List Malformed
  malformed : Nat
  rowsRead : Nat
  closed : Bool

def RowStep.notice (step : RowStep) : Notice :=
  ⟨step.item?, step.skipped, step.rest.malformed, step.rest.rowsRead, step.rest.isClosed⟩

namespace Rows

def notices (count : Nat) (rows : Rows) : Header × List Notice :=
  (rows.header, (rows.steps count).map RowStep.notice)

namespace Alike

variable {first second : Rows}

theorem next (alike : first.Alike second) : RowStep.Alike first.next second.next := by
  obtain ⟨input, header, delimiter, feed?, pending?, malformed, rowsRead⟩ := first
  obtain ⟨same, feeds⟩ := alike
  generalize second.feed? = feed?' at same feeds
  subst same
  cases pending? with
  | some values => exact ⟨rfl, rfl, rfl, feeds⟩
  | none =>
    cases feeds with
    | none => exact ⟨rfl, rfl, rfl, .none⟩
    | @some feed feed' fed =>
      have pulled (opened : Feed) := @next_of_feed ⟨input, header, delimiter, some opened, none,
        malformed, rowsRead⟩ opened rfl rfl
      rw [pulled feed, pulled feed']
      obtain ⟨met, passed⟩ := fed.findFields_same delimiter malformed
      dsimp only
      generalize findFields delimiter malformed feed = result at met passed ⊢
      generalize findFields delimiter malformed feed' = result' at met passed ⊢
      obtain ⟨found, skipped⟩ := result
      obtain ⟨found', skipped'⟩ := result'
      obtain rfl : skipped = skipped' := passed
      cases met with
      | fields values left => exact ⟨rfl, rfl, rfl, .some left⟩
      | failure reason => exact ⟨rfl, rfl, rfl, .none⟩
      | finished => exact ⟨rfl, rfl, rfl, .none⟩

theorem isClosed_same (alike : first.Alike second) : first.isClosed = second.isClosed := by
  have opened : first.feed?.isNone = second.feed?.isNone := by
    have feeds := alike.feeds
    generalize first.feed? = one at feeds ⊢
    generalize second.feed? = other at feeds ⊢
    cases feeds <;> rfl
  have waiting : first.pending? = second.pending? := by rw [alike.same]
  rw [isClosed, isClosed, opened, waiting]

theorem notice_same (alike : first.Alike second) : first.next.notice = second.next.notice := by
  obtain ⟨item, skipped, rest⟩ := alike.next
  have malformed : first.next.rest.malformed = second.next.rest.malformed := by rw [rest.same]
  have rowsRead : first.next.rest.rowsRead = second.next.rest.rowsRead := by rw [rest.same]
  simp only [RowStep.notice, item, skipped, malformed, rowsRead, rest.isClosed_same]

theorem steps_same (alike : first.Alike second) (count : Nat) :
    (first.steps count).map RowStep.notice = (second.steps count).map RowStep.notice := by
  induction count generalizing first second with
  | zero => rfl
  | succ count ih =>
    rw [steps, steps, List.map_cons, List.map_cons, alike.notice_same, ih alike.next.rest]

theorem notices_same (alike : first.Alike second) (count : Nat) :
    first.notices count = second.notices count := by
  have header : first.header = second.header := by rw [alike.same]
  rw [notices, notices, header, alike.steps_same]

end Alike

theorem ofSource_same {first second : Source}
    (alike : Feed.Alike { source := first } { source := second }) (dialect : Dialect)
    (input : String) (count : Nat) :
    (ofSource dialect input first).map (notices count) =
      (ofSource dialect input second).map (notices count) := by
  obtain ⟨same, left⟩ := alike.nextFilled_same dialect.delimiter
  rw [ofSource, ofSource]
  generalize nextFilled dialect.delimiter { source := first } = step at same left ⊢
  generalize nextFilled dialect.delimiter { source := second } = step' at same left ⊢
  obtain ⟨outcome, rest⟩ := step
  obtain ⟨outcome', rest'⟩ := step'
  obtain rfl : outcome = outcome' := same
  cases outcome with
  | finished => rfl
  | failure reason => rfl
  | record bytes ending =>
    dsimp only
    cases decodeRecord dialect.delimiter bytes with
    | error reason => rfl
    | ok names =>
      cases dialect.hasHeader with
      | true => exact congrArg Except.ok (Alike.notices_same ⟨rfl, .some left⟩ count)
      | false => exact congrArg Except.ok (Alike.notices_same ⟨rfl, .some left⟩ count)

end Rows

/-- All bytes in one read are alike to the same bytes in any number of reads. -/
theorem Source.alike_whole {source : Source} (calm : source.failures = 0) :
    Feed.Alike { source := source } (Feed.ofBytes source.unread) := by
  have quiet : source.stop? = none := source.stop?_eq_none_iff.mpr calm
  refine ⟨?_, quiet⟩
  show source.ahead = source.unread ++ []
  rw [List.append_nil, source.unread_eq_ahead quiet]

end Table

theorem Settings.run_same {first second : Source}
    (alike : Feed.Alike { source := first } { source := second }) (settings : Settings)
    (input : String) : settings.run input first = settings.run input second := by
  have same : ∀ delimiter, filled delimiter { source := first } =
      filled delimiter { source := second } := by
    intro delimiter
    rw [filled, filled, alike.drain_same]
  rw [run_eq, run_eq]
  simp only [same]

/-- Whoever drains a source, opens it as a table and steps through the rows, or runs on it, sees
its bytes only. -/
theorem reading_of_bytes {source : Source} (calm : source.failures = 0) :
    let whole := Source.ofBytes source.unread
    (∀ delimiter, drain delimiter { source := source } = drain delimiter { source := whole }) ∧
    (∀ dialect input count,
      (Rows.ofSource dialect input source).map (Rows.notices count) =
        (Rows.ofSource dialect input whole).map (Rows.notices count)) ∧
    ∀ (settings : Settings) input, settings.run input source = settings.run input whole := by
  have alike := source.alike_whole calm
  exact ⟨alike.drain_same, Rows.ofSource_same alike, Settings.run_same alike⟩

/-- Cuts inside a character, inside a doubled quote and between the bytes of a line break, with
interruptions there and before the end. -/
theorem reading_of_bytes_cut_everywhere :
    let source : Source :=
      [.bytes (Text.Utf8.encode "k,v\r"), .interruption,
        .bytes (Text.Utf8.encode "\n\"a\""), .interruption, .interruption,
        .bytes (Text.Utf8.encode "\"b" ++ [0xC3]), .interruption,
        .bytes (0xA9 :: Text.Utf8.encode "\",1\r\n\"x\"y,2\r"), .interruption]
    let whole := [.bytes (Text.Utf8.encode "k,v\r\n\"a\"\"bé\",1\r\n\"x\"y,2\r")]
    (∀ delimiter, drain delimiter { source := source } = drain delimiter { source := whole }) ∧
    (∀ dialect input count,
      (Rows.ofSource dialect input source).map (Rows.notices count) =
        (Rows.ofSource dialect input whole).map (Rows.notices count)) ∧
    ∀ (settings : Settings) input, settings.run input source = settings.run input whole := by
  intro source whole
  have bytes : Source.ofBytes source.unread = whole := by decide +kernel
  rw [← bytes]
  exact reading_of_bytes rfl

end Rollup
