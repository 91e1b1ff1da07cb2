import Rollup.Proofs.Table.Reading

/-! Bytes are neither lost nor repeated.  After any number of calls the records, each with the line
break that was taken off it, the queue, and what the source still holds make up the input.  Until
the end of the input is met nothing is queued, so the source itself stands right behind the last
line break.  This holds for every delimiter byte, also for one that could not work. -/

namespace Rollup.Table

/-- What so many calls return, and the feed after them. -/
def calls (delimiter : UInt8) : Nat → Feed → List Outcome × Feed
  | 0, feed => ([], feed)
  | count + 1, feed =>
    let step := nextRecord delimiter feed
    let later := calls delimiter count step.2
    (step.1 :: later.1, later.2)

def Ending.terminator : Ending → List UInt8
  | .line terminator => terminator.bytes
  | .openQuote (some terminator) => terminator.bytes
  | .input => []
  | .openQuote none => []

def Outcome.written : Outcome → List UInt8
  | .record bytes ending => bytes ++ ending.terminator
  | .failure _ => []
  | .finished => []

/-- The record ended at a line break in the open. -/
def Outcome.IsLine (outcome : Outcome) : Prop :=
  ∃ bytes terminator, outcome = .record bytes (.line terminator)

theorem Feed.ahead_of_calm (feed : Feed) (calm : feed.stop? = none) :
    feed.ahead = feed.queued ++ feed.source.unread := by
  rw [Source.unread_eq_ahead feed.source calm]
  rfl

theorem Feed.Consumed.exhausted {feed rest : Feed} {bytes : List UInt8}
    (consumed : feed.Consumed bytes rest) (empty : feed.source.ahead = []) :
    rest.source.ahead = [] := by
  have same := consumed.ahead
  rw [Feed.ahead, Feed.ahead, empty, List.append_nil, consumed.queued] at same
  have lengths := congrArg List.length same
  rw [List.length_append, List.length_append, List.length_drop] at lengths
  apply List.length_eq_zero_iff.mp
  omega

namespace Reading

variable {delimiter : UInt8} {feed : Feed} {result : Outcome × Feed}

theorem calm (reading : Reading delimiter feed result) (calm : feed.stop? = none) :
    result.2.stop? = none := by
  cases reading with
  | line read => exact read.stop.trans calm
  | failure _ stop => exact absurd (calm.symm.trans stop) nofun
  | finished _ _ read => exact read.stop.trans calm
  | input _ _ read => exact read.stop.trans calm
  | unterminated _ read => exact read.stop.trans calm
  | cut _ read => exact read.stop.trans calm

theorem no_failure (reading : Reading delimiter feed result) (calm : feed.stop? = none)
    (reason : String) : result.1 ≠ .failure reason := by
  cases reading with
  | failure _ stop => exact absurd (calm.symm.trans stop) nofun
  | _ => exact nofun

theorem written (reading : Reading delimiter feed result) (calm : feed.stop? = none) :
    feed.ahead = result.1.written ++ result.2.ahead := by
  cases reading with
  | line read => exact read.ahead
  | failure _ stop => exact absurd (calm.symm.trans stop) nofun
  | finished _ _ read => exact read.ahead
  | input _ _ read =>
    rw [read.of_all.2]
    simp [Outcome.written, Ending.terminator]
  | unterminated _ read =>
    rw [read.of_all.2]
    simp [Outcome.written, Ending.terminator]
  | @cut before inside remainder terminator rest _ read _ opened =>
    have empty : rest.source.ahead = [] := (List.append_eq_nil_iff.mp read.of_all.2).2
    calc
      feed.ahead = before ++ quote :: (inside ++ terminator.bytes ++ remainder) := opened.parts
      _ = (before ++ quote :: inside ++ terminator.bytes) ++ (remainder ++ rest.source.ahead) := by
        simp [empty]

theorem at_end (reading : Reading delimiter feed result) {bytes : List UInt8} {ending : Ending}
    (returned : result.1 = .record bytes ending) (bare : ending.terminator = []) :
    result.2.ahead = [] := by
  cases reading with
  | @line _ terminator =>
    cases returned
    cases terminator <;> cases bare
  | failure => cases returned
  | finished => cases returned
  | input _ _ read => exact read.of_all.2
  | unterminated _ read => exact read.of_all.2
  | @cut _ _ _ terminator =>
    cases returned
    cases terminator <;> cases bare

theorem queued_nil (reading : Reading delimiter feed result) (line : result.1.IsLine)
    (empty : feed.queued = []) : result.2.queued = [] := by
  obtain ⟨bytes, terminator, same⟩ := line
  cases reading with
  | line read => exact read.queued_nil empty
  | _ => cases same

theorem exhausted (reading : Reading delimiter feed result) (calm : feed.stop? = none)
    (ended : ¬result.1.IsLine ∨ feed.source.ahead = []) : result.2.source.ahead = [] := by
  cases reading with
  | @line bytes terminator _ read =>
    exact read.exhausted (ended.resolve_left fun other => other ⟨bytes, terminator, rfl⟩)
  | failure _ stop => exact absurd (calm.symm.trans stop) nofun
  | finished empty _ read => exact read.exhausted (List.append_eq_nil_iff.mp empty).2
  | input _ _ read => exact (List.append_eq_nil_iff.mp read.of_all.2).2
  | unterminated _ read => exact (List.append_eq_nil_iff.mp read.of_all.2).2
  | cut _ read => exact (List.append_eq_nil_iff.mp read.of_all.2).2

end Reading

variable (delimiter : UInt8)

theorem calls_calm (count : Nat) (feed : Feed) (calm : feed.stop? = none) :
    (calls delimiter count feed).2.stop? = none := by
  induction count generalizing feed with
  | zero => exact calm
  | succ count ih => exact ih _ ((nextRecord_reading delimiter feed).calm calm)

theorem calls_no_failure (count : Nat) (feed : Feed) (calm : feed.stop? = none)
    (reason : String) : Outcome.failure reason ∉ (calls delimiter count feed).1 := by
  induction count generalizing feed with
  | zero => exact List.not_mem_nil
  | succ count ih =>
    have reading := nextRecord_reading delimiter feed
    intro member
    rcases List.mem_cons.mp member with same | later
    · exact reading.no_failure calm reason same.symm
    · exact ih _ (reading.calm calm) later

theorem calls_written (count : Nat) (feed : Feed) (calm : feed.stop? = none) :
    feed.ahead =
      (calls delimiter count feed).1.flatMap Outcome.written ++
        (calls delimiter count feed).2.ahead := by
  induction count generalizing feed with
  | zero => rfl
  | succ count ih =>
    have reading := nextRecord_reading delimiter feed
    let step := nextRecord delimiter feed
    let later := calls delimiter count step.2
    calc
      feed.ahead = step.1.written ++ step.2.ahead := reading.written calm
      _ = step.1.written ++ (later.1.flatMap Outcome.written ++ later.2.ahead) := by
        rw [ih step.2 (reading.calm calm)]
      _ = (step.1 :: later.1).flatMap Outcome.written ++ later.2.ahead := by simp

/-- Nothing comes after the end of the input. -/
theorem calls_ahead_nil (count : Nat) (feed : Feed) (calm : feed.stop? = none)
    (empty : feed.ahead = []) : (calls delimiter count feed).2.ahead = [] := by
  have whole := calls_written delimiter count feed calm
  rw [empty] at whole
  exact (List.append_eq_nil_iff.mp whole.symm).2

theorem calls_at_end (count : Nat) (feed : Feed) (calm : feed.stop? = none)
    {bytes : List UInt8} {ending : Ending}
    (returned : .record bytes ending ∈ (calls delimiter count feed).1)
    (bare : ending.terminator = []) : (calls delimiter count feed).2.ahead = [] := by
  induction count generalizing feed with
  | zero => cases returned
  | succ count ih =>
    have reading := nextRecord_reading delimiter feed
    have calmer := reading.calm calm
    rcases List.mem_cons.mp returned with same | later
    · exact calls_ahead_nil delimiter count _ calmer (reading.at_end same.symm bare)
    · exact ih _ calmer later

theorem calls_queued_nil (count : Nat) (feed : Feed)
    (lines : ∀ outcome ∈ (calls delimiter count feed).1, outcome.IsLine)
    (empty : feed.queued = []) : (calls delimiter count feed).2.queued = [] := by
  induction count generalizing feed with
  | zero => exact empty
  | succ count ih =>
    apply ih
    · intro outcome member
      exact lines outcome (List.mem_cons_of_mem _ member)
    · exact (nextRecord_reading delimiter feed).queued_nil (lines _ List.mem_cons_self) empty

theorem calls_exhausted (count : Nat) (feed : Feed) (calm : feed.stop? = none)
    (ended : (∃ outcome ∈ (calls delimiter count feed).1, ¬outcome.IsLine) ∨
      feed.source.ahead = []) :
    (calls delimiter count feed).2.source.ahead = [] := by
  induction count generalizing feed with
  | zero =>
    rcases ended with ⟨outcome, member, -⟩ | empty
    · cases member
    · exact empty
  | succ count ih =>
    have reading := nextRecord_reading delimiter feed
    apply ih _ (reading.calm calm)
    rcases ended with ⟨outcome, member, other⟩ | empty
    · rcases List.mem_cons.mp member with rfl | later
      · exact .inr (reading.exhausted calm (.inl other))
      · exact .inl ⟨outcome, later, other⟩
    · exact .inr (reading.exhausted calm (.inr empty))

theorem Ending.terminator_cases (ending : Ending) :
    ending.terminator = LineBreak.lineFeed.bytes ∨
      ending.terminator = LineBreak.carriageReturnLineFeed.bytes ∨ ending.terminator = [] := by
  cases ending with
  | line terminator => cases terminator <;> simp [Ending.terminator]
  | input => exact .inr (.inr rfl)
  | openQuote cut =>
    cases cut with
    | none => exact .inr (.inr rfl)
    | some terminator => cases terminator <;> simp [Ending.terminator]

/-- After so many calls on a source without failures: records, line breaks, queue and rest make up
the input; a record lacks its line break only when nothing is left; and while every record ended
at a line break in the open, the source stands right behind the last one. -/
theorem calls_conserve_input (source : Source) (calm : source.failures = 0) (count : Nat) :
    let run := calls delimiter count { source := source }
    (∀ reason, Outcome.failure reason ∉ run.1) ∧
    run.1.flatMap Outcome.written ++ run.2.queued ++ run.2.source.unread = source.unread ∧
    (∀ bytes ending, .record bytes ending ∈ run.1 →
      ending.terminator = LineBreak.lineFeed.bytes ∨
      ending.terminator = LineBreak.carriageReturnLineFeed.bytes ∨
      ending.terminator = [] ∧ run.2.queued = [] ∧ run.2.source.unread = []) ∧
    ((∀ outcome ∈ run.1, outcome.IsLine) →
      run.2.queued = [] ∧
      run.1.flatMap Outcome.written ++ run.2.source.unread = source.unread) ∧
    ((∃ outcome ∈ run.1, ¬outcome.IsLine) → run.2.source.unread = []) := by
  intro run
  have still : ({ source := source } : Feed).stop? = none :=
    (Source.stop?_eq_none_iff source).mpr calm
  have after : run.2.stop? = none := calls_calm delimiter count _ still
  have unread : run.2.source.unread = run.2.source.ahead := Source.unread_eq_ahead _ after
  have whole : source.unread = run.1.flatMap Outcome.written ++ run.2.ahead := by
    rw [Source.unread_eq_ahead source still]
    exact calls_written delimiter count _ still
  refine ⟨calls_no_failure delimiter count _ still, ?_, ?_, ?_, ?_⟩
  · rw [whole, run.2.ahead_of_calm after, List.append_assoc]
  · intro bytes ending returned
    rcases ending.terminator_cases with lf | crlf | bare
    · exact .inl lf
    · exact .inr (.inl crlf)
    · have nothing := calls_at_end delimiter count _ still returned bare
      obtain ⟨queue, rest⟩ := List.append_eq_nil_iff.mp nothing
      exact .inr (.inr ⟨bare, queue, unread.trans rest⟩)
  · intro lines
    have queue : run.2.queued = [] := calls_queued_nil delimiter count _ lines rfl
    refine ⟨queue, ?_⟩
    rw [whole, run.2.ahead_of_calm after, queue, List.nil_append]
  · intro ended
    rw [unread]
    exact calls_exhausted delimiter count _ still (.inl ended)

/-- The first read breaks off between the two bytes of a line break in quotes. -/
theorem calls_conserve_input_across_cut :
    Source.failures [.bytes [0x61, 0x0A, 0x22, 0x62, 0x0D], .interruption, .bytes [0x0A, 0x63]] =
      0 ∧
    let run := calls 0x2C 2 { source :=
      [.bytes [0x61, 0x0A, 0x22, 0x62, 0x0D], .interruption, .bytes [0x0A, 0x63]] }
    run.2.queued = [0x63] ∧
    run.1.flatMap Outcome.written ++ run.2.queued ++ run.2.source.unread =
      [0x61, 0x0A, 0x22, 0x62, 0x0D, 0x0A, 0x63] :=
  ⟨by decide, by decide +kernel, (calls_conserve_input 0x2C _ (by decide) 2).2.1⟩

end Rollup.Table
