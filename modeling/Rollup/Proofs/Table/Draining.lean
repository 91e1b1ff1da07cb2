import Rollup.Proofs.Table.Conservation
import Rollup.Proofs.Table.Records

/-! Draining ends, although bytes are read twice.  What a cut puts back lacks at least the quote and
the line break that it was cut at, and a failure is gone once it was told.  Main statement: every
call but the last makes the failures fewer, or leaves them and makes the bytes that are held fewer,
so there are at most so many calls as bytes and failures, and from then on only the end is met. -/

namespace Rollup.Table

namespace Source

theorem unread_eq (source : Source) :
    source.unread = source.ahead ++ source.stop?.elim [] (·.2.unread) := by
  induction source with
  | nil => rfl
  | cons first rest ih =>
    cases first with
    | bytes chunk =>
      have whole : unread (.bytes chunk :: rest) = chunk ++ unread rest := rfl
      rw [whole, ih, ← List.append_assoc]
      rfl
    | interruption => exact ih
    | failure reason => rfl

theorem failures_eq (source : Source) :
    source.failures = source.stop?.elim 0 (·.2.failures + 1) := by
  induction source with
  | nil => rfl
  | cons first rest ih =>
    cases first with
    | bytes chunk =>
      rw [failures, List.countP_cons_of_neg Bool.false_ne_true]
      exact ih
    | interruption =>
      rw [failures, List.countP_cons_of_neg Bool.false_ne_true]
      exact ih
    | failure reason => exact List.countP_cons_of_pos rfl

end Source

namespace Feed

def failures (feed : Feed) : Nat := feed.source.failures

/-- How many bytes are queued or unread. -/
def held (feed : Feed) : Nat := feed.queued.length + feed.source.unread.length

theorem held_eq (feed : Feed) :
    feed.held = feed.ahead.length + (feed.stop?.elim [] (·.2.unread)).length := by
  rw [held, Source.unread_eq, List.length_append, ← Nat.add_assoc, ahead, List.length_append]
  rfl

theorem failures_eq (feed : Feed) : feed.failures = feed.stop?.elim 0 (·.2.failures + 1) :=
  feed.source.failures_eq

theorem held_lt {feed rest : Feed} (stop : rest.stop? = feed.stop?)
    (fewer : rest.ahead.length < feed.ahead.length) : rest.held < feed.held := by
  rw [held_eq, held_eq, stop]
  exact Nat.add_lt_add_right fewer _

theorem failures_same {feed rest : Feed} (stop : rest.stop? = feed.stop?) :
    rest.failures = feed.failures := by
  rw [failures_eq, failures_eq, stop]

end Feed

namespace Reading

variable {delimiter : UInt8} {feed : Feed} {result : Outcome × Feed}

theorem of_record (reading : Reading delimiter feed result) (record : result.1.IsRecord) :
    result.2.stop? = feed.stop? ∧ result.2.ahead.length < feed.ahead.length := by
  obtain ⟨_, _, same⟩ := record
  cases reading with
  | failure | finished => cases same
  | @line bytes terminator rest read =>
    refine ⟨read.stop, ?_⟩
    have some : 0 < terminator.bytes.length := by cases terminator <;> decide
    rw [read.ahead, List.length_append, List.length_append]
    show rest.ahead.length < _
    omega
  | @input rest some stop read =>
    refine ⟨read.stop, ?_⟩
    rw [read.of_all.2]
    exact List.length_pos_iff.mpr some
  | @unterminated before inside rest stop read _ opened =>
    refine ⟨read.stop, ?_⟩
    rw [read.of_all.2, opened.parts, List.length_append, List.length_cons]
    exact Nat.lt_add_left _ (Nat.succ_pos _)
  | @cut before inside remainder terminator rest stop read _ opened =>
    refine ⟨read.stop, ?_⟩
    have empty : rest.source.ahead = [] := (List.append_eq_nil_iff.mp read.of_all.2).2
    show (remainder ++ rest.source.ahead).length < _
    rw [empty, List.append_nil, opened.parts, List.length_append, List.length_cons,
      List.length_append]
    omega

theorem of_failure (reading : Reading delimiter feed result) {reason : String}
    (failed : result.1 = .failure reason) :
    result.2.failures + 1 = feed.failures ∧ result.2.held ≤ feed.held := by
  cases reading with
  | @failure _ source _ stop =>
    rw [feed.failures_eq, feed.held_eq, stop]
    refine ⟨rfl, ?_⟩
    show 0 + source.unread.length ≤ _ + source.unread.length
    omega
  | _ => cases failed

theorem finished_iff (reading : Reading delimiter feed result) :
    result.1 = .finished ↔ feed.ahead = [] ∧ feed.stop? = none := by
  constructor
  · intro ended
    cases reading with
    | finished empty stop => exact ⟨empty, stop⟩
    | _ => cases ended
  · rintro ⟨empty, stop⟩
    cases told : result.1 with
    | finished => rfl
    | record bytes ending =>
      have fewer := (reading.of_record ⟨bytes, ending, told⟩).2
      rw [empty] at fewer
      exact absurd fewer (Nat.not_lt_zero _)
    | failure reason => exact absurd told (reading.no_failure stop reason)

theorem finished_again (reading : Reading delimiter feed result) (ended : result.1 = .finished) :
    result.2.ahead = [] ∧ result.2.stop? = none := by
  cases reading with
  | finished empty stop read => exact ⟨read.ahead.symm.trans empty, read.stop.trans stop⟩
  | _ => cases ended

end Reading

section

variable (delimiter : UInt8) (feed : Feed)

/-- A call for a record makes the bytes fewer and leaves the failures, or it makes these fewer. -/
theorem nextRecord_progress (more : (nextRecord delimiter feed).1 ≠ .finished) :
    let rest := (nextRecord delimiter feed).2
    rest.failures = feed.failures ∧ rest.held < feed.held ∨
      rest.failures + 1 = feed.failures ∧ rest.held ≤ feed.held := by
  have reading := nextRecord_reading delimiter feed
  cases told : (nextRecord delimiter feed).1 with
  | finished => exact absurd told more
  | record bytes ending =>
    obtain ⟨stop, fewer⟩ := reading.of_record ⟨bytes, ending, told⟩
    exact .inl ⟨Feed.failures_same stop, Feed.held_lt stop fewer⟩
  | failure reason => exact .inr (reading.of_failure told)

theorem length_drain_le : (drain delimiter feed).length ≤ feed.held + feed.failures := by
  fun_induction drain delimiter feed with
  | case1 feed step more lighter ih =>
    have progress := nextRecord_progress delimiter feed more
    rw [List.length_cons]
    dsimp only [step] at ih progress ⊢
    omega
  | case2 => exact Nat.zero_le _

theorem calls_of_finished (ended : feed.ahead = [] ∧ feed.stop? = none) (count : Nat) :
    (calls delimiter count feed).1 = List.replicate count .finished := by
  induction count generalizing feed with
  | zero => rfl
  | succ count ih =>
    have reading := nextRecord_reading delimiter feed
    have finished := reading.finished_iff.mpr ended
    rw [calls, List.replicate_succ, finished, ih _ (reading.finished_again finished)]

theorem calls_eq_drain (count : Nat) : (calls delimiter count feed).1 =
    (drain delimiter feed).take count ++
      List.replicate (count - (drain delimiter feed).length) .finished := by
  induction count generalizing feed with
  | zero => simp [calls]
  | succ count ih =>
    by_cases ended : (nextRecord delimiter feed).1 = .finished
    · have reading := nextRecord_reading delimiter feed
      rw [drain_of_finished (Prod.ext ended rfl), List.take_nil, List.nil_append, List.length_nil]
      exact calls_of_finished delimiter feed (reading.finished_iff.mp ended) _
    · rw [drain_of_read rfl ended, List.take_succ_cons, List.length_cons, Nat.add_sub_add_right,
        List.cons_append, ← ih]
      rfl

/-- Wherever a feed stands: a call that returns a record or a failure makes the failures to come
fewer, or leaves them and makes the bytes that are held fewer; a drain takes at most one call for
each of the bytes and failures, and every call behind it returns the end. -/
theorem drain_ends :
    ((nextRecord delimiter feed).1 ≠ .finished →
      Prod.Lex (· < ·) (· < ·)
        ((nextRecord delimiter feed).2.failures, (nextRecord delimiter feed).2.held)
        (feed.failures, feed.held)) ∧
    .finished ∉ drain delimiter feed ∧
    (drain delimiter feed).length ≤ feed.held + feed.failures ∧
    ∀ count, (calls delimiter count feed).1 = (drain delimiter feed).take count ++
      List.replicate (count - (drain delimiter feed).length) .finished := by
  refine ⟨fun more => ?_, finished_not_mem_drain delimiter feed, length_drain_le delimiter feed,
    calls_eq_drain delimiter feed⟩
  rcases nextRecord_progress delimiter feed more with ⟨same, fewer⟩ | ⟨fewer, -⟩
  · rw [same]
    exact .right _ fewer
  · exact .left _ _ (by omega)

end

/-- A failure, then a quote that stays open: its record is cut, and what is put back is a second
record. -/
theorem drain_ends_put_back :
    let feed : Feed := { source := [.bytes [0x61], .failure "reset", .interruption,
      .bytes [quote, 0x62, lineFeed, 0x63]] }
    let behind := (nextRecord 0x2C feed).2
    (nextRecord 0x2C behind).1 = .record [quote, 0x62] (.openQuote (some .lineFeed)) ∧
    Prod.Lex (· < ·) (· < ·)
      ((nextRecord 0x2C behind).2.failures, (nextRecord 0x2C behind).2.held)
      (behind.failures, behind.held) ∧
    (drain 0x2C feed).length = 3 ∧
    (calls 0x2C 5 feed).1 = drain 0x2C feed ++ [.finished, .finished] := by
  intro feed behind
  have cut : (nextRecord 0x2C behind).1 = .record [quote, 0x62] (.openQuote (some .lineFeed)) := by
    decide +kernel
  have three : (drain 0x2C feed).length = 3 := by decide +kernel
  refine ⟨cut, (drain_ends 0x2C behind).1 (by rw [cut]; exact nofun), three, ?_⟩
  rw [(drain_ends 0x2C feed).2.2.2 5, three, List.take_of_length_le (by omega)]
  rfl

end Rollup.Table
