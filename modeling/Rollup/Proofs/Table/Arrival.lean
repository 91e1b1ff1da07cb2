import Rollup.Proofs.Table.Events

/-! How bytes arrive does not matter.  Two feeds are alike when the same bytes are ahead of them
and the same failure stops them, however their reads are cut and whatever is queued.  Every way of
taking bytes treats alike feeds alike.  Main statement: alike feeds are drained to the same
outcomes, for every delimiter byte. -/

namespace Rollup.Table

/-- The same bytes are ahead, and the same failure behind them. -/
structure Feed.Alike (first second : Feed) : Prop where
  ahead : first.ahead = second.ahead
  stop : first.stop? = second.stop?

inductive Pull.Alike : Pull Feed → Pull Feed → Prop where
  | byte (value : UInt8) {rest rest' : Feed} (left : rest.Alike rest') :
      Alike (.byte value rest) (.byte value rest')
  | failure (reason : String) {rest rest' : Feed} (left : rest.Alike rest') :
      Alike (.failure reason rest) (.failure reason rest')
  | finished : Alike .finished .finished

inductive Feed.Look.Alike : Feed.Look → Feed.Look → Prop where
  | taken {rest rest' : Feed} (left : rest.Alike rest') : Alike (.taken rest) (.taken rest')
  | absent : Alike .absent .absent
  | failure (reason : String) {rest rest' : Feed} (left : rest.Alike rest') :
      Alike (.failure reason rest) (.failure reason rest')

namespace Feed.Alike

variable {first second : Feed}

theorem pull (alike : first.Alike second) : Pull.Alike first.pull second.pull := by
  cases pulled : first.pull with
  | byte value rest =>
    have given := pull_byte pulled
    have ahead : second.ahead = value :: rest.ahead := alike.ahead.symm.trans given.ahead
    cases pulled' : second.pull with
    | byte value' rest' =>
      have given' := pull_byte pulled'
      obtain ⟨rfl, left⟩ := List.cons.inj (ahead.symm.trans given'.ahead)
      exact .byte value ⟨left, given.stop.trans (alike.stop.trans given'.stop.symm)⟩
    | failure reason rest' => simp [(pull_failure pulled').1] at ahead
    | finished => simp [(pull_finished pulled').1] at ahead
  | failure reason rest =>
    obtain ⟨empty, stop, queue⟩ := pull_failure pulled
    cases pulled' : second.pull with
    | byte value' rest' =>
      have given' := pull_byte pulled'
      have none : [] = value' :: rest'.ahead := empty.symm.trans (alike.ahead.trans given'.ahead)
      cases none
    | failure reason' rest' =>
      obtain ⟨-, stop', queue'⟩ := pull_failure pulled'
      have same := stop.symm.trans (alike.stop.trans stop')
      simp only [Option.some.injEq, Prod.mk.injEq] at same
      obtain ⟨rfl, source⟩ := same
      exact .failure reason
        ⟨by rw [Feed.ahead, Feed.ahead, queue, queue', source], by rw [stop?, stop?, source]⟩
    | finished =>
      have calm := alike.stop.symm.trans stop
      rw [(pull_finished pulled').2] at calm
      cases calm
  | finished =>
    obtain ⟨empty, calm⟩ := pull_finished pulled
    cases pulled' : second.pull with
    | byte value' rest' =>
      have none : [] = value' :: rest'.ahead :=
        empty.symm.trans (alike.ahead.trans (pull_byte pulled').ahead)
      cases none
    | failure reason' rest' =>
      have stop := calm.symm.trans (alike.stop.trans (pull_failure pulled').2.1)
      cases stop
    | finished => exact .finished

theorem look (alike : first.Alike second) (wanted : UInt8) :
    Look.Alike (first.look wanted) (second.look wanted) := by
  have pulled := alike.pull
  unfold Feed.look
  generalize first.pull = one at pulled ⊢
  generalize second.pull = other at pulled ⊢
  cases pulled with
  | byte value left =>
    dsimp only
    split
    · exact .taken left
    · exact .absent
  | failure reason left => exact .failure reason left
  | finished => exact .absent

end Feed.Alike

theorem scan_eq (delimiter : UInt8) (draft : Draft) (feed : Feed) : scan delimiter draft feed =
    match feed.pull with
    | .finished => draft.finish feed
    | .failure reason rest => (.failure reason, rest)
    | .byte byte rest =>
      if draft.place = .quoted then
        if byte = quote then
          match rest.look quote with
          | .failure reason rest => (.failure reason, rest)
          | .taken after => scan delimiter ((draft.push quote).push quote) after
          | .absent => scan delimiter draft.close rest
        else scan delimiter (draft.advance delimiter byte) rest
      else if byte = lineFeed then (.record draft.bytes (.line .lineFeed), rest)
      else if byte = carriageReturn then
        match rest.look lineFeed with
        | .failure reason rest => (.failure reason, rest)
        | .taken after => (.record draft.bytes (.line .carriageReturnLineFeed), after)
        | .absent => scan delimiter (draft.advance delimiter byte) rest
      else scan delimiter (draft.advance delimiter byte) rest := by
  rw [scan]
  dsimp only
  generalize feed.pull = pulled
  cases pulled with
  | finished => rfl
  | failure reason rest => rfl
  | byte byte rest =>
    dsimp only
    generalize rest.look quote = closing
    cases closing <;> rfl

namespace Feed.Alike

variable {first second : Feed}

theorem finish (alike : first.Alike second) (empty : first.ahead = []) (draft : Draft) :
    (draft.finish first).1 = (draft.finish second).1 ∧
      (draft.finish first).2.Alike (draft.finish second).2 := by
  have drained : first.queued = [] ∧ first.source.ahead = [] := List.append_eq_nil_iff.mp empty
  have drained' : second.queued = [] ∧ second.source.ahead = [] :=
    List.append_eq_nil_iff.mp (alike.ahead.symm.trans empty)
  unfold Draft.finish
  split
  · exact ⟨rfl, alike⟩
  · split
    · dsimp only
      split
      · exact ⟨rfl, alike⟩
      · refine ⟨rfl, ?_, alike.stop⟩
        simp [Feed.ahead, drained, drained']
    · exact ⟨rfl, alike⟩

theorem scan_same {first second : Feed} (alike : first.Alike second) (delimiter : UInt8)
    (draft : Draft) : (scan delimiter draft first).1 = (scan delimiter draft second).1 ∧
      (scan delimiter draft first).2.Alike (scan delimiter draft second).2 := by
  rw [scan_eq delimiter draft first, scan_eq delimiter draft second]
  have step := alike.pull
  have empty : first.pull = .finished → first.ahead = [] := fun pulled => (pull_finished pulled).1
  have lighter : ∀ byte rest, first.pull = .byte byte rest → rest.weight < first.weight :=
    fun _ _ => weight_of_pull_byte
  generalize first.pull = pulled at step empty lighter ⊢
  generalize second.pull = pulled' at step ⊢
  cases step with
  | finished => exact alike.finish (empty rfl) draft
  | failure _ left => exact ⟨rfl, left⟩
  | @byte byte rest rest' left =>
    have shorter := lighter byte rest rfl
    dsimp only
    split
    case isTrue =>
      split
      case isTrue =>
        have seen := left.look quote
        have smaller : ∀ after, rest.look quote = .taken after → after.weight < rest.weight :=
          fun _ => weight_of_look_taken
        generalize rest.look quote = looked at seen smaller ⊢
        generalize rest'.look quote = looked' at seen ⊢
        cases seen with
        | failure _ left => exact ⟨rfl, left⟩
        | @taken after _ left =>
          have smallest := smaller after rfl
          exact left.scan_same delimiter _
        | absent => exact left.scan_same delimiter _
      case isFalse => exact left.scan_same delimiter _
    case isFalse =>
      split
      case isTrue => exact ⟨rfl, left⟩
      case isFalse =>
        split
        case isTrue =>
          have seen := left.look lineFeed
          generalize rest.look lineFeed = looked at seen ⊢
          generalize rest'.look lineFeed = looked' at seen ⊢
          cases seen with
          | failure _ left => exact ⟨rfl, left⟩
          | taken left => exact ⟨rfl, left⟩
          | absent => exact left.scan_same delimiter _
        case isFalse => exact left.scan_same delimiter _
termination_by first.weight

theorem nextRecord_same (alike : first.Alike second) (delimiter : UInt8) :
    (nextRecord delimiter first).1 = (nextRecord delimiter second).1 ∧
      (nextRecord delimiter first).2.Alike (nextRecord delimiter second).2 :=
  alike.scan_same delimiter {}

theorem drain_same {first second : Feed} (alike : first.Alike second) (delimiter : UInt8) :
    drain delimiter first = drain delimiter second := by
  obtain ⟨same, left⟩ := alike.nextRecord_same delimiter
  by_cases ended : (nextRecord delimiter first).1 = .finished
  · rw [drain_of_finished (Prod.ext ended rfl),
      drain_of_finished (Prod.ext (same.symm.trans ended) rfl)]
  · have lighter := nextRecord_weight delimiter first ended
    have one : drain delimiter first =
        (nextRecord delimiter first).1 ::
          drain delimiter (nextRecord delimiter first).2 :=
      drain_of_read rfl ended
    have other : drain delimiter second =
        (nextRecord delimiter second).1 ::
          drain delimiter (nextRecord delimiter second).2 :=
      drain_of_read rfl fun last => ended (same.trans last)
    rw [one, other, same, left.drain_same delimiter]
termination_by first.weight

end Feed.Alike

end Rollup.Table
