import Rollup.Proofs.Table.Quoting
import Rollup.Proofs.Table.Supply

/-! What one call for a record does, said once for every feed.  A record ends at the first line
break in the open.  Without one the call fails where the feed fails, or takes everything up to the
end of the input, and an open quote is then cut at the first line feed behind it.  Main statement:
the outcome of a call is one of six, each told by the bytes ahead alone. -/

namespace Rollup.Table

section

variable (delimiter : UInt8)

def modeOf (bytes : List UInt8) : Mode := Mode.start.after (byteMarks delimiter) bytes

/-- No line feed among the bytes would end a record. -/
def Unbroken (bytes : List UInt8) : Prop :=
  Enclosed (byteMarks delimiter) lineFeed .start bytes

/-- The bytes end inside a field that opened after the first part and goes on with the second. -/
structure OpenField (bytes before inside : List UInt8) : Prop where
  parts : bytes = before ++ quote :: inside
  start : modeOf delimiter before = .start
  paired : Paired quote inside

end

def Whole (bytes : List UInt8) (terminator : LineBreak) : Prop :=
  terminator = .lineFeed → bytes.getLast? ≠ some carriageReturn

/-- What a call may do with a feed. -/
inductive Reading (delimiter : UInt8) (feed : Feed) : Outcome × Feed → Prop where
  | line {bytes : List UInt8} {terminator : LineBreak} {rest : Feed}
      (read : feed.Consumed (bytes ++ terminator.bytes) rest)
      (unbroken : Unbroken delimiter bytes) (outside : modeOf delimiter bytes ≠ .quoted)
      (whole : Whole bytes terminator) :
      Reading delimiter feed (.record bytes (.line terminator), rest)
  | failure {reason : String} {source : Source} (unbroken : Unbroken delimiter feed.ahead)
      (stop : feed.stop? = some (reason, source)) :
      Reading delimiter feed (.failure reason, { source := source })
  | finished {rest : Feed} (empty : feed.ahead = []) (stop : feed.stop? = none)
      (read : feed.Consumed [] rest) : Reading delimiter feed (.finished, rest)
  | input {rest : Feed} (some : feed.ahead ≠ []) (stop : feed.stop? = none)
      (read : feed.Consumed feed.ahead rest) (unbroken : Unbroken delimiter feed.ahead)
      (outside : modeOf delimiter feed.ahead ≠ .quoted) :
      Reading delimiter feed (.record feed.ahead .input, rest)
  | unterminated {before inside : List UInt8} {rest : Feed} (stop : feed.stop? = none)
      (read : feed.Consumed feed.ahead rest) (unbroken : Unbroken delimiter feed.ahead)
      (opened : OpenField delimiter feed.ahead before inside) (flat : lineFeed ∉ inside) :
      Reading delimiter feed (.record feed.ahead (.openQuote none), rest)
  | cut {before inside remainder : List UInt8} {terminator : LineBreak} {rest : Feed}
      (stop : feed.stop? = none) (read : feed.Consumed feed.ahead rest)
      (unbroken : Unbroken delimiter feed.ahead)
      (opened : OpenField delimiter feed.ahead before
        (inside ++ terminator.bytes ++ remainder))
      (flat : lineFeed ∉ inside) (whole : Whole inside terminator) :
      Reading delimiter feed (.record (before ++ quote :: inside) (.openQuote (some terminator)),
        { rest with queued := remainder })

def Mode.place : Mode → Place
  | .start => .fieldStart
  | .bare => .bare
  | .quoted => .quoted
  | .shut | .closed => .closed

theorem Mode.place_eq_quoted_iff (mode : Mode) : mode.place = .quoted ↔ mode = .quoted := by
  cases mode <;> decide

theorem Mode.after_place {delimiter byte : UInt8} {mode : Mode}
    (stays : mode = .quoted → byte ≠ quote) (settled : mode = .shut → byte ≠ quote) :
    mode.place.after delimiter byte = (mode.next (byteMarks delimiter) byte).place := by
  cases mode <;> simp only [Mode.place, Place.after, Mode.next, byteMarks] at * <;> grind

@[simp] theorem Draft.bytes_push (draft : Draft) (byte : UInt8) :
    (draft.push byte).bytes = draft.bytes ++ [byte] := by
  rw [Draft.bytes, Draft.reversed_push, List.reverse_cons]
  rfl

@[simp] theorem Draft.bytes_advance (delimiter : UInt8) (draft : Draft) (byte : UInt8) :
    (draft.advance delimiter byte).bytes = draft.bytes ++ [byte] := by
  rw [Draft.bytes, Draft.reversed_advance, List.reverse_cons]
  rfl

@[simp] theorem Draft.bytes_close (draft : Draft) :
    draft.close.bytes = draft.bytes ++ [quote] := by
  rw [Draft.bytes, Draft.reversed_close, List.reverse_cons]
  rfl

structure Draft.Tracks (delimiter : UInt8) (draft : Draft) (mode : Mode)
    (ahead : List UInt8) : Prop where
  reached : modeOf delimiter draft.bytes = mode
  place : draft.place = mode.place
  unbroken : Unbroken delimiter draft.bytes
  settled : mode = .shut → ahead.head? ≠ some quote
  whole : mode ≠ .quoted → draft.bytes.getLast? = some carriageReturn →
    ahead.head? ≠ some lineFeed
  opened : mode = .quoted →
    ∃ before inside, OpenField delimiter draft.bytes before inside ∧
      before.length = draft.opened

namespace Draft.Tracks

variable {delimiter byte : UInt8} {draft : Draft} {mode : Mode} {ahead : List UInt8}

theorem init (delimiter : UInt8) (ahead : List UInt8) :
    Tracks delimiter {} .start ahead where
  reached := rfl
  place := rfl
  unbroken := enclosed_nil _ _ _
  settled := nofun
  whole := nofun
  opened := nofun

theorem byte_ne_quote (tracks : draft.Tracks delimiter mode (byte :: ahead)) :
    mode = .shut → byte ≠ quote := by
  simpa using tracks.settled

theorem place_advance (tracks : draft.Tracks delimiter mode (byte :: ahead))
    (stays : mode = .quoted → byte ≠ quote) :
    (draft.advance delimiter byte).place = (mode.next (byteMarks delimiter) byte).place := by
  rw [← Mode.after_place stays tracks.byte_ne_quote, ← tracks.place]
  rfl

theorem opened_advance (tracks : draft.Tracks delimiter mode (byte :: ahead))
    (stays : mode = .quoted → byte ≠ quote)
    (quoted : mode.next (byteMarks delimiter) byte = .quoted) :
    ∃ before inside, OpenField delimiter (draft.advance delimiter byte).bytes before inside ∧
      before.length = (draft.advance delimiter byte).opened := by
  have bytes := draft.bytes_advance delimiter byte
  by_cases inside : mode = .quoted
  · obtain ⟨before, text, opened, position⟩ := tracks.opened inside
    refine ⟨before, text ++ [byte], ⟨?_, opened.start, ?_⟩, ?_⟩
    · rw [bytes, opened.parts, List.append_assoc, List.cons_append]
    · exact opened.paired.append (.other (stays inside) .nil)
    · rw [position]
      simp [Draft.advance, tracks.place, inside, Mode.place]
  · have opening : mode = .start ∧ byte = quote := by
      have settled := tracks.byte_ne_quote
      cases mode <;> simp only [Mode.next, byteMarks] at quoted <;> grind
    have now : (draft.advance delimiter byte).place = .quoted := by
      rw [tracks.place_advance stays, quoted]
      rfl
    have before : draft.place = .fieldStart := by
      rw [tracks.place, opening.1]
      rfl
    have position : (draft.advance delimiter byte).opened = draft.reversed.length :=
      if_pos ⟨before, now⟩
    refine ⟨draft.bytes, [], ⟨?_, tracks.reached.trans opening.1, .nil⟩, ?_⟩
    · rw [bytes, opening.2]
    · rw [position, Draft.bytes, List.length_reverse]

theorem advance (tracks : draft.Tracks delimiter mode (byte :: ahead))
    (stays : mode = .quoted → byte ≠ quote) (kept : byte = lineFeed → mode = .quoted)
    (alone : byte = carriageReturn → mode ≠ .quoted → ahead.head? ≠ some lineFeed) :
    (draft.advance delimiter byte).Tracks delimiter (mode.next (byteMarks delimiter) byte)
      ahead where
  reached := by
    rw [draft.bytes_advance, modeOf, Mode.after_append]
    exact congrArg (Mode.next (byteMarks delimiter) byte) tracks.reached
  place := tracks.place_advance stays
  unbroken := by
    rw [draft.bytes_advance, Unbroken, enclosed_append_iff, enclosed_cons_iff]
    exact ⟨tracks.unbroken, fun feed => tracks.reached.trans (kept feed), enclosed_nil _ _ _⟩
  settled shut := by
    have closing : mode = .quoted ∧ byte = quote := by
      cases mode <;> simp only [Mode.next, byteMarks] at shut <;> grind
    exact absurd closing.2 (stays closing.1)
  whole outside last := by
    rw [draft.bytes_advance, List.getLast?_concat, Option.some.injEq] at last
    apply alone last
    rintro rfl
    have differs : byte ≠ (byteMarks delimiter).quote := by
      rw [last]
      show carriageReturn ≠ quote
      decide
    exact outside (Mode.next_quoted_of_ne _ differs)
  opened := tracks.opened_advance stays

theorem close (tracks : draft.Tracks delimiter .quoted (quote :: ahead))
    (alone : ahead.head? ≠ some quote) : draft.close.Tracks delimiter .shut ahead where
  reached := by
    rw [Draft.bytes_close, modeOf, Mode.after_append, Mode.after_cons, Mode.after_nil]
    have before : Mode.start.after (byteMarks delimiter) draft.bytes = .quoted := tracks.reached
    rw [before]
    rfl
  place := rfl
  unbroken := by
    rw [Draft.bytes_close, Unbroken, enclosed_append_iff, enclosed_cons_iff]
    exact ⟨tracks.unbroken, fun _ => tracks.reached, enclosed_nil _ _ _⟩
  settled := fun _ => alone
  whole := by
    intro _ last
    rw [Draft.bytes_close, List.getLast?_concat] at last
    exact absurd last (by decide)
  opened := nofun

theorem pair (tracks : draft.Tracks delimiter .quoted (quote :: quote :: ahead)) :
    ((draft.push quote).push quote).Tracks delimiter .quoted ahead := by
  have bytes : ((draft.push quote).push quote).bytes = draft.bytes ++ [quote, quote] := by
    simp
  have before : Mode.start.after (byteMarks delimiter) draft.bytes = .quoted := tracks.reached
  refine ⟨?_, tracks.place, ?_, nofun, fun outside => absurd rfl outside, ?_⟩
  · rw [bytes, modeOf, Mode.after_append, before]
    rfl
  · rw [bytes, Unbroken, enclosed_append_iff]
    exact ⟨tracks.unbroken, enclosed_of_not_mem _ (by decide) _⟩
  · intro _
    obtain ⟨first, text, opened, position⟩ := tracks.opened rfl
    refine ⟨first, text ++ [quote, quote], ⟨?_, opened.start, ?_⟩, position⟩
    · rw [bytes, opened.parts, List.append_assoc, List.cons_append]
    · exact opened.paired.append (.pair .nil)

end Draft.Tracks

theorem append_lineFeed_eq (bytes : List UInt8) :
    bytes ++ [lineFeed] =
      (dropCarriageReturn bytes).1 ++ (dropCarriageReturn bytes).2.bytes := by
  unfold dropCarriageReturn
  split
  case isTrue last =>
    obtain ⟨most, rfl⟩ := List.getLast?_eq_some_iff.mp last
    simp [LineBreak.bytes]
  case isFalse => rfl

theorem whole_dropCarriageReturn (bytes : List UInt8) :
    Whole (dropCarriageReturn bytes).1 (dropCarriageReturn bytes).2 := by
  unfold dropCarriageReturn
  split
  case isTrue => exact nofun
  case isFalse other => exact fun _ => other

theorem dropCarriageReturn_append {front : List UInt8} (back : List UInt8)
    (other : front.getLast? ≠ some carriageReturn) :
    dropCarriageReturn (front ++ back) =
      (front ++ (dropCarriageReturn back).1, (dropCarriageReturn back).2) := by
  by_cases last : back.getLast? = some carriageReturn
  · obtain ⟨most, rfl⟩ := List.getLast?_eq_some_iff.mp last
    simp [dropCarriageReturn, ← List.append_assoc]
  · have same : (front ++ back).getLast? ≠ some carriageReturn := by
      rw [List.getLast?_append]
      cases final : back.getLast? with
      | none => simpa using other
      | some byte => simpa [final] using last
    rw [dropCarriageReturn, dropCarriageReturn, if_neg last, if_neg same]

theorem mem_of_mem_dropCarriageReturn {bytes : List UInt8} {byte : UInt8}
    (member : byte ∈ (dropCarriageReturn bytes).1) : byte ∈ bytes := by
  unfold dropCarriageReturn at member
  split at member
  · exact List.dropLast_subset bytes member
  · exact member

namespace Draft

/-- A cut looks for its line feed from the quote on, and passes over the quote itself. -/
theorem running {text : List UInt8} (flat : lineFeed ∉ text) :
    ∀ byte ∈ quote :: text, decide (byte ≠ lineFeed) = true := by
  intro byte member
  rw [decide_eq_true_eq]
  rintro rfl
  rcases List.mem_cons.mp member with same | member
  · exact absurd same (by decide)
  · exact flat member

variable {draft : Draft} {before text first remainder : List UInt8}

theorem finish_flat (feed : Feed) (inside : draft.place = .quoted)
    (parts : draft.bytes = before ++ quote :: text) (position : before.length = draft.opened)
    (flat : lineFeed ∉ text) :
    draft.finish feed = (.record draft.bytes (.openQuote none), feed) := by
  have some : draft.reversed ≠ [] := by
    rintro nothing
    simp [Draft.bytes, nothing] at parts
  have since : draft.bytes.drop draft.opened = quote :: text := by
    rw [parts, ← position, List.drop_left]
  have rest : (quote :: text).dropWhile (· ≠ lineFeed) = [] := by
    rw [← List.append_nil (quote :: text), List.dropWhile_append_of_pos (running flat)]
    rfl
  simp only [finish, if_neg some, if_pos inside, since, rest]

theorem finish_broken (feed : Feed) (inside : draft.place = .quoted)
    (parts : draft.bytes = before ++ quote :: (first ++ lineFeed :: remainder))
    (position : before.length = draft.opened) (flat : lineFeed ∉ first) :
    draft.finish feed =
      (.record (before ++ quote :: (dropCarriageReturn first).1)
        (.openQuote (some (dropCarriageReturn first).2)),
        { feed with queued := feed.queued ++ remainder }) := by
  have some : draft.reversed ≠ [] := by
    rintro nothing
    simp [Draft.bytes, nothing] at parts
  have front : draft.bytes.take draft.opened = before := by
    rw [parts, ← position, List.take_left]
  have since : draft.bytes.drop draft.opened = quote :: (first ++ lineFeed :: remainder) := by
    rw [parts, ← position, List.drop_left]
  have kept : (quote :: (first ++ lineFeed :: remainder)).takeWhile (· ≠ lineFeed) =
      quote :: first := by
    rw [← List.cons_append, List.takeWhile_append_of_pos (running flat)]
    simp
  have rest : (quote :: (first ++ lineFeed :: remainder)).dropWhile (· ≠ lineFeed) =
      lineFeed :: remainder := by
    rw [← List.cons_append, List.dropWhile_append_of_pos (running flat)]
    simp
  have last : (before ++ [quote]).getLast? ≠ Option.some carriageReturn := by
    rw [List.getLast?_concat]
    decide
  have split := dropCarriageReturn_append first last
  rw [List.append_assoc, List.singleton_append] at split
  simp only [finish, if_neg some, if_pos inside, front, since, rest, kept, split,
    List.append_assoc, List.singleton_append]

end Draft

namespace Draft.Tracks

variable {delimiter : UInt8} {draft : Draft} {mode : Mode} {origin feed : Feed}

theorem finish (tracks : draft.Tracks delimiter mode feed.ahead)
    (read : origin.Consumed draft.bytes feed) (empty : feed.ahead = [])
    (stop : feed.stop? = none) : Reading delimiter origin (draft.finish feed) := by
  have all : origin.ahead = draft.bytes := by rw [read.ahead, empty, List.append_nil]
  have calm : origin.stop? = none := read.stop.symm.trans stop
  have reads : origin.Consumed origin.ahead feed := all ▸ read
  have unbroken : Unbroken delimiter origin.ahead := all ▸ tracks.unbroken
  by_cases inside : draft.place = .quoted
  · have quoted : mode = .quoted := by
      rwa [tracks.place, Mode.place_eq_quoted_iff] at inside
    obtain ⟨before, text, opened, position⟩ := tracks.opened quoted
    by_cases broken : lineFeed ∈ text
    · obtain ⟨first, remainder, rfl, flat⟩ := List.eq_append_cons_of_mem broken
      have ending := append_lineFeed_eq first
      rw [finish_broken feed inside opened.parts position flat, reads.of_all.1, List.nil_append]
      apply Reading.cut calm reads unbroken _ _ (whole_dropCarriageReturn first)
      · rwa [all, ← ending, List.append_assoc, List.singleton_append]
      · exact fun member => flat (mem_of_mem_dropCarriageReturn member)
    · rw [finish_flat feed inside opened.parts position broken, ← all]
      exact .unterminated calm reads unbroken (all ▸ opened) broken
  · have outside : modeOf delimiter origin.ahead ≠ .quoted := by
      rwa [tracks.place, Mode.place_eq_quoted_iff, ← tracks.reached, ← all] at inside
    unfold Draft.finish
    by_cases nothing : draft.reversed = []
    · have blank : draft.bytes = [] := by simp [Draft.bytes, nothing]
      rw [if_pos nothing]
      exact .finished (all.trans blank) calm (blank ▸ read)
    · have filled : origin.ahead ≠ [] := by simpa [all, Draft.bytes] using nothing
      rw [if_neg nothing, if_neg inside, ← all]
      exact .input filled calm reads unbroken outside

theorem failure {rest : Feed} {reason : String}
    (tracks : draft.Tracks delimiter mode feed.ahead)
    (read : origin.Consumed draft.bytes feed) (flat : lineFeed ∉ feed.ahead)
    (stop : feed.stop? = some (reason, rest.source)) (queue : rest.queued = []) :
    Reading delimiter origin (.failure reason, rest) := by
  have unbroken : Unbroken delimiter origin.ahead := by
    rw [read.ahead, Unbroken, enclosed_append_iff]
    exact ⟨tracks.unbroken, enclosed_of_not_mem _ flat _⟩
  have same : rest = { source := rest.source } := by rw [← queue]
  rw [same]
  exact .failure unbroken (read.stop.symm.trans stop)

theorem place_quoted_iff {ahead : List UInt8} (tracks : draft.Tracks delimiter mode ahead) :
    draft.place = .quoted ↔ mode = .quoted := by
  rw [tracks.place, Mode.place_eq_quoted_iff]

end Draft.Tracks

/-- A draft that has been read from a feed tracks the mode of its bytes, with the rest of the feed
ahead of it. -/
structure Draft.Follows (delimiter : UInt8) (origin feed : Feed) (draft : Draft) (mode : Mode) :
    Prop where
  read : origin.Consumed draft.bytes feed
  tracks : draft.Tracks delimiter mode feed.ahead

namespace Draft.Follows

variable {delimiter byte : UInt8} {origin feed rest after : Feed} {draft : Draft} {mode : Mode}
  (follows : draft.Follows delimiter origin feed mode)
include follows

theorem mode_ne_quoted (outside : draft.place ≠ .quoted) : mode ≠ .quoted :=
  fun inside => outside (follows.tracks.place_quoted_iff.mpr inside)

theorem advance (pulled : feed.pull = .byte byte rest) (stays : mode = .quoted → byte ≠ quote)
    (kept : byte = lineFeed → mode = .quoted)
    (alone : byte = carriageReturn → mode ≠ .quoted → rest.ahead.head? ≠ some lineFeed) :
    (draft.advance delimiter byte).Follows delimiter origin rest
      (mode.next (byteMarks delimiter) byte) := by
  have first := Feed.pull_byte pulled
  obtain ⟨read, tracks⟩ := follows
  rw [first.ahead] at tracks
  refine ⟨?_, tracks.advance stays kept alone⟩
  rw [Draft.bytes_advance]
  exact read.trans first

theorem advance_outside (pulled : feed.pull = .byte byte rest) (outside : draft.place ≠ .quoted)
    (noFeed : byte ≠ lineFeed)
    (alone : byte = carriageReturn → rest.ahead.head? ≠ some lineFeed) :
    (draft.advance delimiter byte).Follows delimiter origin rest
      (mode.next (byteMarks delimiter) byte) := by
  have bare := follows.mode_ne_quoted outside
  exact follows.advance pulled (fun inside => absurd inside bare) (fun same => absurd same noFeed)
    fun same _ => alone same

theorem advance_inside (pulled : feed.pull = .byte byte rest) (inside : draft.place = .quoted)
    (other : byte ≠ quote) :
    (draft.advance delimiter byte).Follows delimiter origin rest
      (mode.next (byteMarks delimiter) byte) := by
  have quoted : mode = .quoted := follows.tracks.place_quoted_iff.mp inside
  exact follows.advance pulled (fun _ => other) (fun _ => quoted) fun _ out => absurd quoted out

theorem close (pulled : feed.pull = .byte quote rest) (inside : draft.place = .quoted)
    (looked : rest.look quote = .absent) : draft.close.Follows delimiter origin rest .shut := by
  have first := Feed.pull_byte pulled
  obtain ⟨read, tracks⟩ := follows
  have quoted : mode = .quoted := tracks.place_quoted_iff.mp inside
  subst quoted
  rw [first.ahead] at tracks
  refine ⟨?_, tracks.close (Feed.look_absent looked)⟩
  rw [Draft.bytes_close]
  exact read.trans first

theorem pair (pulled : feed.pull = .byte quote rest) (inside : draft.place = .quoted)
    (looked : rest.look quote = .taken after) :
    ((draft.push quote).push quote).Follows delimiter origin after .quoted := by
  have first := Feed.pull_byte pulled
  have second := Feed.look_taken looked
  obtain ⟨read, tracks⟩ := follows
  have quoted : mode = .quoted := tracks.place_quoted_iff.mp inside
  subst quoted
  rw [first.ahead, second.ahead] at tracks
  refine ⟨?_, tracks.pair⟩
  rw [Draft.bytes_push, Draft.bytes_push]
  exact (read.trans first).trans second

theorem line_of_lineFeed (pulled : feed.pull = .byte lineFeed rest)
    (outside : draft.place ≠ .quoted) :
    Reading delimiter origin (.record draft.bytes (.line .lineFeed), rest) := by
  have first := Feed.pull_byte pulled
  have both : origin.Consumed (draft.bytes ++ LineBreak.lineFeed.bytes) rest :=
    follows.read.trans first
  have bare := follows.mode_ne_quoted outside
  apply Reading.line both follows.tracks.unbroken
  · rwa [follows.tracks.reached]
  · intro _ last
    apply follows.tracks.whole bare last
    rw [first.ahead]
    rfl

theorem line_of_carriageReturn (pulled : feed.pull = .byte carriageReturn rest)
    (outside : draft.place ≠ .quoted) (looked : rest.look lineFeed = .taken after) :
    Reading delimiter origin (.record draft.bytes (.line .carriageReturnLineFeed), after) := by
  have both := (follows.read.trans (Feed.pull_byte pulled)).trans (Feed.look_taken looked)
  rw [List.append_assoc] at both
  have bare := follows.mode_ne_quoted outside
  apply Reading.line both follows.tracks.unbroken
  · rwa [follows.tracks.reached]
  · exact nofun

theorem failure_behind {sought : UInt8} {reason : String} (pulled : feed.pull = .byte byte rest)
    (other : byte ≠ lineFeed) (looked : rest.look sought = .failure reason after) :
    Reading delimiter origin (.failure reason, after) := by
  have first := Feed.pull_byte pulled
  obtain ⟨empty, stop, queue⟩ := Feed.look_failure looked
  have flat : lineFeed ∉ feed.ahead := by
    rw [first.ahead, empty, List.append_nil, List.mem_singleton]
    exact other.symm
  exact follows.tracks.failure follows.read flat (first.stop.symm.trans stop) queue

end Draft.Follows

/-- A scan that has read its draft from a feed does with the feed what one call may do. -/
theorem scan_reading {delimiter : UInt8} {origin feed : Feed} {draft : Draft} {mode : Mode}
    (follows : draft.Follows delimiter origin feed mode) :
    Reading delimiter origin (scan delimiter draft feed) := by
  fun_induction scan delimiter draft feed generalizing mode with
  | case1 draft feed pulled =>
    obtain ⟨empty, stop⟩ := Feed.pull_finished pulled
    exact follows.tracks.finish follows.read empty stop
  | case2 draft feed reason rest pulled =>
    obtain ⟨empty, stop, queue⟩ := Feed.pull_failure pulled
    exact follows.tracks.failure follows.read (by simp [empty]) stop queue
  | case3 draft feed after inside reason rest looked pulled lighter =>
    exact follows.failure_behind pulled (by decide) looked
  | case4 draft feed rest inside after looked lightest pulled lighter ih =>
    exact ih (follows.pair pulled inside looked)
  | case5 draft feed rest inside looked pulled lighter ih =>
    exact ih (follows.close pulled inside looked)
  | case6 draft feed byte rest pulled lighter inside other ih =>
    exact ih (follows.advance_inside pulled inside other)
  | case7 draft feed rest outside pulled lighter => exact follows.line_of_lineFeed pulled outside
  | case8 draft feed after outside reason rest looked pulled lighter other =>
    exact follows.failure_behind pulled (by decide) looked
  | case9 draft feed rest outside after looked pulled lighter other =>
    exact follows.line_of_carriageReturn pulled outside looked
  | case10 draft feed rest outside looked pulled lighter other ih =>
    exact ih (follows.advance_outside pulled outside other fun _ => Feed.look_absent looked)
  | case11 draft feed byte rest pulled lighter outside noFeed noReturn ih =>
    exact ih (follows.advance_outside pulled outside noFeed fun same => absurd same noReturn)

theorem nextRecord_reading (delimiter : UInt8) (feed : Feed) :
    Reading delimiter feed (nextRecord delimiter feed) :=
  scan_reading ⟨Feed.Consumed.refl feed, Draft.Tracks.init delimiter feed.ahead⟩

end Rollup.Table
