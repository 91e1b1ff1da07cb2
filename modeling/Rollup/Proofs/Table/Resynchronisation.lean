import Rollup.Proofs.Table.Agreement
import Rollup.Proofs.Table.Conservation

/-! One stray quote spoils one line.  Whatever the end of the input leaves behind an open quote has
its quotes in pairs, and such text, read from a fresh field on, never ends inside a field: the
first quote of a pair opens at most what the second one shuts.  Main statement: a drain meets the
end inside an open quote at most once, and what it queues then comes back as its physical lines. -/

namespace Rollup.Table

/-- The lines of a text, each without its line break.  A carriage return belongs to the line break
only right in front of a line feed, and nothing comes after a line feed at the end. -/
def physicalLines : List UInt8 → List (List UInt8)
  | [] => []
  | byte :: rest =>
    if byte = lineFeed then [] :: physicalLines rest
    else if byte = carriageReturn ∧ rest.head? = some lineFeed then physicalLines rest
    else
      match physicalLines rest with
      | [] => [[byte]]
      | line :: others => (byte :: line) :: others

theorem physicalLines_line {bytes : List UInt8} {terminator : LineBreak}
    (flat : lineFeed ∉ bytes) (whole : Whole bytes terminator) (rest : List UInt8) :
    physicalLines (bytes ++ terminator.bytes ++ rest) = bytes :: physicalLines rest := by
  induction bytes with
  | nil => cases terminator <;> rfl
  | cons byte more ih =>
    rw [List.mem_cons, not_or] at flat
    have kept : ¬(byte = carriageReturn ∧
        (more ++ terminator.bytes ++ rest).head? = some lineFeed) := by
      rintro ⟨rfl, next⟩
      cases more with
      | nil =>
        cases terminator with
        | lineFeed => exact whole rfl rfl
        | carriageReturnLineFeed => exact absurd (Option.some.inj next) (by decide)
      | cons second others =>
        exact flat.2 (by simp [← Option.some.inj next])
    have later : Whole more terminator := by
      intro single last
      apply whole single
      cases more with
      | nil => cases last
      | cons second others => rwa [List.getLast?_cons_cons]
    rw [List.cons_append, List.cons_append, physicalLines, if_neg (Ne.symm flat.1), if_neg kept,
      ih flat.2 later]

theorem physicalLines_last {bytes : List UInt8} (some : bytes ≠ []) (flat : lineFeed ∉ bytes) :
    physicalLines bytes = [bytes] := by
  induction bytes with
  | nil => exact absurd rfl some
  | cons byte more ih =>
    rw [List.mem_cons, not_or] at flat
    have kept : ¬(byte = carriageReturn ∧ more.head? = .some lineFeed) :=
      fun both => flat.2 (List.mem_of_head? both.2)
    rw [physicalLines, if_neg (Ne.symm flat.1), if_neg kept]
    cases more with
    | nil => rfl
    | cons second others => rw [ih (by simp) flat.2]

namespace Outcome

def record? : Outcome → Option (List UInt8)
  | .record bytes _ => some bytes
  | .failure _ => none
  | .finished => none

def isOpen : Outcome → Bool
  | .record _ (.openQuote _) => true
  | _ => false

/-- The record was cut at a line break, and what stood behind it was queued. -/
def isCut : Outcome → Bool
  | .record _ (.openQuote (some _)) => true
  | _ => false

def isUnterminated (delimiter : UInt8) : Outcome → Bool
  | .record bytes _ =>
    match decodeRecord delimiter bytes with
    | .error (.unterminatedQuote _) => true
    | _ => false
  | _ => false

theorem isOpen_of_isCut {outcome : Outcome} (cut : outcome.isCut = true) :
    outcome.isOpen = true := by
  match outcome with
  | .record _ (.openQuote (some _)) => rfl
  | .record _ (.openQuote none) => cases cut
  | .record _ (.line _) => cases cut
  | .record _ .input => cases cut
  | .failure _ => cases cut
  | .finished => cases cut

end Outcome

section

variable {delimiter : UInt8}

theorem Unbroken.flat {bytes : List UInt8} (unbroken : Unbroken delimiter bytes)
    (paired : Paired quote bytes) : lineFeed ∉ bytes := by
  intro member
  obtain ⟨before, after, rfl⟩ := List.append_of_mem member
  have front : Paired quote before := (paired.split (by decide)).1
  have outside : Mode.start.after (byteMarks delimiter) before ≠ .quoted :=
    front.after_ne_quoted (byteMarks delimiter) nofun
  exact outside (unbroken before after rfl)

namespace Reading

variable {feed : Feed} {result : Outcome × Feed}

theorem after_open (reading : Reading delimiter feed result)
    (inside : result.1.isOpen = true) :
    Paired quote result.2.ahead ∧ result.2.source.ahead = [] := by
  cases reading with
  | line => cases inside
  | failure => cases inside
  | finished => cases inside
  | input => cases inside
  | unterminated _ read =>
    have nothing := read.of_all.2
    rw [nothing]
    exact ⟨.nil, (List.append_eq_nil_iff.mp nothing).2⟩
  | @cut before text remainder terminator rest _ read _ opened =>
    have empty : rest.source.ahead = [] := (List.append_eq_nil_iff.mp read.of_all.2).2
    refine ⟨?_, empty⟩
    show Paired quote (remainder ++ rest.source.ahead)
    rw [empty, List.append_nil]
    exact opened.paired.around_lineBreak.2

theorem of_paired (reading : Reading delimiter feed result) (notQuote : delimiter ≠ quote)
    (calm : feed.stop? = none) (paired : Paired quote feed.ahead) :
    result.1 = .finished ∧ feed.ahead = [] ∨
    ∃ bytes, result.1.record? = some bytes ∧ result.1.isOpen = false ∧
      Paired quote result.2.ahead ∧
      physicalLines feed.ahead = bytes :: physicalLines result.2.ahead := by
  have outside : modeOf delimiter feed.ahead ≠ .quoted :=
    paired.after_ne_quoted (byteMarks delimiter) nofun
  cases reading with
  | @line bytes terminator rest read unbroken _ whole =>
    right
    rw [read.ahead] at paired
    have parts := paired.around_lineBreak
    refine ⟨bytes, rfl, rfl, parts.2, ?_⟩
    rw [read.ahead]
    exact physicalLines_line (unbroken.flat parts.1) whole rest.ahead
  | failure _ stop => exact absurd (calm.symm.trans stop) nofun
  | finished empty => exact .inl ⟨rfl, empty⟩
  | input some _ read unbroken =>
    right
    have nothing := read.of_all.2
    refine ⟨feed.ahead, rfl, rfl, ?_, ?_⟩
    · rw [nothing]
      exact .nil
    · rw [nothing]
      exact physicalLines_last some (unbroken.flat paired)
  | unterminated _ _ _ opened => exact absurd (opened.modeOf_eq_quoted notQuote) outside
  | cut _ _ _ opened => exact absurd (opened.modeOf_eq_quoted notQuote) outside

end Reading

theorem drain_of_paired (notQuote : delimiter ≠ quote) (feed : Feed) (calm : feed.stop? = none)
    (paired : Paired quote feed.ahead) :
    (drain delimiter feed).map Outcome.record? = (physicalLines feed.ahead).map some ∧
      ∀ outcome ∈ drain delimiter feed, outcome.isOpen = false := by
  -- Every call keeps what is ahead paired, so the open quote never comes back.
  fun_induction drain delimiter feed with
  | case1 feed step more lighter ih =>
    have reading := nextRecord_reading delimiter feed
    rcases reading.of_paired notQuote calm paired with
      ⟨finished, -⟩ | ⟨bytes, same, shut, rest, lines⟩
    · exact absurd finished more
    · obtain ⟨later, closed⟩ := ih (reading.calm calm) rest
      constructor
      · rw [List.map_cons, later, lines, List.map_cons]
        exact congrArg (· :: _) same
      · exact List.forall_mem_cons.mpr ⟨shut, closed⟩
  | case2 feed step finished =>
    have reading := nextRecord_reading delimiter feed
    have last : (nextRecord delimiter feed).1 = .finished := Decidable.not_not.mp finished
    refine ⟨?_, fun _ member => absurd member List.not_mem_nil⟩
    rcases reading.of_paired notQuote calm paired with ⟨-, empty⟩ | ⟨bytes, same, -⟩
    · rw [empty]
      rfl
    · rw [last] at same
      cases same

theorem drain_eq_cons {feed : Feed} {first : Outcome} {more : List Outcome}
    (parts : drain delimiter feed = first :: more) :
    (nextRecord delimiter feed).1 = first ∧
      drain delimiter (nextRecord delimiter feed).2 = more := by
  rw [drain] at parts
  dsimp only at parts
  split at parts
  case isTrue => exact List.cons.inj parts
  case isFalse => cases parts

theorem calls_of_drain {feed : Feed} {before after : List Outcome}
    (parts : drain delimiter feed = before ++ after) :
    (calls delimiter before.length feed).1 = before ∧
      drain delimiter (calls delimiter before.length feed).2 = after := by
  induction before generalizing feed with
  | nil => exact ⟨rfl, parts⟩
  | cons first more ih =>
    obtain ⟨same, later⟩ := drain_eq_cons parts
    obtain ⟨returned, left⟩ := ih later
    refine ⟨?_, left⟩
    show (nextRecord delimiter feed).1 ::
      (calls delimiter more.length (nextRecord delimiter feed).2).1 = first :: more
    rw [same, returned]

theorem calls_succ (count : Nat) (feed : Feed) :
    (calls delimiter (count + 1) feed).2 =
      (nextRecord delimiter (calls delimiter count feed).2).2 := by
  induction count generalizing feed with
  | zero => rfl
  | succ count ih => exact ih (nextRecord delimiter feed).2

theorem countP_isOpen_drain (notQuote : delimiter ≠ quote) (feed : Feed)
    (calm : feed.stop? = none) : (drain delimiter feed).countP Outcome.isOpen ≤ 1 := by
  fun_induction drain delimiter feed with
  | case1 feed step more lighter ih =>
    have reading := nextRecord_reading delimiter feed
    have still := reading.calm calm
    by_cases inside : step.1.isOpen = true
    · have paired := (reading.after_open inside).1
      have shut := (drain_of_paired notQuote step.2 still paired).2
      have none : (drain delimiter step.2).countP Outcome.isOpen = 0 := by
        rw [List.countP_eq_zero]
        intro outcome member
        rw [shut outcome member]
        decide
      apply Nat.le_of_eq
      rw [List.countP_cons_of_pos inside, none]
    · rw [List.countP_cons_of_neg inside]
      exact ih still
  | case2 => exact Nat.zero_le 1

/-- Where the end of the input is met inside an open quote, the rest of the drain is the physical
lines of what is queued there. -/
theorem drain_after_open (notQuote : delimiter ≠ quote) {feed : Feed} (calm : feed.stop? = none)
    {before after : List Outcome} {cut : Outcome}
    (parts : drain delimiter feed = before ++ cut :: after) (opened : cut.isOpen = true) :
    let rest := (calls delimiter (before.length + 1) feed).2
    rest.source.ahead = [] ∧
      feed.ahead = (before ++ [cut]).flatMap Outcome.written ++ rest.queued ∧
      after.map Outcome.record? = (physicalLines rest.queued).map some := by
  intro rest
  obtain ⟨returned, left⟩ := calls_of_drain parts
  obtain ⟨call, later⟩ := drain_eq_cons left
  have reading := nextRecord_reading delimiter (calls delimiter before.length feed).2
  obtain ⟨paired, empty⟩ := reading.after_open (call ▸ opened)
  rw [← calls_succ] at later paired empty
  have queue : rest.ahead = rest.queued := by
    rw [Feed.ahead, empty, List.append_nil]
  have all : (calls delimiter (before ++ [cut]).length feed).1 = before ++ [cut] :=
    (calls_of_drain (parts.trans (List.append_cons before cut after))).1
  have whole := calls_written delimiter (before ++ [cut]).length feed calm
  have lines := (drain_of_paired notQuote rest (calls_calm delimiter _ feed calm) paired).1
  refine ⟨empty, ?_, ?_⟩
  · rwa [all, List.length_append, List.length_singleton, queue] at whole
  · rwa [later, queue] at lines

theorem isOpen_of_isUnterminated (separates : Separates delimiter) {feed : Feed}
    {outcome : Outcome} (returned : outcome ∈ drain delimiter feed)
    (refused : outcome.isUnterminated delimiter = true) : outcome.isOpen = true := by
  obtain ⟨origin, call⟩ := exists_call_of_mem_drain returned
  cases outcome with
  | record bytes ending =>
    have mode : modeOf delimiter bytes = .quoted := by
      unfold Outcome.isUnterminated at refused
      dsimp only at refused
      split at refused
      case h_1 column read => exact modeOf_of_unterminated separates read
      case h_2 => cases refused
    have reading := nextRecord_reading delimiter origin
    obtain ⟨cut, rfl⟩ := (reading.modeOf_eq_quoted_iff separates.not_quote call).mp mode
    rfl
  | failure => cases refused
  | finished => cases refused

end

/-- In a whole drain of a source without failures at most one record is cut, what follows it is
the physical lines of what was queued then, and at most one record is refused for an open quote. -/
theorem drain_resynchronises_once {settings : Settings} {delimiter : UInt8}
    (accepted : settings.delimiterByte = .ok delimiter) {source : Source}
    (calm : source.failures = 0) :
    let outcomes := drain delimiter { source := source }
    outcomes.countP Outcome.isCut ≤ 1 ∧
    (∀ before cut after, outcomes = before ++ cut :: after → cut.isCut = true →
      let rest := (calls delimiter (before.length + 1) { source := source }).2
      rest.source.unread = [] ∧
      source.unread = (before ++ [cut]).flatMap Outcome.written ++ rest.queued ∧
      after.map Outcome.record? = (physicalLines rest.queued).map some) ∧
    outcomes.countP (Outcome.isUnterminated delimiter) ≤ 1 := by
  intro outcomes
  have separates := separates_of_delimiterByte accepted
  have still : ({ source := source } : Feed).stop? = none :=
    (Source.stop?_eq_none_iff source).mpr calm
  have once := countP_isOpen_drain separates.not_quote _ still
  refine ⟨?_, ?_, ?_⟩
  · apply Nat.le_trans _ once
    exact List.countP_mono_left fun _ _ cut => Outcome.isOpen_of_isCut cut
  · intro before cut after parts isCut rest
    have opened := Outcome.isOpen_of_isCut isCut
    obtain ⟨empty, whole, lines⟩ := drain_after_open separates.not_quote still parts opened
    have later : rest.stop? = none := calls_calm delimiter _ _ still
    refine ⟨(Source.unread_eq_ahead _ later).trans empty, ?_, lines⟩
    exact (Source.unread_eq_ahead source still).trans whole
  · apply Nat.le_trans _ once
    exact List.countP_mono_left fun _ returned => isOpen_of_isUnterminated separates returned

/-- The line that comes back has quotes of its own. -/
theorem drain_resynchronises_once_comma :
    let source := Source.ofBytes (Text.Utf8.encode "\"a\n\"\"b\"\"\nc")
    let cut : Outcome := .record (Text.Utf8.encode "\"a") (.openQuote (some .lineFeed))
    let after : List Outcome :=
      [.record (Text.Utf8.encode "\"\"b\"\"") (.line .lineFeed),
        .record (Text.Utf8.encode "c") .input]
    let rest := (calls 0x2C 1 { source := source }).2
    ({} : Settings).delimiterByte = .ok 0x2C ∧
    source.failures = 0 ∧
    drain 0x2C { source := source } = cut :: after ∧
    after.map Outcome.record? = (physicalLines rest.queued).map some ∧
    (drain 0x2C { source := source }).countP (Outcome.isUnterminated 0x2C) ≤ 1 := by
  intro source cut after rest
  have accepted : ({} : Settings).delimiterByte = .ok 0x2C := by rfl
  have calm : source.failures = 0 := by decide
  have parts : drain 0x2C { source := source } = cut :: after := by decide +kernel
  have once := drain_resynchronises_once accepted calm
  exact ⟨accepted, calm, parts, (once.2.1 [] cut after parts rfl).2.2, once.2.2⟩

end Rollup.Table
