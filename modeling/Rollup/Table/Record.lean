import Rollup.Text.Blank
import Rollup.Table.Source

/-! Logical records.  A record ends at a line break outside quotes, so a quoted field may span
lines; a carriage return alone is data.  A quote opens a quoted field only at the start of a
field, and a doubled quote inside one is a quote.  When the input ends inside an open quote, the
record is cut at the first line break after that quote and the rest is queued to be read again,
so that one stray quote spoils one line.  Main statement: reading a record makes the feed
lighter, so a table is drained in finitely many steps. -/

namespace Rollup.Table

def quote : UInt8 := 0x22

def lineFeed : UInt8 := 0x0A

def carriageReturn : UInt8 := 0x0D

def isPadding (byte : UInt8) : Bool := byte = 0x20 || byte = 0x09

inductive LineBreak where
  | lineFeed
  | carriageReturnLineFeed
  deriving DecidableEq, Repr

def LineBreak.bytes : LineBreak → List UInt8
  | .lineFeed => [Table.lineFeed]
  | .carriageReturnLineFeed => [carriageReturn, Table.lineFeed]

/-- How a record came to its end: at a line break outside quotes, with the input, or inside an
open quote with the input, where it may have been cut at a line break. -/
inductive Ending where
  | line (terminator : LineBreak)
  | input
  | openQuote (cut : Option LineBreak)
  deriving DecidableEq, Repr

inductive Outcome where
  | record (bytes : List UInt8) (ending : Ending)
  | failure (reason : String)
  | finished
  deriving DecidableEq, Repr

/-- Where in a field the reading stands. -/
inductive Place where
  | fieldStart
  | bare
  | quoted
  | closed
  deriving DecidableEq, Repr

def Place.after (delimiter byte : UInt8) (place : Place) : Place :=
  if place = .quoted then .quoted
  else if byte = delimiter then .fieldStart
  else if place = .fieldStart then
    if byte = quote then .quoted
    else if isPadding byte then .fieldStart
    else .bare
  else place

/-- A record being read: the bytes so far, last one first, and where its latest quoted field
opened. -/
structure Draft where
  place : Place := .fieldStart
  opened : Nat := 0
  reversed : List UInt8 := []

namespace Draft

def bytes (draft : Draft) : List UInt8 := draft.reversed.reverse

def push (draft : Draft) (byte : UInt8) : Draft :=
  { draft with reversed := byte :: draft.reversed }

def advance (delimiter : UInt8) (draft : Draft) (byte : UInt8) : Draft :=
  let place := draft.place.after delimiter byte
  { place := place
    opened :=
      if draft.place = .fieldStart ∧ place = .quoted then draft.reversed.length else draft.opened
    reversed := byte :: draft.reversed }

def close (draft : Draft) : Draft :=
  { draft with place := .closed, reversed := quote :: draft.reversed }

@[simp] theorem reversed_push (draft : Draft) (byte : UInt8) :
    (draft.push byte).reversed = byte :: draft.reversed := rfl

@[simp] theorem reversed_advance (delimiter : UInt8) (draft : Draft) (byte : UInt8) :
    (draft.advance delimiter byte).reversed = byte :: draft.reversed := rfl

@[simp] theorem reversed_close (draft : Draft) :
    draft.close.reversed = quote :: draft.reversed := rfl

end Draft

def dropCarriageReturn (bytes : List UInt8) : List UInt8 × LineBreak :=
  if bytes.getLast? = some carriageReturn then (bytes.dropLast, .carriageReturnLineFeed)
  else (bytes, .lineFeed)

/-- The record that the end of the input leaves, and the feed after it. -/
def Draft.finish (draft : Draft) (feed : Feed) : Outcome × Feed :=
  if draft.reversed = [] then (.finished, feed)
  else if draft.place = .quoted then
    let before := draft.bytes.take draft.opened
    let since := draft.bytes.drop draft.opened
    match since.dropWhile (· ≠ lineFeed) with
    | [] => (.record draft.bytes (.openQuote none), feed)
    | _ :: rest =>
      let (kept, terminator) := dropCarriageReturn (before ++ since.takeWhile (· ≠ lineFeed))
      (.record kept (.openQuote (some terminator)), { feed with queued := feed.queued ++ rest })
  else (.record draft.bytes .input, feed)

def scan (delimiter : UInt8) (draft : Draft) (feed : Feed) : Outcome × Feed :=
  match pulled : feed.pull with
  | .finished => draft.finish feed
  | .failure reason rest => (.failure reason, rest)
  | .byte byte rest =>
    have := Feed.weight_of_pull_byte pulled
    if draft.place = .quoted then
      if byte = quote then
        match looked : rest.look quote with
        | .failure reason rest => (.failure reason, rest)
        | .taken after =>
          have := Feed.weight_of_look_taken looked
          scan delimiter ((draft.push quote).push quote) after
        | .absent => scan delimiter draft.close rest
      else scan delimiter (draft.advance delimiter byte) rest
    else if byte = lineFeed then (.record draft.bytes (.line .lineFeed), rest)
    else if byte = carriageReturn then
      match rest.look lineFeed with
      | .failure reason rest => (.failure reason, rest)
      | .taken after => (.record draft.bytes (.line .carriageReturnLineFeed), after)
      | .absent => scan delimiter (draft.advance delimiter byte) rest
    else scan delimiter (draft.advance delimiter byte) rest
termination_by feed.weight

/-- Reads the next record, without its line break. -/
def nextRecord (delimiter : UInt8) (feed : Feed) : Outcome × Feed := scan delimiter {} feed

theorem finish_weight (draft : Draft) (feed : Feed)
    (more : (draft.finish feed).1 ≠ .finished) :
    (draft.finish feed).2.weight < feed.weight + draft.reversed.length := by
  unfold Draft.finish at more ⊢
  split
  case isTrue empty => simp [empty] at more
  case isFalse some =>
    have long : 0 < draft.reversed.length := List.length_pos_iff.2 some
    split
    case isTrue inside =>
      dsimp only
      split
      case h_1 => simpa using long
      case h_2 first rest cut =>
        have shorter : rest.length < draft.reversed.length := by
          have left := congrArg List.length cut
          have bound := (List.dropWhile_sublist (· ≠ lineFeed)
            (l := draft.bytes.drop draft.opened)).length_le
          simp only [List.length_cons] at left
          simp only [List.length_drop, Draft.bytes, List.length_reverse] at bound
          simp only [Draft.bytes] at left
          omega
        simp only [Feed.weight, List.length_append]
        omega
    case isFalse => simpa using long

theorem scan_weight (delimiter : UInt8) (draft : Draft) (feed : Feed)
    (more : (scan delimiter draft feed).1 ≠ .finished) :
    (scan delimiter draft feed).2.weight < feed.weight + draft.reversed.length := by
  fun_induction scan delimiter draft feed with
  | case1 => exact finish_weight _ _ more
  | case2 draft feed reason rest pulled =>
    have lighter := Feed.weight_of_pull_failure pulled
    exact Nat.lt_add_right _ lighter
  | case3 draft feed after inside reason rest looked pulled lighter =>
    have lightest := Feed.weight_of_look_failure looked
    exact Nat.lt_add_right _ (Nat.lt_trans lightest lighter)
  | case4 draft feed rest inside after looked lightest pulled lighter ih =>
    have bound := ih more
    simp only [Draft.reversed_push, List.length_cons] at bound
    omega
  | case5 draft feed rest inside looked pulled lighter ih =>
    have bound := ih more
    simp only [Draft.reversed_close, List.length_cons] at bound
    omega
  | case6 draft feed byte rest pulled lighter inside other ih =>
    have bound := ih more
    simp only [Draft.reversed_advance, List.length_cons] at bound
    omega
  | case7 draft feed rest outside pulled lighter => exact Nat.lt_add_right _ lighter
  | case8 draft feed after outside reason rest looked pulled lighter other =>
    have lightest := Feed.weight_of_look_failure looked
    exact Nat.lt_add_right _ (Nat.lt_trans lightest lighter)
  | case9 draft feed rest outside after looked pulled lighter other =>
    have lightest := Feed.weight_of_look_taken looked
    exact Nat.lt_add_right _ (Nat.lt_trans lightest lighter)
  | case10 draft feed rest outside looked pulled lighter other ih =>
    have bound := ih more
    simp only [Draft.reversed_advance, List.length_cons] at bound
    omega
  | case11 draft feed byte rest pulled lighter outside noFeed noReturn ih =>
    have bound := ih more
    simp only [Draft.reversed_advance, List.length_cons] at bound
    omega

theorem nextRecord_weight (delimiter : UInt8) (feed : Feed)
    (more : (nextRecord delimiter feed).1 ≠ .finished) :
    (nextRecord delimiter feed).2.weight < feed.weight :=
  scan_weight delimiter {} feed more

def drain (delimiter : UInt8) (feed : Feed) : List Outcome :=
  let step := nextRecord delimiter feed
  if more : step.1 ≠ .finished then
    have := nextRecord_weight delimiter feed more
    step.1 :: drain delimiter step.2
  else []
termination_by feed.weight

/-- A blank record holds ASCII blanks only, and not the delimiter. -/
def isBlankRecord (delimiter : UInt8) (record : List UInt8) : Bool :=
  record.all fun byte => byte ≠ delimiter && Text.isAsciiBlankCode byte.toNat

end Rollup.Table
