import Rollup.Table.Fields
import Rollup.Table.Header
import Rollup.Table.Record

/-! The rows of a table, one after another.  Opening a table reads its first record that is not
blank: the header, or, for a table without one, the first row under made-up names.  After that
blank records are passed over, records that cannot be split are counted and reported, and a
failure to read ends the rows.  Main statement: every step that yields an item makes what is
left to read smaller, so folding over the rows ends. -/

namespace Rollup.Table

/-- How a table is written. -/
structure Dialect where
  delimiter : UInt8 := 0x2C
  hasHeader : Bool := true

inductive TableError where
  | cannotOpen (path cause : String)
  | notAFile (path : String)
  | unreadable (input cause : String)
  | badHeader (input : String) (reason : RecordError)
  | emptyHeader (input : String)
  deriving DecidableEq, Repr

def TableError.message : TableError → String
  | .cannotOpen path cause => "Failed to open input '" ++ path ++ "': " ++ cause
  | .notAFile path => "Input '" ++ path ++ "' is not a regular file"
  | .unreadable input cause => "I/O error while reading '" ++ input ++ "': " ++ cause
  | .badHeader input reason =>
    "Failed to parse header of '" ++ input ++ "': " ++ reason.message
  | .emptyHeader input =>
    "Input '" ++ input ++ "' has no header row; pass has_header = false for headerless files"

def TableError.cause? : TableError → Option String
  | .cannotOpen _ cause => some cause
  | .unreadable _ cause => some cause
  | .badHeader _ reason => some reason.message
  | .notAFile _ | .emptyHeader _ => none

/-- A record that was passed over: its number among such records, how it starts, and why. -/
structure Malformed where
  ordinal : Nat
  preview : String
  reason : RecordError
  deriving DecidableEq, Repr

def previewLength : Nat := 100

def preview (record : List UInt8) : String :=
  let text := Text.Utf8.decodeLossy record
  if previewLength < text.length then String.ofList (text.take previewLength ++ "...".toList)
  else String.ofList text

def nextFilled (delimiter : UInt8) (feed : Feed) : Outcome × Feed :=
  let step := nextRecord delimiter feed
  match read : step.1 with
  | .record bytes _ =>
    if isBlankRecord delimiter bytes then
      have := nextRecord_weight delimiter feed (by simp [step] at read; simp [read])
      nextFilled delimiter step.2
    else step
  | .failure _ => step
  | .finished => step
termination_by feed.weight

theorem nextFilled_weight (delimiter : UInt8) (feed : Feed)
    (more : (nextFilled delimiter feed).1 ≠ .finished) :
    (nextFilled delimiter feed).2.weight < feed.weight := by
  fun_induction nextFilled delimiter feed with
  | case1 feed step bytes ending read blank lighter ih => exact Nat.lt_trans (ih more) lighter
  | case2 feed step bytes ending read filled => exact nextRecord_weight delimiter feed more
  | case3 feed step reason read => exact nextRecord_weight delimiter feed more
  | case4 feed step read => exact nextRecord_weight delimiter feed more

inductive Found where
  | fields (values : List String) (rest : Feed)
  | failure (reason : String)
  | finished

/-- Looks for the next record that can be split, reporting those that cannot.  So many were
reported before. -/
def findFields (delimiter : UInt8) (before : Nat) (feed : Feed) : Found × List Malformed :=
  let step := nextFilled delimiter feed
  match read : step.1 with
  | .record bytes _ =>
    match decodeRecord delimiter bytes with
    | .ok values => (.fields values step.2, [])
    | .error reason =>
      have := nextFilled_weight delimiter feed (by simp [step] at read; simp [read])
      let (found, later) := findFields delimiter (before + 1) step.2
      (found, ⟨before + 1, preview bytes, reason⟩ :: later)
  | .failure reason => (.failure reason, [])
  | .finished => (.finished, [])
termination_by feed.weight

theorem findFields_weight (delimiter : UInt8) (before : Nat) (feed rest : Feed)
    (values : List String)
    (found : (findFields delimiter before feed).1 = .fields values rest) :
    rest.weight < feed.weight := by
  fun_induction findFields delimiter before feed with
  | case1 before feed step bytes ending read values' split =>
    cases found
    exact nextFilled_weight delimiter feed (by simp [step] at read; simp [read])
  | case2 before feed step bytes ending read reason split lighter found' later same ih =>
    rw [same] at ih
    exact Nat.lt_trans (ih found) lighter
  | case3 => cases found
  | case4 => cases found

/-- The rows still to come.  A closed table has neither a feed nor a first row that waits. -/
structure Rows where
  input : String
  header : Header
  delimiter : UInt8
  feed? : Option Feed
  pending? : Option (List String) := none
  malformed : Nat := 0
  rowsRead : Nat := 0

/-- One step: the item, if any, the records passed over before it, and the rows after it. -/
structure RowStep where
  item? : Option (Except TableError Row)
  skipped : List Malformed := []
  rest : Rows

namespace Rows

def isClosed (rows : Rows) : Bool := rows.feed?.isNone && rows.pending?.isNone

def close (rows : Rows) : Rows := { rows with feed? := none, pending? := none }

def ofSource (dialect : Dialect) (input : String) (source : Source) :
    Except TableError Rows :=
  match nextFilled dialect.delimiter { source := source } with
  | (.failure reason, _) => .error (.unreadable input reason)
  | (.finished, _) =>
    .ok { input := input, header := ⟨[]⟩, delimiter := dialect.delimiter, feed? := none }
  | (.record bytes _, rest) =>
    match decodeRecord dialect.delimiter bytes with
    | .error reason => .error (.badHeader input reason)
    | .ok names =>
      if dialect.hasHeader then
        .ok { input := input, header := ⟨names⟩, delimiter := dialect.delimiter,
              feed? := some rest }
      else
        .ok { input := input, header := Header.synthesized names.length,
              delimiter := dialect.delimiter, feed? := some rest, pending? := some names }

def emit (rows : Rows) (values : List String) (skipped : List Malformed) : RowStep where
  item? := some (.ok (Row.ofValues rows.header values))
  skipped := skipped
  rest := { rows with rowsRead := rows.rowsRead + 1 }

def next (rows : Rows) : RowStep :=
  match rows.pending? with
  | some values => { rows with pending? := none }.emit values []
  | none =>
    match rows.feed? with
    | none => { item? := none, rest := rows }
    | some feed =>
      let (found, skipped) := findFields rows.delimiter rows.malformed feed
      let counted := { rows with malformed := rows.malformed + skipped.length }
      match found with
      | .fields values rest => { counted with feed? := some rest }.emit values skipped
      | .failure reason =>
        { item? := some (.error (.unreadable rows.input reason)), skipped := skipped,
          rest := counted.close }
      | .finished => { item? := none, skipped := skipped, rest := counted.close }

theorem input_next (rows : Rows) : rows.next.rest.input = rows.input := by
  unfold next
  split
  · rfl
  · split
    · rfl
    · dsimp only
      split <;> rfl

theorem malformed_next (rows : Rows) :
    rows.next.rest.malformed = rows.malformed + rows.next.skipped.length := by
  unfold next
  split
  · rfl
  · split
    · rfl
    · dsimp only
      split <;> rfl

def weight (rows : Rows) : Nat :=
  (if rows.pending?.isSome then 1 else 0) + rows.feed?.elim 0 (·.weight + 1)

theorem weight_next (rows : Rows) (more : rows.next.item? ≠ none) :
    rows.next.rest.weight < rows.weight := by
  unfold next at more ⊢
  split
  case h_1 values waiting => simp [emit, weight, waiting]
  case h_2 waiting =>
    split
    case h_1 closed => simp [waiting, closed] at more
    case h_2 feed opened =>
      dsimp only
      split
      case h_1 values rest found =>
        have lighter := findFields_weight rows.delimiter rows.malformed feed rest values found
        simp [emit, weight, waiting, opened, lighter]
      case h_2 =>
        simp only [close, weight, opened, Option.elim_some, Option.elim_none]
        exact Nat.add_pos_right _ (Nat.succ_pos _)
      case h_3 =>
        simp only [close, weight, opened, Option.elim_some, Option.elim_none]
        exact Nat.add_pos_right _ (Nat.succ_pos _)

/-- How a pass over the rows ends: what was folded, the failure to read, if any, and the rows as
they are then. -/
structure Passage (σ : Type) where
  state : σ
  failure? : Option TableError
  rest : Rows

/-- Folds over all rows and all records passed over, in the order of the input, up to the end or
to a failure. -/
def pass {σ : Type} (onRow : σ → Row → σ) (onMalformed : σ → Malformed → σ) (state : σ)
    (rows : Rows) : Passage σ :=
  let step := rows.next
  let seen := step.skipped.foldl onMalformed state
  match read : step.item? with
  | none => ⟨seen, none, step.rest⟩
  | some (.error reason) => ⟨seen, some reason, step.rest⟩
  | some (.ok row) =>
    have := rows.weight_next (by simp [step] at read; simp [read])
    pass onRow onMalformed (onRow seen row) step.rest
termination_by rows.weight

def fold {σ : Type} (onRow : σ → Row → σ) (onMalformed : σ → Malformed → σ) (state : σ)
    (rows : Rows) : σ × Option TableError :=
  let passage := rows.pass onRow onMalformed state
  (passage.state, passage.failure?)

end Rows

end Rollup.Table
