import Rollup.Proofs.Table.Records
import Rollup.Proofs.Table.Steps

/-! The counters of a table that is read step by step.  A step yields a row and leaves the table
open, or it closes the table; the rows are counted as they are yielded and the records passed over
as they are told.  Main statement: whatever is asked of a table, it yields rows, then at most one
failure, then nothing, its counters say what it has yielded and told, they stand still once it has
yielded no row, and it is closed from then on and not before, unless it has no records at all. -/

namespace Rollup.Table

def isRow : Option (Except TableError Row) → Bool
  | some (.ok _) => true
  | some (.error _) | none => false

theorem ordinal_findFields (delimiter : UInt8) (before : Nat) (feed : Feed) :
    (findFields delimiter before feed).2.map Malformed.ordinal =
      List.range' (before + 1) (findFields delimiter before feed).2.length := by
  fun_induction findFields delimiter before feed with
  | case1 | case3 | case4 => rfl
  | case2 before feed step bytes ending read reason split lighter found later same ih =>
    rw [same] at ih
    exact congrArg ((before + 1) :: ·) ih

namespace Rows

/-- A row can wait only in front of a feed. -/
def Backed (rows : Rows) : Prop := rows.feed? = none → rows.pending? = none

/-- What one step does with a table. -/
inductive Stepping (rows : Rows) : RowStep → Prop where
  | waiting {values : List String} (pending : rows.pending? = some values) :
      Stepping rows ({ rows with pending? := none }.emit values [])
  | closed (pending : rows.pending? = none) (closed : rows.feed? = none) :
      Stepping rows { item? := none, rest := rows }
  | row {values : List String} {skipped : List Malformed} {rest : Feed}
      (numbered : skipped.map Malformed.ordinal = List.range' (rows.malformed + 1) skipped.length) :
      Stepping rows ({ rows with
        malformed := rows.malformed + skipped.length, feed? := some rest }.emit values skipped)
  | last {item? : Option (Except TableError Row)} {skipped : List Malformed}
      (other : isRow item? = false)
      (numbered : skipped.map Malformed.ordinal = List.range' (rows.malformed + 1) skipped.length) :
      Stepping rows ⟨item?, skipped,
        close { rows with malformed := rows.malformed + skipped.length }⟩

theorem next_stepping (rows : Rows) : rows.Stepping rows.next := by
  cases pending : rows.pending? with
  | some values =>
    rw [next, pending]
    exact .waiting pending
  | none =>
    cases opened : rows.feed? with
    | none =>
      rw [next, pending, opened]
      exact .closed pending opened
    | some feed =>
      have numbered := ordinal_findFields rows.delimiter rows.malformed feed
      rw [next_of_feed pending opened]
      dsimp only
      generalize findFields rows.delimiter rows.malformed feed = result at numbered ⊢
      obtain ⟨found, skipped⟩ := result
      cases found with
      | fields values rest => exact .row numbered
      | failure reason => exact .last rfl numbered
      | finished => exact .last rfl numbered

theorem isClosed_iff (rows : Rows) :
    rows.isClosed = true ↔ rows.pending? = none ∧ rows.feed? = none := by
  rw [isClosed, Bool.and_eq_true, Option.isNone_iff_eq_none, Option.isNone_iff_eq_none]
  exact And.comm

namespace Stepping

variable {rows : Rows} {step : RowStep}

theorem rowsRead (stepping : rows.Stepping step) :
    step.rest.rowsRead = rows.rowsRead + [step.item?].countP isRow := by
  cases stepping with
  | waiting | row | closed => rfl
  | last other => simp [other, close]

theorem numbered (stepping : rows.Stepping step) : step.skipped.map Malformed.ordinal =
    List.range' (rows.malformed + 1) step.skipped.length := by
  cases stepping with
  | waiting | closed => rfl
  | row numbered => exact numbered
  | last _ numbered => exact numbered

theorem backed (stepping : rows.Stepping step) : step.rest.Backed := by
  cases stepping with
  | waiting => exact fun _ => rfl
  | closed pending => exact fun _ => pending
  | row => exact nofun
  | last => exact fun _ => rfl

theorem isClosed (stepping : rows.Stepping step) (backed : rows.Backed) :
    step.rest.isClosed = !isRow step.item? := by
  cases stepping with
  | waiting pending =>
    have opened : rows.feed? ≠ none := by
      intro closed
      rw [backed closed] at pending
      cases pending
    exact Bool.eq_false_iff.mpr fun closed => opened ((isClosed_iff _).mp closed).2
  | closed pending closed => exact (isClosed_iff _).mpr ⟨pending, closed⟩
  | row => rfl
  | last other => simp [other, close, Rows.isClosed]

end Stepping

theorem next_of_closed {rows : Rows} (closed : rows.isClosed = true) :
    rows.next = { item? := none, rest := rows } := by
  obtain ⟨pending, closed⟩ := rows.isClosed_iff.mp closed
  rw [next, pending, closed]

def afterSteps : Nat → Rows → Rows
  | 0, rows => rows
  | count + 1, rows => afterSteps count rows.next.rest

def itemsOf (count : Nat) (rows : Rows) : List (Option (Except TableError Row)) :=
  (rows.steps count).map RowStep.item?

def toldOf (count : Nat) (rows : Rows) : List Malformed :=
  (rows.steps count).flatMap RowStep.skipped

section

variable (rows : Rows) (count : Nat)

theorem itemsOf_succ :
    rows.itemsOf (count + 1) = rows.next.item? :: rows.next.rest.itemsOf count := rfl

theorem toldOf_succ :
    rows.toldOf (count + 1) = rows.next.skipped ++ rows.next.rest.toldOf count := rfl

theorem rowsRead_afterSteps : (rows.afterSteps count).rowsRead =
    rows.rowsRead + (rows.itemsOf count).countP isRow := by
  induction count generalizing rows with
  | zero => rfl
  | succ count ih =>
    rw [afterSteps, ih, rows.next_stepping.rowsRead, itemsOf_succ, Nat.add_assoc,
      ← List.countP_append, List.singleton_append]

theorem malformed_afterSteps : (rows.afterSteps count).malformed =
    rows.malformed + (rows.toldOf count).length := by
  induction count generalizing rows with
  | zero => rfl
  | succ count ih =>
    rw [afterSteps, ih, rows.malformed_next, toldOf_succ, List.length_append,
      Nat.add_assoc]

theorem ordinal_toldOf : (rows.toldOf count).map Malformed.ordinal =
    List.range' (rows.malformed + 1) (rows.toldOf count).length := by
  induction count generalizing rows with
  | zero => rfl
  | succ count ih =>
    rw [toldOf_succ, List.map_append, rows.next_stepping.numbered, ih,
      rows.malformed_next, List.length_append, Nat.add_right_comm, List.range'_append_1]

theorem isClosed_afterSteps (backed : rows.Backed) : (rows.afterSteps count).isClosed = true ↔
    (∃ item ∈ rows.itemsOf count, isRow item = false) ∨ rows.isClosed = true := by
  induction count generalizing rows with
  | zero => simp [afterSteps, itemsOf, steps]
  | succ count ih =>
    have stepping := rows.next_stepping
    have early : rows.isClosed = true → isRow rows.next.item? = false := by
      intro closed
      rw [next_of_closed closed]
      rfl
    rw [afterSteps, ih _ stepping.backed, stepping.isClosed backed, itemsOf_succ,
      Bool.not_eq_true']
    simp only [List.mem_cons, exists_eq_or_imp]
    constructor
    · rintro (later | now)
      · exact .inl (.inr later)
      · exact .inl (.inl now)
    · rintro ((now | later) | closed)
      · exact .inr now
      · exact .inl later
      · exact .inr (early closed)

end

section

variable {rows : Rows} (closed : rows.isClosed = true) (count : Nat)
include closed

theorem afterSteps_of_closed : rows.afterSteps count = rows := by
  induction count with
  | zero => rfl
  | succ count ih =>
    rw [afterSteps, next_of_closed closed]
    exact ih

theorem itemsOf_of_closed : rows.itemsOf count = List.replicate count none := by
  induction count with
  | zero => rfl
  | succ count ih =>
    rw [itemsOf_succ, next_of_closed closed, List.replicate_succ]
    exact congrArg (none :: ·) ih

theorem toldOf_of_closed : rows.toldOf count = [] := by
  induction count with
  | zero => rfl
  | succ count ih =>
    rw [toldOf_succ, next_of_closed closed]
    exact ih

end

section

variable (rows : Rows) (count more : Nat)

theorem afterSteps_add :
    rows.afterSteps (count + more) = (rows.afterSteps count).afterSteps more := by
  induction count generalizing rows with
  | zero => rw [Nat.zero_add]; rfl
  | succ count ih =>
    rw [Nat.add_right_comm]
    exact ih _

theorem steps_add : rows.steps (count + more) =
    rows.steps count ++ (rows.afterSteps count).steps more := by
  induction count generalizing rows with
  | zero => rw [Nat.zero_add]; rfl
  | succ count ih =>
    rw [Nat.add_right_comm, steps, ih]
    rfl

end

/-- Rows, then a failure if there is one, then nothing for so many steps. -/
def fused (met : List Row) (failed? : Option TableError) (idle : Nat) :
    List (Option (Except TableError Row)) :=
  met.map (fun row => some (.ok row)) ++ failed?.toList.map (fun error => some (.error error)) ++
    List.replicate idle none

theorem countP_fused (met : List Row) (failed? : Option TableError) (idle : Nat) :
    (fused met failed? idle).countP isRow = met.length := by
  have all : met.countP (isRow ∘ fun row => some (.ok row)) = met.length :=
    List.countP_eq_length.mpr fun _ _ => rfl
  have failed : failed?.toList.countP (isRow ∘ fun error => some (.error error)) = 0 :=
    List.countP_eq_zero.mpr fun _ _ => Bool.false_ne_true
  have nothing : (List.replicate idle none).countP isRow = 0 := by
    rw [List.countP_replicate]
    rfl
  rw [fused, List.countP_append, List.countP_append, List.countP_map, List.countP_map, all, failed,
    nothing]
  rfl

theorem exists_itemsOf (rows : Rows) (count : Nat) :
    ∃ (met : List Row) (failed? : Option TableError) (idle : Nat),
      rows.itemsOf count = fused met failed? idle := by
  induction count generalizing rows with
  | zero => exact ⟨[], none, 0, rfl⟩
  | succ count ih =>
    have still (last : ∀ met, rows.next.item? ≠ some (.ok met)) :
        rows.next.rest.itemsOf count = List.replicate count none :=
      itemsOf_of_closed ((isClosed_iff _).mpr (closed_of_last last)) count
    cases read : rows.next.item? with
    | none =>
      refine ⟨[], none, count + 1, ?_⟩
      rw [itemsOf_succ, still (by simp [read]), read]
      rfl
    | some item =>
      cases item with
      | error reason =>
        refine ⟨[], some reason, count, ?_⟩
        rw [itemsOf_succ, still (by simp [read]), read]
        rfl
      | ok row =>
        obtain ⟨met, failed?, idle, later⟩ := ih rows.next.rest
        refine ⟨row :: met, failed?, idle, ?_⟩
        rw [itemsOf_succ, later, read]
        rfl

theorem opened_of_source {dialect : Dialect} {input : String} {source : Source} {rows : Rows}
    (opened : ofSource dialect input source = .ok rows) :
    rows.Backed ∧ rows.rowsRead = 0 ∧ rows.malformed = 0 ∧
      (rows.isClosed = true ↔
        recordsOf dialect.delimiter (Table.drain dialect.delimiter { source := source }) = []) := by
  rw [recordsOf_drain, filled_eq]
  rw [ofSource] at opened
  generalize nextFilled dialect.delimiter { source := source } = step at opened ⊢
  obtain ⟨outcome, rest⟩ := step
  cases outcome with
  | failure reason => cases opened
  | finished =>
    cases opened
    exact ⟨fun _ => rfl, rfl, rfl, iff_of_true rfl rfl⟩
  | record bytes ending =>
    have some : (Outcome.record bytes ending :: filled dialect.delimiter rest).filterMap
        Outcome.bytes? ≠ [] := List.cons_ne_nil _ _
    dsimp only at opened ⊢
    split at opened
    · cases opened
    · split at opened <;> cases opened <;>
        exact ⟨fun none => absurd none (Option.some_ne_none _), rfl, rfl,
          iff_of_false Bool.false_ne_true some⟩

/-- Everything that can be asked of a table while it is read step by step.  It yields rows, then at
most one failure, then nothing.  The rows that it counts are those that it has yielded, and the
records passed over that it counts are those that it has told, under their numbers.  Once it has
yielded something else than a row it stays as it is, and tells nothing more.  It is closed when it
has yielded something else than a row, or has no records at all. -/
theorem steps_bookkeeping {dialect : Dialect} {input : String} {source : Source} {rows : Rows}
    (opened : ofSource dialect input source = .ok rows) (count : Nat) :
    let items := rows.itemsOf count
    let told := rows.toldOf count
    let now := rows.afterSteps count
    let spent := ∃ item ∈ items, isRow item = false
    (∃ (met : List Row) (failed? : Option TableError) (idle : Nat),
      items = fused met failed? idle ∧ now.rowsRead = met.length) ∧
    now.malformed = told.length ∧
    told.map Malformed.ordinal = List.range' 1 now.malformed ∧
    (spent → ∀ more, rows.itemsOf (count + more) = items ++ List.replicate more none ∧
      rows.toldOf (count + more) = told ∧ rows.afterSteps (count + more) = now) ∧
    (now.isClosed = true ↔ spent ∨
      recordsOf dialect.delimiter (Table.drain dialect.delimiter { source := source }) = []) := by
  intro items told now spent
  obtain ⟨backed, unread, untold, blank⟩ := opened_of_source opened
  have closed := rows.isClosed_afterSteps count backed
  have skipped : now.malformed = told.length := by
    rw [rows.malformed_afterSteps, untold, Nat.zero_add]
  refine ⟨?_, skipped, ?_, fun past more => ?_, closed.trans (or_congr_right blank)⟩
  · obtain ⟨met, failed?, idle, same⟩ := rows.exists_itemsOf count
    refine ⟨met, failed?, idle, same, ?_⟩
    rw [rows.rowsRead_afterSteps, unread, Nat.zero_add, same, countP_fused]
  · rw [skipped, rows.ordinal_toldOf, untold]
  · have ended : now.isClosed = true := closed.mpr (.inl past)
    refine ⟨?_, ?_, ?_⟩
    · rw [itemsOf, steps_add, List.map_append]
      exact congrArg (items ++ ·) (itemsOf_of_closed ended more)
    · rw [toldOf, steps_add, List.flatMap_append]
      exact (congrArg (told ++ ·) (toldOf_of_closed ended more)).trans (List.append_nil told)
    · rw [afterSteps_add]
      exact afterSteps_of_closed ended more

/-- The source fails behind a row and a record that cannot be split, and could be read on. -/
theorem steps_bookkeeping_failing :
    let source : Source := [.bytes (Text.Utf8.encode "a,b\n1,2\n\"x\"y,3\n"), .failure "reset",
      .bytes (Text.Utf8.encode "4,5\n")]
    ∃ rows, ofSource {} "t.csv" source = .ok rows ∧
      (rows.itemsOf 2).map isRow = [true, false] ∧
      (rows.afterSteps 2).malformed = (rows.toldOf 2).length ∧
      (rows.afterSteps 2).isClosed = true ∧
      ∀ more, rows.itemsOf (2 + more) = rows.itemsOf 2 ++ List.replicate more none := by
  intro source
  have seen : (ofSource {} "t.csv" source).toOption.map (fun rows =>
      (rows.itemsOf 2).map isRow) = some [true, false] := by
    decide +kernel
  cases opened : ofSource {} "t.csv" source with
  | error reason =>
    rw [opened] at seen
    cases seen
  | ok rows =>
    rw [opened] at seen
    have flags : (rows.itemsOf 2).map isRow = [true, false] := Option.some.inj seen
    have last : false ∈ (rows.itemsOf 2).map isRow := by
      rw [flags]
      decide
    obtain ⟨item, member, same⟩ := List.mem_map.mp last
    obtain ⟨-, counted, -, still, closed⟩ := steps_bookkeeping opened 2
    exact ⟨rows, rfl, flags, counted, closed.mpr (.inl ⟨item, member, same⟩),
      fun more => (still ⟨item, member, same⟩ more).1⟩

end Rows

end Rollup.Table
