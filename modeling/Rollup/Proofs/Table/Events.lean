import Rollup.Proofs.Table.RoundTrip

/-! What a table holds, as a list of events.  Reading a table meets rows and records that cannot be
split, one after another, until the end or a failure.  Main statements: whoever folds over the rows
folds over these events, and header and events are told by the outcomes of the calls for a record,
with the blank records left out. -/

namespace Rollup.Table

/-- What is met on the way through a table. -/
inductive Event where
  | row (row : Row)
  | skipped (record : Malformed)

namespace Event

def row? : Event → Option Row
  | .row met => some met
  | .skipped _ => none

def skipped? : Event → Option Malformed
  | .row _ => none
  | .skipped record => some record

def take {σ : Type} (onRow : σ → Row → σ) (onMalformed : σ → Malformed → σ) (state : σ) :
    Event → σ
  | .row met => onRow state met
  | .skipped record => onMalformed state record

end Event

/-- All events of a table, and the failure that ends it if one does. -/
structure Course where
  events : List Event
  failure? : Option TableError

namespace Course

def after (course : Course) (events : List Event) : Course :=
  { course with events := events ++ course.events }

def rows (course : Course) : List Row := course.events.filterMap Event.row?

def skipped (course : Course) : List Malformed := course.events.filterMap Event.skipped?

@[simp] theorem skipped_after_skipped (course : Course) (record : Malformed) :
    (course.after [.skipped record]).skipped = record :: course.skipped := rfl

@[simp] theorem after_after (course : Course) (first second : List Event) :
    (course.after second).after first = course.after (first ++ second) := by
  simp [after]

end Course

namespace Rows

def course (rows : Rows) : Course :=
  match read : rows.next.item? with
  | none => ⟨rows.next.skipped.map .skipped, none⟩
  | some (.error reason) => ⟨rows.next.skipped.map .skipped, some reason⟩
  | some (.ok met) =>
    have := rows.weight_next (by simp [read])
    (course rows.next.rest).after (rows.next.skipped.map .skipped ++ [.row met])
termination_by rows.weight

theorem course_eq (rows : Rows) : rows.course =
    match rows.next.item? with
    | none => ⟨rows.next.skipped.map .skipped, none⟩
    | some (.error reason) => ⟨rows.next.skipped.map .skipped, some reason⟩
    | some (.ok met) =>
      rows.next.rest.course.after (rows.next.skipped.map .skipped ++ [.row met]) := by
  rw [course]
  dsimp only
  generalize rows.next.item? = item?
  match item? with
  | none => rfl
  | some (.error reason) => rfl
  | some (.ok met) => rfl

theorem filterMap_skipped (records : List Malformed) :
    (records.map Event.skipped).filterMap Event.skipped? = records := by
  rw [List.filterMap_map]
  exact List.filterMap_some

/-- A pass over the rows folds over the events, and leaves the table with its name and with every
record that was passed over counted. -/
theorem pass_eq_course {σ : Type} (onRow : σ → Row → σ) (onMalformed : σ → Malformed → σ)
    (state : σ) (rows : Rows) :
    let passage := rows.pass onRow onMalformed state
    passage.state = rows.course.events.foldl (Event.take onRow onMalformed) state ∧
    passage.failure? = rows.course.failure? ∧
    passage.rest.input = rows.input ∧
    passage.rest.malformed = rows.malformed + rows.course.skipped.length := by
  dsimp only
  fun_induction course rows generalizing state with
  | case1 rows read | case2 rows reason read =>
    rw [pass_eq, read]
    refine ⟨?_, rfl, rows.input_next, ?_⟩
    · rw [List.foldl_map]
      rfl
    · rw [Course.skipped, filterMap_skipped]
      exact rows.malformed_next
  | case3 rows met read lighter ih =>
    obtain ⟨state', failure, input, malformed⟩ :=
      ih (onRow (rows.next.skipped.foldl onMalformed state) met)
    rw [pass_eq, read]
    refine ⟨state'.trans ?_, failure, input.trans rows.input_next, malformed.trans ?_⟩
    · rw [Course.after, List.foldl_append, List.foldl_append, List.foldl_map]
      rfl
    · have told : (rows.next.rest.course.after
          (rows.next.skipped.map Event.skipped ++ [.row met])).skipped =
          rows.next.skipped ++ rows.next.rest.course.skipped := by
        rw [Course.skipped, Course.after, List.filterMap_append, List.filterMap_append,
          filterMap_skipped, List.append_assoc]
        rfl
      rw [told, malformed_next, List.length_append, Nat.add_assoc]

end Rows

def Outcome.isFilled (delimiter : UInt8) : Outcome → Bool
  | .record bytes _ => !isBlankRecord delimiter bytes
  | .failure _ => true
  | .finished => true

def filled (delimiter : UInt8) (feed : Feed) : List Outcome :=
  (drain delimiter feed).filter (Outcome.isFilled delimiter)

section

variable {delimiter : UInt8} {feed rest : Feed} {outcome : Outcome}

theorem drain_of_read (read : nextRecord delimiter feed = (outcome, rest))
    (more : outcome ≠ .finished) : drain delimiter feed = outcome :: drain delimiter rest := by
  rw [drain]
  simp [read, more]

theorem drain_of_finished (read : nextRecord delimiter feed = (.finished, rest)) :
    drain delimiter feed = [] := by
  rw [drain]
  simp [read]

theorem filled_of_read (read : nextRecord delimiter feed = (outcome, rest))
    (more : outcome ≠ .finished) : filled delimiter feed =
      if outcome.isFilled delimiter then outcome :: filled delimiter rest
      else filled delimiter rest := by
  rw [filled, drain_of_read read more, List.filter_cons]
  rfl

theorem filled_eq (delimiter : UInt8) (feed : Feed) : filled delimiter feed =
    match nextFilled delimiter feed with
    | (.finished, _) => []
    | (outcome, rest) => outcome :: filled delimiter rest := by
  fun_induction nextFilled delimiter feed with
  | case1 feed step bytes ending read blank lighter ih =>
    have same : nextRecord delimiter feed = (.record bytes ending, step.2) := Prod.ext read rfl
    rw [filled_of_read same Outcome.noConfusion, ← ih]
    simp [Outcome.isFilled, blank]
  | case2 feed step bytes ending read inked =>
    have same : step = (.record bytes ending, step.2) := Prod.ext read rfl
    rw [filled_of_read same Outcome.noConfusion, same]
    simp [Outcome.isFilled, inked]
  | case3 feed step reason read =>
    have same : step = (.failure reason, step.2) := Prod.ext read rfl
    rw [filled_of_read same Outcome.noConfusion, same]
    rfl
  | case4 feed step read =>
    have same : step = (.finished, step.2) := Prod.ext read rfl
    rw [filled, drain_of_finished same, same]
    rfl

end

section

variable (input : String) (header : Header) (delimiter : UInt8)

/-- The events of the outcomes behind the header, when so many records were passed over before. -/
def courseOf (before : Nat) : List Outcome → Course
  | [] | .finished :: _ => ⟨[], none⟩
  | .failure reason :: _ => ⟨[], some (.unreadable input reason)⟩
  | .record bytes _ :: rest =>
    match decodeRecord delimiter bytes with
    | .ok values => (courseOf before rest).after [.row (.ofValues header values)]
    | .error reason =>
      (courseOf (before + 1) rest).after [.skipped ⟨before + 1, preview bytes, reason⟩]

theorem courseOf_findFields (before : Nat) (feed : Feed) :
    courseOf input header delimiter before (filled delimiter feed) =
      match findFields delimiter before feed with
      | (.fields values rest, skipped) =>
        (courseOf input header delimiter (before + skipped.length)
          (filled delimiter rest)).after (skipped.map .skipped ++ [.row (.ofValues header values)])
      | (.failure reason, skipped) =>
        ⟨skipped.map .skipped, some (.unreadable input reason)⟩
      | (.finished, skipped) => ⟨skipped.map .skipped, none⟩ := by
  fun_induction findFields delimiter before feed with
  | case1 before feed step bytes ending read values split =>
    have same : nextFilled delimiter feed = (.record bytes ending, step.2) := Prod.ext read rfl
    rw [filled_eq, same]
    simp [courseOf, split]
  | case2 before feed step bytes ending read reason split lighter found later rest ih =>
    have same : nextFilled delimiter feed = (.record bytes ending, step.2) := Prod.ext read rfl
    rw [filled_eq, same]
    simp only [courseOf, split]
    rw [ih, rest]
    cases found with
    | fields values left =>
      simp [Nat.add_assoc, Nat.add_comm 1]
    | failure reason => rfl
    | finished => rfl
  | case3 before feed step reason read =>
    have same : nextFilled delimiter feed = (.failure reason, step.2) := Prod.ext read rfl
    rw [filled_eq, same]
    rfl
  | case4 before feed step read =>
    have same : nextFilled delimiter feed = (.finished, step.2) := Prod.ext read rfl
    rw [filled_eq, same]
    rfl

end

namespace Rows

variable {rows : Rows} {feed : Feed}

theorem next_of_feed (waiting : rows.pending? = none) (opened : rows.feed? = some feed) :
    rows.next =
      let counted (skipped : List Malformed) : Rows :=
        { rows with malformed := rows.malformed + skipped.length }
      match findFields rows.delimiter rows.malformed feed with
      | (.fields values rest, skipped) =>
        { counted skipped with feed? := some rest }.emit values skipped
      | (.failure reason, skipped) =>
        { item? := some (.error (.unreadable rows.input reason)), skipped := skipped,
          rest := (counted skipped).close }
      | (.finished, skipped) =>
        { item? := none, skipped := skipped, rest := (counted skipped).close } := by
  unfold next
  rw [waiting, opened]
  dsimp only
  generalize findFields rows.delimiter rows.malformed feed = result
  obtain ⟨found, skipped⟩ := result
  cases found <;> rfl

theorem course_of_feed (rows : Rows) (feed : Feed) (waiting : rows.pending? = none)
    (opened : rows.feed? = some feed) :
    rows.course = courseOf rows.input rows.header rows.delimiter rows.malformed
      (filled rows.delimiter feed) := by
  have step := next_of_feed waiting opened
  rw [course_eq, courseOf_findFields]
  match found : findFields rows.delimiter rows.malformed feed with
  | (.fields values rest, skipped) =>
    rw [found] at step
    have lighter : rows.next.rest.weight < rows.weight := rows.weight_next (by simp [step, emit])
    have later := course_of_feed rows.next.rest rest (by rw [step]; exact waiting)
      (by rw [step]; rfl)
    rw [later, step]
    rfl
  | (.failure reason, skipped) =>
    rw [step, found]
  | (.finished, skipped) =>
    rw [step, found]
termination_by rows.weight

theorem course_of_closed (waiting : rows.pending? = none) (closed : rows.feed? = none) :
    rows.course = ⟨[], none⟩ := by
  rw [course_eq, next, waiting, closed]
  rfl

theorem course_of_pending {values : List String} (waiting : rows.pending? = some values)
    (opened : rows.feed? = some feed) :
    rows.course = (courseOf rows.input rows.header rows.delimiter rows.malformed
      (filled rows.delimiter feed)).after [.row (.ofValues rows.header values)] := by
  rw [course_eq, next, waiting]
  exact congrArg (Course.after · [_]) (course_of_feed _ feed rfl opened)

end Rows

/-- A table once it is open: its name, its header and all that follows. -/
structure Content where
  input : String
  header : Header
  course : Course

def Rows.content (rows : Rows) : Content := ⟨rows.input, rows.header, rows.course⟩

def contentOf (dialect : Dialect) (input : String) : List Outcome → Except TableError Content
  | [] | .finished :: _ => .ok ⟨input, ⟨[]⟩, ⟨[], none⟩⟩
  | .failure reason :: _ => .error (.unreadable input reason)
  | .record bytes ending :: rest =>
    match decodeRecord dialect.delimiter bytes with
    | .error reason => .error (.badHeader input reason)
    | .ok names =>
      if dialect.hasHeader then
        .ok ⟨input, ⟨names⟩, courseOf input ⟨names⟩ dialect.delimiter 0 rest⟩
      else
        let header := Header.synthesized names.length
        .ok ⟨input, header,
          courseOf input header dialect.delimiter 0 (.record bytes ending :: rest)⟩

theorem content_ofSource (dialect : Dialect) (input : String) (source : Source) :
    (Rows.ofSource dialect input source).map Rows.content =
      contentOf dialect input (filled dialect.delimiter { source := source }) := by
  rw [Rows.ofSource, filled_eq]
  generalize nextFilled dialect.delimiter { source := source } = result
  obtain ⟨outcome, rest⟩ := result
  cases outcome with
  | finished =>
    show Except.ok (Rows.content _) = Except.ok _
    rw [Rows.content, Rows.course_of_closed rfl rfl]
  | failure reason => rfl
  | record bytes ending =>
    dsimp only [contentOf]
    cases split : decodeRecord dialect.delimiter bytes with
    | error reason => rfl
    | ok names =>
      dsimp only
      split
      · show Except.ok (Rows.content _) = Except.ok _
        rw [Rows.content, Rows.course_of_feed _ rest rfl rfl]
      · show Except.ok (Rows.content _) = Except.ok _
        rw [Rows.content, Rows.course_of_pending rfl rfl, courseOf, split]

theorem Rows.malformed_ofSource {dialect : Dialect} {input : String} {source : Source} {rows : Rows}
    (opened : Rows.ofSource dialect input source = .ok rows) : rows.malformed = 0 := by
  unfold Rows.ofSource at opened
  split at opened
  · cases opened
  · cases opened
    rfl
  · split at opened
    · cases opened
    · split at opened <;> cases opened <;> rfl

theorem ofSource_error_iff (dialect : Dialect) (input : String) (source : Source)
    (error : TableError) : Rows.ofSource dialect input source = .error error ↔
      contentOf dialect input (filled dialect.delimiter { source := source }) = .error error := by
  rw [← content_ofSource]
  cases Rows.ofSource dialect input source <;> simp [Except.map]

theorem exists_rows_iff (dialect : Dialect) (input : String) (source : Source)
    (content : Content) :
    (∃ rows, Rows.ofSource dialect input source = .ok rows ∧ rows.content = content) ↔
      contentOf dialect input (filled dialect.delimiter { source := source }) = .ok content := by
  rw [← content_ofSource]
  cases Rows.ofSource dialect input source <;> simp [Except.map]

end Rollup.Table
