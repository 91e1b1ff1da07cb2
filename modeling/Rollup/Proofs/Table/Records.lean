import Rollup.Proofs.Table.Events

/-! A table as a list of records.  The first record that is not blank names the columns, and each
record behind it is a row if it can be split and is reported under the next number if it cannot.
Main statement: when the calls for a record begin with some records, the table begins with the
rows and the reports of these records. -/

namespace Rollup.Table

def Outcome.bytes? : Outcome → Option (List UInt8)
  | .record bytes _ => some bytes
  | .failure _ => none
  | .finished => none

def Outcome.IsRecord (outcome : Outcome) : Prop := ∃ bytes ending, outcome = .record bytes ending

def recordsOf (delimiter : UInt8) (outcomes : List Outcome) : List (List UInt8) :=
  (outcomes.filterMap Outcome.bytes?).filter (!isBlankRecord delimiter ·)

def rowsIn (header : Header) (delimiter : UInt8) (records : List (List UInt8)) : List Row :=
  records.filterMap fun record =>
    (decodeRecord delimiter record).toOption.map (Row.ofValues header)

def spoiledIn (delimiter : UInt8) (records : List (List UInt8)) :
    List (List UInt8 × RecordError) :=
  records.filterMap fun record =>
    match decodeRecord delimiter record with
    | .ok _ => none
    | .error reason => some (record, reason)

/-- The reports of such records, numbered on from those before. -/
def reports (before : Nat) : List (List UInt8 × RecordError) → List Malformed
  | [] => []
  | (record, reason) :: rest => ⟨before + 1, preview record, reason⟩ :: reports (before + 1) rest

@[simp] theorem length_reports (before : Nat) (spoiled : List (List UInt8 × RecordError)) :
    (reports before spoiled).length = spoiled.length := by
  induction spoiled generalizing before with
  | nil => rfl
  | cons first rest ih => exact congrArg (· + 1) (ih (before + 1))

theorem ordinal_reports (before : Nat) (spoiled : List (List UInt8 × RecordError)) :
    (reports before spoiled).map Malformed.ordinal = List.range' (before + 1) spoiled.length := by
  induction spoiled generalizing before with
  | nil => rfl
  | cons first rest ih => exact congrArg ((before + 1) :: ·) (ih (before + 1))

theorem told_reports (before : Nat) (spoiled : List (List UInt8 × RecordError)) :
    ((reports before spoiled).map fun report => (report.preview, report.reason)) =
      spoiled.map fun (record, reason) => (preview record, reason) := by
  induction spoiled generalizing before with
  | nil => rfl
  | cons first rest ih => exact congrArg (_ :: ·) (ih (before + 1))

theorem rowsIn_cons (header : Header) (delimiter : UInt8) (record : List UInt8)
    (rest : List (List UInt8)) : rowsIn header delimiter (record :: rest) =
      match decodeRecord delimiter record with
      | .ok values => .ofValues header values :: rowsIn header delimiter rest
      | .error _ => rowsIn header delimiter rest := by
  rw [rowsIn, List.filterMap_cons]
  cases decodeRecord delimiter record <;> rfl

theorem spoiledIn_cons (delimiter : UInt8) (record : List UInt8) (rest : List (List UInt8)) :
    spoiledIn delimiter (record :: rest) =
      match decodeRecord delimiter record with
      | .ok _ => spoiledIn delimiter rest
      | .error reason => (record, reason) :: spoiledIn delimiter rest := by
  rw [spoiledIn, List.filterMap_cons]
  cases decodeRecord delimiter record <;> rfl

theorem length_rowsIn_add_spoiledIn (header : Header) (delimiter : UInt8)
    (records : List (List UInt8)) :
    (rowsIn header delimiter records).length + (spoiledIn delimiter records).length =
      records.length := by
  induction records with
  | nil => rfl
  | cons record rest ih =>
    rw [rowsIn_cons, spoiledIn_cons]
    cases decodeRecord delimiter record <;> simp only [List.length_cons] <;> omega

theorem recordsOf_eq_filterMap (delimiter : UInt8) (outcomes : List Outcome) :
    recordsOf delimiter outcomes =
      (outcomes.filter (Outcome.isFilled delimiter)).filterMap Outcome.bytes? := by
  unfold recordsOf
  induction outcomes with
  | nil => rfl
  | cons outcome rest ih =>
    cases outcome with
    | record bytes ending =>
      cases blank : isBlankRecord delimiter bytes <;>
        simp [Outcome.bytes?, Outcome.isFilled, blank, ih]
    | failure reason =>
      rw [List.filterMap_cons_none rfl, List.filter_cons_of_pos rfl, List.filterMap_cons_none rfl]
      exact ih
    | finished =>
      rw [List.filterMap_cons_none rfl, List.filter_cons_of_pos rfl, List.filterMap_cons_none rfl]
      exact ih

theorem recordsOf_drain (delimiter : UInt8) (feed : Feed) :
    recordsOf delimiter (drain delimiter feed) =
      (filled delimiter feed).filterMap Outcome.bytes? :=
  recordsOf_eq_filterMap delimiter (drain delimiter feed)

theorem finished_not_mem_drain (delimiter : UInt8) (feed : Feed) :
    .finished ∉ drain delimiter feed := by
  fun_induction drain delimiter feed with
  | case1 feed step more lighter ih =>
    intro member
    rcases List.mem_cons.mp member with same | later
    · exact more same.symm
    · exact ih later
  | case2 => exact List.not_mem_nil

theorem finished_not_mem_filled (delimiter : UInt8) (feed : Feed) :
    .finished ∉ filled delimiter feed :=
  fun member => finished_not_mem_drain delimiter feed (List.mem_filter.mp member).1

theorem failure_of_mem_drain {delimiter : UInt8} {feed : Feed} {origin : Source}
    (stop : feed.stop? = origin.stop?) {reason : String}
    (member : .failure reason ∈ drain delimiter feed) : .failure reason ∈ origin := by
  have reading := nextRecord_reading delimiter feed
  generalize result : nextRecord delimiter feed = step at reading
  have lighter : step.1 ≠ .finished → step.2.weight < feed.weight := by
    intro more
    rw [← result] at more ⊢
    exact nextRecord_weight delimiter feed more
  have later (given : step.1 ≠ .finished) (other : step.1 ≠ .failure reason) :
      .failure reason ∈ drain delimiter step.2 := by
    rw [drain_of_read result given] at member
    exact (List.mem_cons.mp member).resolve_left (Ne.symm other)
  cases reading with
  | finished =>
    rw [drain_of_finished result] at member
    exact absurd member List.not_mem_nil
  | line read | input _ _ read | unterminated _ read | cut _ read =>
    have := lighter nofun
    refine failure_of_mem_drain ?_ (later nofun nofun)
    exact read.stop.trans stop
  | @failure cause after unbroken stopped =>
    have := lighter nofun
    obtain ⟨front, rfl⟩ := Source.exists_of_stop (stop.symm.trans stopped)
    by_cases same : cause = reason
    · simp [same]
    · have behind : Delivery.failure reason ∈ after := by
        refine failure_of_mem_drain ?_ (later nofun (by simpa using same))
        rfl
      simp [behind]
termination_by feed.weight

def eventsOf (header : Header) (delimiter : UInt8) (before : Nat) :
    List (List UInt8) → List Event
  | [] => []
  | record :: rest =>
    match decodeRecord delimiter record with
    | .ok values => .row (.ofValues header values) :: eventsOf header delimiter before rest
    | .error reason =>
      .skipped ⟨before + 1, preview record, reason⟩ ::
        eventsOf header delimiter (before + 1) rest

theorem rows_eventsOf (header : Header) (delimiter : UInt8) (before : Nat)
    (records : List (List UInt8)) :
    (eventsOf header delimiter before records).filterMap Event.row? =
      rowsIn header delimiter records := by
  induction records generalizing before with
  | nil => rfl
  | cons record rest ih =>
    rw [rowsIn_cons, eventsOf]
    cases decodeRecord delimiter record with
    | ok values => exact congrArg (_ :: ·) (ih before)
    | error reason => exact ih (before + 1)

theorem skipped_eventsOf (header : Header) (delimiter : UInt8) (before : Nat)
    (records : List (List UInt8)) :
    (eventsOf header delimiter before records).filterMap Event.skipped? =
      reports before (spoiledIn delimiter records) := by
  induction records generalizing before with
  | nil => rfl
  | cons record rest ih =>
    rw [spoiledIn_cons, eventsOf]
    cases decodeRecord delimiter record with
    | ok values => exact ih before
    | error reason => exact congrArg (_ :: ·) (ih (before + 1))

theorem rows_after_eventsOf (course : Course) (header : Header) (delimiter : UInt8)
    (before : Nat) (records : List (List UInt8)) :
    (course.after (eventsOf header delimiter before records)).rows =
      rowsIn header delimiter records ++ course.rows := by
  rw [Course.rows, Course.after, List.filterMap_append, rows_eventsOf]
  rfl

theorem skipped_after_eventsOf (course : Course) (header : Header) (delimiter : UInt8)
    (before : Nat) (records : List (List UInt8)) :
    (course.after (eventsOf header delimiter before records)).skipped =
      reports before (spoiledIn delimiter records) ++ course.skipped := by
  rw [Course.skipped, Course.after, List.filterMap_append, skipped_eventsOf]
  rfl

/-- The events of some records come first, and the numbers go on behind them. -/
theorem courseOf_records (input : String) (header : Header) (delimiter : UInt8) (before : Nat)
    {front : List Outcome} (records : ∀ outcome ∈ front, outcome.IsRecord)
    (back : List Outcome) :
    courseOf input header delimiter before (front ++ back) =
      (courseOf input header delimiter
        (before + (spoiledIn delimiter (front.filterMap Outcome.bytes?)).length) back).after
          (eventsOf header delimiter before (front.filterMap Outcome.bytes?)) := by
  induction front generalizing before with
  | nil => rfl
  | cons outcome rest ih =>
    obtain ⟨⟨bytes, ending, rfl⟩, others⟩ := List.forall_mem_cons.mp records
    have first : (Outcome.record bytes ending :: rest).filterMap Outcome.bytes? =
        bytes :: rest.filterMap Outcome.bytes? := rfl
    rw [first, spoiledIn_cons, eventsOf, List.cons_append, courseOf]
    cases decodeRecord delimiter bytes with
    | ok values =>
      dsimp only
      rw [ih before others, Course.after_after, List.singleton_append]
    | error reason =>
      dsimp only
      rw [ih (before + 1) others, Course.after_after, List.singleton_append, List.length_cons,
        Nat.add_right_comm, Nat.add_assoc]

theorem isRecord_of_courseOf (input : String) (header : Header) (delimiter : UInt8)
    (before : Nat) {outcomes : List Outcome} (more : .finished ∉ outcomes)
    (calm : (courseOf input header delimiter before outcomes).failure? = none) :
    ∀ outcome ∈ outcomes, outcome.IsRecord := by
  induction outcomes generalizing before with
  | nil => exact List.forall_mem_nil _
  | cons outcome rest ih =>
    cases outcome with
    | finished => exact absurd List.mem_cons_self more
    | failure reason => cases calm
    | record bytes ending =>
      refine List.forall_mem_cons.mpr ⟨⟨bytes, ending, rfl⟩, ?_⟩
      have later : .finished ∉ rest := fun member => more (List.mem_cons_of_mem _ member)
      unfold courseOf at calm
      split at calm
      · exact ih before later calm
      · exact ih (before + 1) later calm

theorem unreadable_of_courseOf {input : String} {header : Header} {delimiter : UInt8}
    {before : Nat} {outcomes : List Outcome} {error : TableError}
    (failed : (courseOf input header delimiter before outcomes).failure? = some error) :
    ∃ reason, error = .unreadable input reason ∧ .failure reason ∈ outcomes := by
  induction outcomes generalizing before with
  | nil => cases failed
  | cons outcome rest ih =>
    have later (count : Nat)
        (failed : (courseOf input header delimiter count rest).failure? = some error) :
        ∃ reason, error = .unreadable input reason ∧ .failure reason ∈ outcome :: rest := by
      obtain ⟨reason, same, member⟩ := ih failed
      exact ⟨reason, same, List.mem_cons_of_mem _ member⟩
    cases outcome with
    | finished => cases failed
    | failure reason => exact ⟨reason, (Option.some.inj failed).symm, List.mem_cons_self⟩
    | record bytes ending =>
      unfold courseOf at failed
      split at failed
      · exact later before failed
      · exact later (before + 1) failed

def Dialect.headerOf (dialect : Dialect) (fields : List String) : Header :=
  if dialect.hasHeader then ⟨fields⟩ else .synthesized fields.length

def Dialect.bodyOf {α : Type} (dialect : Dialect) (records : List α) : List α :=
  if dialect.hasHeader then records.tail else records

theorem Dialect.bodyOf_append {α : Type} (dialect : Dialect) (first : α) (front back : List α) :
    dialect.bodyOf (first :: front ++ back) = dialect.bodyOf (first :: front) ++ back := by
  unfold bodyOf
  split <;> rfl

theorem Dialect.filterMap_bodyOf (dialect : Dialect) (bytes : List UInt8) (ending : Ending)
    (rest : List Outcome) :
    (dialect.bodyOf (.record bytes ending :: rest)).filterMap Outcome.bytes? =
      dialect.bodyOf (bytes :: rest.filterMap Outcome.bytes?) := by
  unfold bodyOf
  split <;> rfl

theorem contentOf_record (dialect : Dialect) (input : String) (bytes : List UInt8)
    (ending : Ending) (rest : List Outcome) :
    contentOf dialect input (.record bytes ending :: rest) =
      match decodeRecord dialect.delimiter bytes with
      | .error reason => .error (.badHeader input reason)
      | .ok fields =>
        .ok ⟨input, dialect.headerOf fields, courseOf input (dialect.headerOf fields)
          dialect.delimiter 0 (dialect.bodyOf (.record bytes ending :: rest))⟩ := by
  rw [contentOf]
  unfold Dialect.headerOf Dialect.bodyOf
  cases decodeRecord dialect.delimiter bytes with
  | error reason => rfl
  | ok fields => cases dialect.hasHeader <;> rfl

theorem Dialect.mem_bodyOf {α : Type} (dialect : Dialect) {first item : α} {rest : List α}
    (member : item ∈ rest) : item ∈ dialect.bodyOf (first :: rest) := by
  unfold bodyOf
  split
  · exact member
  · exact List.mem_cons_of_mem first member

theorem Dialect.mem_of_mem_bodyOf {α : Type} {dialect : Dialect} {items : List α} {item : α}
    (member : item ∈ dialect.bodyOf items) : item ∈ items := by
  unfold bodyOf at member
  split at member
  · exact List.mem_of_mem_tail member
  · exact member

theorem unreadable_of_content {dialect : Dialect} {input : String} {outcomes : List Outcome}
    {content : Content} (opened : contentOf dialect input outcomes = .ok content)
    {error : TableError} (failed : content.course.failure? = some error) :
    ∃ reason, error = .unreadable input reason ∧ .failure reason ∈ outcomes := by
  match outcomes with
  | [] | .finished :: _ =>
    cases opened
    cases failed
  | .failure reason :: _ => cases opened
  | .record bytes ending :: rest =>
    rw [contentOf_record] at opened
    split at opened
    · cases opened
    · cases opened
      obtain ⟨reason, same, member⟩ := unreadable_of_courseOf failed
      exact ⟨reason, same, Dialect.mem_of_mem_bodyOf member⟩

theorem contentOf_records {dialect : Dialect} (input : String) {bytes : List UInt8}
    {fields : List String} (split : decodeRecord dialect.delimiter bytes = .ok fields)
    (ending : Ending) {rest : List Outcome} (records : ∀ outcome ∈ rest, outcome.IsRecord)
    (back : List Outcome) :
    let header := dialect.headerOf fields
    let body := dialect.bodyOf (bytes :: rest.filterMap Outcome.bytes?)
    contentOf dialect input (.record bytes ending :: rest ++ back) =
      .ok ⟨input, header, (courseOf input header dialect.delimiter
        (spoiledIn dialect.delimiter body).length back).after
          (eventsOf header dialect.delimiter 0 body)⟩ := by
  have all : ∀ outcome ∈ dialect.bodyOf (.record bytes ending :: rest), outcome.IsRecord :=
    fun outcome member =>
      List.forall_mem_cons.mpr ⟨⟨bytes, ending, rfl⟩, records⟩ outcome
        (Dialect.mem_of_mem_bodyOf member)
  have course := courseOf_records input (dialect.headerOf fields) dialect.delimiter 0 all back
  rw [dialect.filterMap_bodyOf, Nat.zero_add, ← dialect.bodyOf_append] at course
  intro header body
  rw [List.cons_append, contentOf_record, split, ← course]
  rfl

theorem isRecord_of_content {dialect : Dialect} {input : String} {outcomes : List Outcome}
    {content : Content} (opened : contentOf dialect input outcomes = .ok content)
    (more : .finished ∉ outcomes) (calm : content.course.failure? = none) :
    ∀ outcome ∈ outcomes, outcome.IsRecord := by
  match outcomes with
  | [] => exact List.forall_mem_nil _
  | .finished :: _ => exact absurd List.mem_cons_self more
  | .failure reason :: _ => cases opened
  | .record bytes ending :: rest =>
    rw [contentOf_record] at opened
    split at opened
    · cases opened
    · cases opened
      have body := isRecord_of_courseOf input _ _ 0
        (fun member => more (Dialect.mem_of_mem_bodyOf member)) calm
      exact List.forall_mem_cons.mpr
        ⟨⟨bytes, ending, rfl⟩, fun outcome member => body outcome (dialect.mem_bodyOf member)⟩

theorem exists_records_of_content {dialect : Dialect} {input : String} {feed : Feed}
    {content : Content}
    (opened : contentOf dialect input (filled dialect.delimiter feed) = .ok content)
    (named : content.header.isEmpty = false) (calm : content.course.failure? = none) :
    ∃ first rest fields,
      recordsOf dialect.delimiter (drain dialect.delimiter feed) = first :: rest ∧
      decodeRecord dialect.delimiter first = .ok fields ∧
      content.header = dialect.headerOf fields ∧
      content.course.rows =
        rowsIn content.header dialect.delimiter (dialect.bodyOf (first :: rest)) ∧
      content.course.skipped =
        reports 0 (spoiledIn dialect.delimiter (dialect.bodyOf (first :: rest))) := by
  have records := isRecord_of_content opened (finished_not_mem_filled _ _) calm
  rw [recordsOf_drain]
  generalize filled dialect.delimiter feed = outcomes at opened records ⊢
  match outcomes with
  | [] =>
    cases opened
    cases named
  | outcome :: rest =>
    obtain ⟨⟨bytes, ending, rfl⟩, others⟩ := List.forall_mem_cons.mp records
    cases split : decodeRecord dialect.delimiter bytes with
    | error reason =>
      rw [contentOf_record, split] at opened
      cases opened
    | ok fields =>
      have told := contentOf_records input split ending others []
      rw [List.append_nil, opened] at told
      cases told
      refine ⟨bytes, rest.filterMap Outcome.bytes?, fields, rfl, split, rfl, ?_, ?_⟩
      · rw [rows_after_eventsOf]
        exact List.append_nil _
      · rw [skipped_after_eventsOf]
        exact List.append_nil _

end Rollup.Table
