import Rollup.Proofs.Run.Outline
import Rollup.Proofs.Table.Boundary

/-! One more record between two lines of a table.  A blank one is not seen at all, and one that
cannot be split is seen by nothing but the count of such records: it moves the numbers of the
malformed records behind it and leaves every row as it is.  Main statement: a run on the longer
table gives the same analysis, with one malformed row more. -/

namespace Rollup

open Table Rollup.Filter Rollup.Group

namespace Table

/-- The second course has the rows and the end of the first one, and so many more records passed
over. -/
structure Course.Longer (more : Nat) (course other : Course) : Prop where
  rows : other.rows = course.rows
  failure : other.failure? = course.failure?
  skipped : other.skipped.length = course.skipped.length + more

namespace Course.Longer

variable {more : Nat} {course other : Course}

theorem behind_row (longer : Longer more course other) (met : Row) :
    Longer more (course.after [.row met]) (other.after [.row met]) :=
  ⟨congrArg (met :: ·) longer.rows, longer.failure, longer.skipped⟩

theorem behind_skipped (longer : Longer more course other) (record record' : Malformed) :
    Longer more (course.after [.skipped record]) (other.after [.skipped record']) :=
  ⟨longer.rows, longer.failure, by
    simp only [skipped_after_skipped, List.length_cons, longer.skipped, Nat.add_right_comm]⟩

end Course.Longer

section

variable (input : String) (header : Header) {delimiter : UInt8}

theorem courseOf_renumbered (before before' : Nat) (outcomes : List Outcome) :
    (courseOf input header delimiter before outcomes).Longer 0
      (courseOf input header delimiter before' outcomes) := by
  induction outcomes generalizing before before' with
  | nil => exact ⟨rfl, rfl, rfl⟩
  | cons outcome rest ih =>
    cases outcome with
    | failure reason => exact ⟨rfl, rfl, rfl⟩
    | finished => exact ⟨rfl, rfl, rfl⟩
    | record bytes ending =>
      unfold courseOf
      split
      · exact (ih before before').behind_row _
      · exact (ih (before + 1) (before' + 1)).behind_skipped _ _

variable {bytes : List UInt8} (ending : Ending) {reason : RecordError}

theorem courseOf_insert (malformed : decodeRecord delimiter bytes = .error reason) (before : Nat)
    {front : List Outcome} (back : List Outcome) (lines : ∀ outcome ∈ front, outcome.IsLine) :
    (courseOf input header delimiter before (front ++ back)).Longer 1
      (courseOf input header delimiter before (front ++ .record bytes ending :: back)) := by
  induction front generalizing before with
  | nil =>
    have renumbered : (courseOf input header delimiter before back).Longer 0
        (courseOf input header delimiter (before + 1) back) :=
      courseOf_renumbered input header before (before + 1) back
    simp only [List.nil_append, courseOf, malformed]
    exact ⟨renumbered.rows, renumbered.failure, congrArg (· + 1) renumbered.skipped⟩
  | cons outcome rest ih =>
    obtain ⟨⟨stem, terminator, rfl⟩, others⟩ := List.forall_mem_cons.mp lines
    simp only [List.cons_append, courseOf]
    split
    · exact (ih before others).behind_row _
    · exact (ih (before + 1) others).behind_skipped _ _

theorem contentOf_insert {dialect : Dialect} {content : Content}
    (malformed : decodeRecord dialect.delimiter bytes = .error reason) {front : List Outcome}
    (back : List Outcome) (lines : ∀ outcome ∈ front, outcome.IsLine) (headed : front ≠ [])
    (opened : contentOf dialect input (front ++ back) = .ok content) :
    ∃ other, contentOf dialect input (front ++ .record bytes ending :: back) = .ok other ∧
      other.input = content.input ∧ other.header = content.header ∧
      content.course.Longer 1 other.course := by
  cases front with
  | nil => exact absurd rfl headed
  | cons first rest =>
    obtain ⟨⟨stem, terminator, rfl⟩, others⟩ := List.forall_mem_cons.mp lines
    simp only [List.cons_append, contentOf] at opened ⊢
    cases named : decodeRecord dialect.delimiter stem with
    | error reason =>
      rw [named] at opened
      cases opened
    | ok names =>
      simp only [named] at opened ⊢
      cases shown : dialect.hasHeader with
      | true =>
        simp only [shown, if_true] at opened ⊢
        cases opened
        exact ⟨_, rfl, rfl, rfl, courseOf_insert input _ ending malformed 0 back others⟩
      | false =>
        simp only [shown, Bool.false_eq_true, if_false] at opened ⊢
        cases opened
        exact ⟨_, rfl, rfl, rfl, courseOf_insert input _ ending malformed 0 back lines⟩

end

end Table

/-- A run on a longer course counts its malformed records, and sees no other difference. -/
theorem Settings.runOf_longer {settings : Settings} {content other : Content} {more : Nat}
    {analysis : Analysis} (input : other.input = content.input)
    (header : other.header = content.header) (longer : content.course.Longer more other.course)
    (ran : (settings.runOf content).result = .ok analysis) :
    (settings.runOf other).result =
      .ok { analysis with malformedRows := analysis.malformedRows + more } := by
  obtain ⟨named, ended, prepared, checked, rfl⟩ := (settings.runOf_ok_iff _ _).mp ran
  rw [runOf_ok_iff, header, longer.failure]
  refine ⟨named, ended, prepared, checked, ?_⟩
  have accepted : prepared.accepted other = prepared.accepted content := by
    rw [Prepared.accepted, longer.rows, Prepared.accepted]
  simp only [Prepared.analysisOf, input, longer.rows, longer.skipped, accepted]

theorem Settings.dialect_of_delimiterByte {settings : Settings} {delimiter : UInt8}
    (accepted : settings.delimiterByte = .ok delimiter) :
    settings.dialect = .ok ⟨delimiter, settings.hasHeader⟩ := by
  rw [dialect, accepted]
  rfl

namespace Table

variable {delimiter : UInt8} {before line after bytes : List UInt8} {terminator : LineBreak}

theorem drain_insert {source : Source}
    (lines : ∀ outcome ∈ drain delimiter (Feed.ofBytes before), outcome.IsLine)
    (single : drain delimiter (Feed.ofBytes line) = [.record bytes (.line terminator)])
    (calm : source.failures = 0) (unread : source.unread = before ++ line ++ after) :
    drain delimiter { source := source } = drain delimiter (Feed.ofBytes before) ++
      .record bytes (.line terminator) :: drain delimiter (Feed.ofBytes after) := by
  rw [List.append_assoc] at unread
  have ended : ∀ outcome ∈ drain delimiter (Feed.ofBytes line), outcome.IsLine := by
    rw [single]
    exact List.forall_mem_singleton.mpr ⟨bytes, terminator, rfl⟩
  have rest : drain delimiter (Feed.ofBytes (line ++ after)) =
      .record bytes (.line terminator) :: drain delimiter (Feed.ofBytes after) := by
    have unread' : (Source.ofBytes (line ++ after)).unread = line ++ after := List.append_nil _
    have parts := drain_unread_append ended (by rfl) unread'
    rw [single] at parts
    exact parts
  rw [drain_unread_append lines calm unread, rest]

theorem filled_insert {source : Source}
    (lines : ∀ outcome ∈ drain delimiter (Feed.ofBytes before), outcome.IsLine)
    (single : drain delimiter (Feed.ofBytes line) = [.record bytes (.line terminator)])
    (calm : source.failures = 0) (unread : source.unread = before ++ line ++ after) :
    filled delimiter { source := source } = filled delimiter (Feed.ofBytes before) ++
      if isBlankRecord delimiter bytes then filled delimiter (Feed.ofBytes after)
      else .record bytes (.line terminator) :: filled delimiter (Feed.ofBytes after) := by
  rw [filled, drain_insert lines single calm unread, List.filter_append, List.filter_cons]
  cases blank : isBlankRecord delimiter bytes <;> simp [filled, Outcome.isFilled, blank]

theorem isLine_of_mem_filled {feed : Feed}
    (lines : ∀ outcome ∈ drain delimiter feed, outcome.IsLine) :
    ∀ outcome ∈ filled delimiter feed, outcome.IsLine :=
  fun outcome member => lines outcome (List.mem_filter.mp member).1

theorem filled_ne_nil {feed : Feed}
    (some : ∃ outcome ∈ drain delimiter feed, outcome.isFilled delimiter = true) :
    filled delimiter feed ≠ [] := by
  obtain ⟨outcome, member, inside⟩ := some
  exact List.ne_nil_of_mem (List.mem_filter.mpr ⟨member, inside⟩)

end Table

/-- A line that is put between two parts of a table, the first of which ends with a record in the
open and has the header.  If it is blank the run is the same; if it cannot be split the run has
one malformed row more. -/
theorem run_insert_line {settings : Settings} {delimiter : UInt8}
    (accepted : settings.delimiterByte = .ok delimiter) (input : String)
    {before line after bytes : List UInt8} {terminator : LineBreak}
    (lines : ∀ outcome ∈ drain delimiter (Feed.ofBytes before), outcome.IsLine)
    (headed : ∃ outcome ∈ drain delimiter (Feed.ofBytes before),
      outcome.isFilled delimiter = true)
    (single : drain delimiter (Feed.ofBytes line) = [.record bytes (.line terminator)])
    {source other : Source} (calm : source.failures = 0) (calm' : other.failures = 0)
    (unread : source.unread = before ++ after)
    (unread' : other.unread = before ++ line ++ after) :
    (isBlankRecord delimiter bytes = true →
      settings.run input other = settings.run input source) ∧
    ∀ reason analysis, isBlankRecord delimiter bytes = false →
      decodeRecord delimiter bytes = .error reason →
      (settings.run input source).result = .ok analysis →
      let longer := { analysis with malformedRows := analysis.malformedRows + 1 }
      (settings.run input other).result = .ok longer ∧
        longer.totalRows = analysis.totalRows + 1 := by
  have spoken := Settings.dialect_of_delimiterByte accepted
  have read := filled_unread_append lines calm unread
  have read' := filled_insert lines single calm' unread'
  constructor
  · intro blank
    rw [if_pos blank, ← read] at read'
    rw [Settings.run_eq, Settings.run_eq, spoken]
    dsimp only
    rw [read']
  · intro reason analysis inked malformed ran
    rw [if_neg (Bool.eq_false_iff.mp inked)] at read'
    obtain ⟨dialect, content, chosen, opened, done⟩ := (settings.run_ok_iff _ _ _).mp ran
    obtain rfl : Dialect.mk delimiter settings.hasHeader = dialect :=
      Except.ok.inj (spoken.symm.trans chosen)
    dsimp only at opened
    rw [read] at opened
    obtain ⟨content', opened', named, header, longer⟩ :=
      contentOf_insert input (.line terminator) malformed _ (isLine_of_mem_filled lines)
        (filled_ne_nil headed) opened
    have done' := Settings.runOf_longer named header longer done
    rw [← read'] at opened'
    refine ⟨(settings.run_ok_iff _ _ _).mpr ⟨_, content', spoken, opened', done'⟩, ?_⟩
    exact (Nat.add_assoc _ _ _).symm

/-- A quote in the middle of a field, then a line of blanks, both before a quote that is never
closed. -/
theorem run_insert_line_before_open_quote :
    let settings : Settings := { groupBy := ["a"], aggregations := ["sum(b)"] }
    let before := Text.Utf8.encode "a,b\n1,2\n"
    let after := Text.Utf8.encode "3,\"4\n5,6"
    let malformed := Text.Utf8.encode "\"x\"y,1\r\n"
    let blank := Text.Utf8.encode " \n"
    ∃ analysis,
      (settings.run "t.csv" [.bytes (before ++ after)]).result = .ok analysis ∧
      (settings.run "t.csv" [.bytes before, .bytes (malformed ++ after)]).result =
        .ok { analysis with malformedRows := analysis.malformedRows + 1 } ∧
      settings.run "t.csv" [.bytes before, .bytes (blank ++ after)] =
        settings.run "t.csv" [.bytes (before ++ after)] := by
  intro settings before after malformed blank
  have accepted : settings.delimiterByte = .ok 0x2C := by rfl
  have records : drain 0x2C (Feed.ofBytes before) =
      [.record [0x61, 0x2C, 0x62] (.line .lineFeed),
        .record [0x31, 0x2C, 0x32] (.line .lineFeed)] := by decide +kernel
  have lines : ∀ outcome ∈ drain 0x2C (Feed.ofBytes before), outcome.IsLine := by
    rw [records]
    exact List.forall_mem_cons.mpr
      ⟨⟨_, _, rfl⟩, List.forall_mem_singleton.mpr ⟨_, _, rfl⟩⟩
  have headed : ∃ outcome ∈ drain 0x2C (Feed.ofBytes before),
      outcome.isFilled 0x2C = true := by decide +kernel
  have single : drain 0x2C (Feed.ofBytes malformed) =
      [.record [0x22, 0x78, 0x22, 0x79, 0x2C, 0x31] (.line .carriageReturnLineFeed)] := by
    decide +kernel
  have single' : drain 0x2C (Feed.ofBytes blank) = [.record [0x20] (.line .lineFeed)] := by
    decide +kernel
  obtain ⟨reason, spoiled⟩ : ∃ reason,
      decodeRecord 0x2C [0x22, 0x78, 0x22, 0x79, 0x2C, 0x31] = .error reason :=
    exists_error_of_toBool (by decide +kernel)
  obtain ⟨analysis, ran⟩ : ∃ analysis,
      (settings.run "t.csv" [.bytes (before ++ after)]).result = .ok analysis :=
    exists_ok_of_toBool (by decide +kernel)
  have unread : Source.unread [.bytes (before ++ after)] = before ++ after := List.append_nil _
  have unread' : Source.unread [.bytes before, .bytes (malformed ++ after)] =
      before ++ malformed ++ after := by decide +kernel
  have unread'' : Source.unread [.bytes before, .bytes (blank ++ after)] =
      before ++ blank ++ after := by decide +kernel
  have counted := (run_insert_line accepted "t.csv" lines headed single rfl rfl unread
    unread').2 reason analysis (by decide) spoiled ran
  have unseen := (run_insert_line accepted "t.csv" lines headed single' rfl rfl unread
    unread'').1 (by decide)
  exact ⟨analysis, ran, counted.1, unseen⟩

end Rollup
