import Rollup.Table.Source

/-! What a feed still has to give, told apart from how its reads are cut: the bytes up to the next
failure, and that failure with the source behind it.  Interruptions and empty reads leave no trace
in either.  Main statement: taking a byte, looking at one, and meeting a failure or the end are
decided by these two alone. -/

namespace Rollup.Table

namespace Source

/-- The bytes that can be read before the next failure. -/
def ahead : Source → List UInt8
  | [] => []
  | .bytes chunk :: rest => chunk ++ ahead rest
  | .interruption :: rest => ahead rest
  | .failure _ :: _ => []

/-- The next failure, with what can be read after it. -/
def stop? : Source → Option (String × Source)
  | [] => none
  | .bytes _ :: rest => stop? rest
  | .interruption :: rest => stop? rest
  | .failure reason :: rest => some (reason, rest)

theorem stop?_eq_none_iff (source : Source) : source.stop? = none ↔ source.failures = 0 := by
  induction source with
  | nil => simp [stop?, failures]
  | cons first rest ih =>
    cases first with
    | bytes chunk => simpa [stop?, failures] using ih
    | interruption => simpa [stop?, failures] using ih
    | failure reason => simp [stop?, failures]

theorem unread_eq_ahead (source : Source) (calm : source.stop? = none) :
    source.unread = source.ahead := by
  induction source with
  | nil => rfl
  | cons first rest ih =>
    cases first with
    | bytes chunk =>
      have later := ih calm
      simp only [unread, List.flatMap_cons] at later ⊢
      rw [later]
      rfl
    | interruption => exact ih calm
    | failure reason => cases calm

/-- However its bytes are delivered, a source that fails has them ahead and then the failure. -/
theorem before_failure {front : Source} (calm : front.failures = 0) (reason : String)
    (after : Source) : (front ++ .failure reason :: after).ahead = front.unread ∧
      (front ++ .failure reason :: after).stop? = some (reason, after) := by
  induction front with
  | nil => exact ⟨rfl, rfl⟩
  | cons first rest ih =>
    cases first with
    | bytes chunk =>
      obtain ⟨ahead, stop⟩ := ih (by simpa [failures] using calm)
      exact ⟨congrArg (chunk ++ ·) ahead, stop⟩
    | interruption => exact ih (by simpa [failures] using calm)
    | failure early => simp [failures] at calm

theorem exists_of_stop {source after : Source} {reason : String}
    (stop : source.stop? = some (reason, after)) :
    ∃ front, source = front ++ .failure reason :: after := by
  induction source with
  | nil => cases stop
  | cons first rest ih =>
    cases first with
    | bytes chunk =>
      obtain ⟨front, rfl⟩ := ih stop
      exact ⟨.bytes chunk :: front, rfl⟩
    | interruption =>
      obtain ⟨front, rfl⟩ := ih stop
      exact ⟨.interruption :: front, rfl⟩
    | failure early =>
      cases stop
      exact ⟨[], rfl⟩

theorem pull_byte {source rest : Source} {byte : UInt8}
    (pulled : source.pull = .byte byte rest) :
    source.ahead = byte :: rest.ahead ∧ rest.stop? = source.stop? := by
  induction source with
  | nil => cases pulled
  | cons first others ih =>
    match first with
    | .bytes [] => exact ih pulled
    | .bytes (b :: chunk) =>
      cases pulled
      exact ⟨rfl, rfl⟩
    | .interruption => exact ih pulled
    | .failure reason => cases pulled

theorem pull_failure {source rest : Source} {reason : String}
    (pulled : source.pull = .failure reason rest) :
    source.ahead = [] ∧ source.stop? = some (reason, rest) := by
  induction source with
  | nil => cases pulled
  | cons first others ih =>
    match first with
    | .bytes [] => exact ih pulled
    | .bytes (b :: chunk) => cases pulled
    | .interruption => exact ih pulled
    | .failure reason =>
      cases pulled
      exact ⟨rfl, rfl⟩

theorem pull_finished {source : Source} (pulled : source.pull = .finished) :
    source.ahead = [] ∧ source.stop? = none := by
  induction source with
  | nil => exact ⟨rfl, rfl⟩
  | cons first others ih =>
    match first with
    | .bytes [] => exact ih pulled
    | .bytes (b :: chunk) => cases pulled
    | .interruption => exact ih pulled
    | .failure reason => cases pulled

end Source

namespace Feed

/-- The bytes that can be read before the next failure, the queued ones first. -/
def ahead (feed : Feed) : List UInt8 := feed.queued ++ feed.source.ahead

def stop? (feed : Feed) : Option (String × Source) := feed.source.stop?

/-- Some bytes have been taken from a feed, and nothing else has happened to it. -/
structure Consumed (feed : Feed) (bytes : List UInt8) (rest : Feed) : Prop where
  ahead : feed.ahead = bytes ++ rest.ahead
  stop : rest.stop? = feed.stop?
  queued : rest.queued = feed.queued.drop bytes.length

theorem Consumed.refl (feed : Feed) : feed.Consumed [] feed := ⟨rfl, rfl, rfl⟩

theorem Consumed.trans {first second third : Feed} {early late : List UInt8}
    (before : first.Consumed early second) (after : second.Consumed late third) :
    first.Consumed (early ++ late) third where
  ahead := calc
    first.ahead = early ++ second.ahead := before.ahead
    _ = early ++ (late ++ third.ahead) := by rw [after.ahead]
    _ = early ++ late ++ third.ahead := (List.append_assoc _ _ _).symm
  stop := after.stop.trans before.stop
  queued := by rw [after.queued, before.queued, List.drop_drop, List.length_append]

theorem Consumed.queued_nil {feed rest : Feed} {bytes : List UInt8}
    (consumed : feed.Consumed bytes rest) (empty : feed.queued = []) : rest.queued = [] := by
  rw [consumed.queued, empty, List.drop_nil]

theorem Consumed.of_all {feed rest : Feed} (consumed : feed.Consumed feed.ahead rest) :
    rest.queued = [] ∧ rest.ahead = [] := by
  constructor
  · rw [consumed.queued, List.drop_eq_nil_iff]
    simp [Feed.ahead]
  · have same := consumed.ahead
    rwa [List.self_eq_append_right] at same

theorem pull_byte {feed rest : Feed} {byte : UInt8} (pulled : feed.pull = .byte byte rest) :
    feed.Consumed [byte] rest := by
  unfold pull at pulled
  split at pulled
  case h_1 first others queue =>
    cases pulled
    exact ⟨by simp [ahead, queue], rfl, by simp [queue]⟩
  case h_2 queue =>
    split at pulled
    case h_1 _ after taken =>
      cases pulled
      have given := Source.pull_byte taken
      exact ⟨by simp [ahead, queue, given.1], given.2, by simp [queue]⟩
    case h_2 => cases pulled
    case h_3 => cases pulled

theorem pull_failure {feed rest : Feed} {reason : String}
    (pulled : feed.pull = .failure reason rest) :
    feed.ahead = [] ∧ feed.stop? = some (reason, rest.source) ∧ rest.queued = [] := by
  unfold pull at pulled
  split at pulled
  case h_1 => cases pulled
  case h_2 queue =>
    split at pulled
    case h_1 => cases pulled
    case h_2 _ after taken =>
      cases pulled
      have given := Source.pull_failure taken
      exact ⟨by simp [ahead, queue, given.1], given.2, queue⟩
    case h_3 => cases pulled

theorem pull_finished {feed : Feed} (pulled : feed.pull = .finished) :
    feed.ahead = [] ∧ feed.stop? = none := by
  unfold pull at pulled
  split at pulled
  case h_1 => cases pulled
  case h_2 queue =>
    split at pulled
    case h_1 => cases pulled
    case h_2 => cases pulled
    case h_3 taken =>
      have given := Source.pull_finished taken
      exact ⟨by simp [ahead, queue, given.1], given.2⟩

theorem look_taken {feed rest : Feed} {wanted : UInt8}
    (looked : feed.look wanted = .taken rest) : feed.Consumed [wanted] rest := by
  unfold look at looked
  split at looked
  case h_1 pulled =>
    split at looked
    case isTrue same =>
      cases looked
      exact same ▸ pull_byte pulled
    case isFalse => cases looked
  case h_2 => cases looked
  case h_3 => cases looked

theorem look_absent {feed : Feed} {wanted : UInt8} (looked : feed.look wanted = .absent) :
    feed.ahead.head? ≠ some wanted := by
  unfold look at looked
  split at looked
  case h_1 pulled =>
    split at looked
    case isTrue => cases looked
    case isFalse other =>
      rw [(pull_byte pulled).ahead]
      simpa using other
  case h_2 => cases looked
  case h_3 pulled =>
    rw [(pull_finished pulled).1]
    simp

theorem look_failure {feed rest : Feed} {wanted : UInt8} {reason : String}
    (looked : feed.look wanted = .failure reason rest) :
    feed.ahead = [] ∧ feed.stop? = some (reason, rest.source) ∧ rest.queued = [] := by
  unfold look at looked
  split at looked
  case h_1 =>
    split at looked <;> cases looked
  case h_2 pulled =>
    cases looked
    exact pull_failure pulled
  case h_3 => cases looked

end Feed

end Rollup.Table
