/-! Where the bytes of a table come from.  A source is the list of what its reads answer: some
bytes, an interruption, which is simply read again, or a failure, after which the source can
still be read.  A feed puts queued bytes in front of a source, so that bytes can be read twice.
Main statement: taking a byte makes the feed lighter, so every loop over a feed ends. -/

namespace Rollup.Table

/-- What one read of a source answers. -/
inductive Delivery where
  | bytes (chunk : List UInt8)
  | interruption
  | failure (reason : String)
  deriving DecidableEq, Repr

abbrev Source := List Delivery

/-- Taking the next byte of something: the byte, a failure, or the end, with what is left. -/
inductive Pull (σ : Type) where
  | byte (value : UInt8) (rest : σ)
  | failure (reason : String) (rest : σ)
  | finished

namespace Source

def ofBytes (bytes : List UInt8) : Source := [.bytes bytes]

def pull : Source → Pull Source
  | [] => .finished
  | .bytes [] :: rest => pull rest
  | .bytes (byte :: chunk) :: rest => .byte byte (.bytes chunk :: rest)
  | .interruption :: rest => pull rest
  | .failure reason :: rest => .failure reason rest

def unread (source : Source) : List UInt8 :=
  source.flatMap fun
    | .bytes chunk => chunk
    | _ => []

def failures (source : Source) : Nat :=
  source.countP fun
    | .failure _ => true
    | _ => false

def weight : Source → Nat
  | [] => 0
  | .bytes chunk :: rest => 1 + chunk.length + weight rest
  | _ :: rest => 1 + weight rest

theorem weight_of_pull_byte {source rest : Source} {byte : UInt8}
    (pulled : source.pull = .byte byte rest) : rest.weight < source.weight := by
  induction source with
  | nil => cases pulled
  | cons first others ih =>
    match first with
    | .bytes [] =>
      have smaller := ih pulled
      simp only [weight, List.length_nil]
      omega
    | .bytes (b :: chunk) =>
      cases pulled
      simp only [weight, List.length_cons]
      omega
    | .interruption =>
      have smaller := ih pulled
      simp only [weight]
      omega
    | .failure reason => cases pulled

theorem weight_of_pull_failure {source rest : Source} {reason : String}
    (pulled : source.pull = .failure reason rest) : rest.weight < source.weight := by
  induction source with
  | nil => cases pulled
  | cons first others ih =>
    match first with
    | .bytes [] =>
      have smaller := ih pulled
      simp only [weight, List.length_nil]
      omega
    | .bytes (b :: chunk) => cases pulled
    | .interruption =>
      have smaller := ih pulled
      simp only [weight]
      omega
    | .failure _ =>
      cases pulled
      simp only [weight]
      omega

end Source

/-- Bytes queued to be read again, then a source. -/
structure Feed where
  queued : List UInt8 := []
  source : Source

namespace Feed

def ofBytes (bytes : List UInt8) : Feed := { source := Source.ofBytes bytes }

def pull (feed : Feed) : Pull Feed :=
  match feed.queued with
  | byte :: rest => .byte byte { feed with queued := rest }
  | [] =>
    match feed.source.pull with
    | .byte byte rest => .byte byte { feed with source := rest }
    | .failure reason rest => .failure reason { feed with source := rest }
    | .finished => .finished

def weight (feed : Feed) : Nat := feed.queued.length + feed.source.weight

theorem weight_of_pull_byte {feed rest : Feed} {byte : UInt8}
    (pulled : feed.pull = .byte byte rest) : rest.weight < feed.weight := by
  unfold pull at pulled
  split at pulled
  case h_1 first others queue =>
    cases pulled
    simp [weight, queue]
  case h_2 queue =>
    split at pulled
    case h_1 _ after taken =>
      cases pulled
      have smaller := Source.weight_of_pull_byte taken
      simp only [weight]
      omega
    case h_2 => cases pulled
    case h_3 => cases pulled

theorem weight_of_pull_failure {feed rest : Feed} {reason : String}
    (pulled : feed.pull = .failure reason rest) : rest.weight < feed.weight := by
  unfold pull at pulled
  split at pulled
  case h_1 => cases pulled
  case h_2 queue =>
    split at pulled
    case h_1 => cases pulled
    case h_2 _ after taken =>
      cases pulled
      have smaller := Source.weight_of_pull_failure taken
      simp only [weight]
      omega
    case h_3 => cases pulled

/-- What looking at the next byte for a wanted one finds.  A failure met while looking is used
up; any other byte stays where it is. -/
inductive Look where
  | taken (rest : Feed)
  | absent
  | failure (reason : String) (rest : Feed)

def look (wanted : UInt8) (feed : Feed) : Look :=
  match feed.pull with
  | .byte byte rest => if byte = wanted then .taken rest else .absent
  | .failure reason rest => .failure reason rest
  | .finished => .absent

theorem weight_of_look_taken {wanted : UInt8} {feed rest : Feed}
    (looked : feed.look wanted = .taken rest) : rest.weight < feed.weight := by
  unfold look at looked
  split at looked
  case h_1 pulled =>
    split at looked
    · cases looked
      exact weight_of_pull_byte pulled
    · cases looked
  case h_2 => cases looked
  case h_3 => cases looked

theorem weight_of_look_failure {wanted : UInt8} {feed rest : Feed} {reason : String}
    (looked : feed.look wanted = .failure reason rest) : rest.weight < feed.weight := by
  unfold look at looked
  split at looked
  case h_1 =>
    split at looked <;> cases looked
  case h_2 pulled =>
    cases looked
    exact weight_of_pull_failure pulled
  case h_3 => cases looked

end Feed

end Rollup.Table
