import Rollup.Proofs.Table.Arrival
import Rollup.Proofs.Table.Conservation

/-! Where a record ends at a line break in the open, the table falls apart into two tables.  The
end of the input looks back only into the record that it interrupts, so bytes that split into
whole lines are read in the same way whatever follows them.  Main statement: the outcomes of such
bytes come first, and then the outcomes of what follows. -/

namespace Rollup.Table

variable {delimiter : UInt8}

theorem drain_append {front whole back : Feed}
    (lines : ∀ outcome ∈ drain delimiter front, outcome.IsLine) (calm : front.stop? = none)
    (stop : whole.stop? = back.stop?) (ahead : whole.ahead = front.ahead ++ back.ahead) :
    drain delimiter whole = drain delimiter front ++ drain delimiter back := by
  have reading := nextRecord_reading delimiter front
  generalize result : nextRecord delimiter front = step at reading
  have met : step.1 ≠ .finished → step.1.IsLine := by
    intro more
    apply lines
    rw [drain_of_read result more]
    exact List.mem_cons_self
  cases reading with
  | @line bytes terminator rest read unbroken outside ended =>
    have parts : whole.ahead = bytes ++ terminator.bytes ++ (rest.ahead ++ back.ahead) := by
      rw [ahead, read.ahead, List.append_assoc]
    obtain ⟨after, left, still, result'⟩ := nextRecord_of_line parts ended unbroken outside
    have lighter : rest.weight < front.weight := by
      have smaller := nextRecord_weight delimiter front (by simp [result])
      rwa [result] at smaller
    have first := drain_of_read result nofun
    have others : ∀ outcome ∈ drain delimiter rest, outcome.IsLine := fun outcome member =>
      lines outcome (first ▸ List.mem_cons_of_mem _ member)
    have later := drain_append others (read.stop.trans calm) (still.trans stop) left
    rw [first, drain_of_read result' nofun, later, List.cons_append]
  | finished empty _ _ =>
    have alike : whole.Alike back := ⟨by rw [ahead, empty, List.nil_append], stop⟩
    rw [drain_of_finished result, alike.drain_same delimiter, List.nil_append]
  | failure _ stopped =>
    rw [calm] at stopped
    cases stopped
  | input | unterminated | cut =>
    obtain ⟨_, _, same⟩ := met nofun
    cases same
termination_by front.weight

theorem drain_unread_append {source : Source} {front back : List UInt8}
    (lines : ∀ outcome ∈ drain delimiter (Feed.ofBytes front), outcome.IsLine)
    (calm : source.failures = 0) (unread : source.unread = front ++ back) :
    drain delimiter { source := source } =
      drain delimiter (Feed.ofBytes front) ++ drain delimiter (Feed.ofBytes back) := by
  have quiet : source.stop? = none := source.stop?_eq_none_iff.mpr calm
  have given : source.ahead = front ++ back := (source.unread_eq_ahead quiet).symm.trans unread
  have parts : Feed.ahead { source := source } =
      (Feed.ofBytes front).ahead ++ (Feed.ofBytes back).ahead := by
    simp [Feed.ahead, given, Feed.ofBytes, Source.ofBytes, Source.ahead]
  exact drain_append lines rfl quiet parts

theorem filled_unread_append {source : Source} {front back : List UInt8}
    (lines : ∀ outcome ∈ drain delimiter (Feed.ofBytes front), outcome.IsLine)
    (calm : source.failures = 0) (unread : source.unread = front ++ back) :
    filled delimiter { source := source } =
      filled delimiter (Feed.ofBytes front) ++ filled delimiter (Feed.ofBytes back) := by
  rw [filled, drain_unread_append lines calm unread, List.filter_append]
  rfl

end Rollup.Table
