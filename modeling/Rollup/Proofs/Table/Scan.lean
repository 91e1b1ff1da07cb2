import Rollup.Proofs.Table.Boundary
import Rollup.Proofs.Table.Records

/-! Bytes cut into lines from left to right.  A line feed outside quotes ends a line, and nothing
behind it is needed to know that.  Main statement: in front of a failure the calls for a record
return exactly the lines that are complete, so the end of the input is never made up. -/

namespace Rollup.Table

section

variable (delimiter : UInt8)

def openLinesFrom (stem : List UInt8) : List UInt8 → List (List UInt8)
  | [] => []
  | byte :: rest =>
    if byte = lineFeed ∧ modeOf delimiter stem ≠ .quoted then
      (dropCarriageReturn stem).1 :: openLinesFrom [] rest
    else openLinesFrom (stem ++ [byte]) rest

/-- The lines that end at a line break outside quotes, each without that line break. -/
def openLines (bytes : List UInt8) : List (List UInt8) := openLinesFrom delimiter [] bytes

end

section

variable {delimiter : UInt8}

theorem openLinesFrom_append {stem bytes : List UInt8} (more : List UInt8)
    (unbroken : Enclosed (byteMarks delimiter) lineFeed (modeOf delimiter stem) bytes) :
    openLinesFrom delimiter stem (bytes ++ more) =
      openLinesFrom delimiter (stem ++ bytes) more := by
  induction bytes generalizing stem with
  | nil => rw [List.nil_append, List.append_nil]
  | cons byte rest ih =>
    obtain ⟨inside, later⟩ := (enclosed_cons_iff _ _ _ _ _).mp unbroken
    have passed : ¬(byte = lineFeed ∧ modeOf delimiter stem ≠ .quoted) :=
      fun ⟨feed, outside⟩ => outside (inside feed)
    have reached : modeOf delimiter (stem ++ [byte]) =
        (modeOf delimiter stem).next (byteMarks delimiter) byte := by
      rw [modeOf, Mode.after_append]
      rfl
    rw [List.cons_append, openLinesFrom, if_neg passed, ih (reached ▸ later), List.append_assoc,
      List.singleton_append]

theorem openLines_append {bytes : List UInt8} (unbroken : Unbroken delimiter bytes)
    (more : List UInt8) :
    openLines delimiter (bytes ++ more) = openLinesFrom delimiter bytes more :=
  openLinesFrom_append more unbroken

theorem openLines_of_unbroken {bytes : List UInt8} (unbroken : Unbroken delimiter bytes) :
    openLines delimiter bytes = [] := by
  rw [← List.append_nil bytes, openLines_append unbroken, openLinesFrom]

theorem openLines_of_line {stem : List UInt8} (unbroken : Unbroken delimiter stem)
    (outside : modeOf delimiter stem ≠ .quoted) (more : List UInt8) :
    openLines delimiter (stem ++ lineFeed :: more) =
      (dropCarriageReturn stem).1 :: openLines delimiter more := by
  rw [openLines_append unbroken, openLinesFrom, if_pos ⟨rfl, outside⟩]
  rfl

end

/-- Up to a failure the calls return the complete lines, and the failure comes next. -/
theorem drain_of_stop (delimiter : UInt8) {feed : Feed} {reason : String} {after : Source}
    (stop : feed.stop? = some (reason, after)) :
    ∃ lines, drain delimiter feed =
        lines ++ .failure reason :: drain delimiter { source := after } ∧
      (∀ outcome ∈ lines, outcome.IsLine) ∧
      lines.filterMap Outcome.bytes? = openLines delimiter feed.ahead := by
  have reading := nextRecord_reading delimiter feed
  generalize result : nextRecord delimiter feed = step at reading
  cases reading with
  | @line bytes terminator rest read unbroken outside whole =>
    have lighter : rest.weight < feed.weight := by
      have smaller := nextRecord_weight delimiter feed (by simp [result])
      rwa [result] at smaller
    obtain ⟨lines, drained, ended, found⟩ := drain_of_stop delimiter (read.stop.trans stop)
    obtain ⟨stem, parts, drop, stemUnbroken, stemOutside⟩ := exists_stem whole unbroken outside
    have ahead : feed.ahead = stem ++ lineFeed :: rest.ahead := by
      rw [read.ahead, parts, List.append_assoc, List.singleton_append]
    refine ⟨.record bytes (.line terminator) :: lines, ?_, ?_, ?_⟩
    · rw [drain_of_read result nofun, drained, List.cons_append]
    · exact List.forall_mem_cons.mpr ⟨⟨bytes, terminator, rfl⟩, ended⟩
    · rw [ahead, openLines_of_line stemUnbroken stemOutside, drop, ← found]
      rfl
  | failure unbroken stopped =>
    obtain ⟨rfl, rfl⟩ := Prod.mk.inj (Option.some.inj (stopped.symm.trans stop))
    refine ⟨[], drain_of_read result nofun, List.forall_mem_nil _, ?_⟩
    rw [openLines_of_unbroken unbroken]
    rfl
  -- the other outcomes need the end of the input, which a failure hides
  | finished _ calm | input _ calm | unterminated calm | cut calm =>
    rw [calm] at stop
    cases stop
termination_by feed.weight

end Rollup.Table
