import Rollup.Proofs.Table.Events

/-! A table read step by step.  A step that yields no row closes the table, and a closed table has
nothing more to say.  Main statements: step after step yields the rows of the table, then its
failure if there is one, and nothing from then on, and whoever goes past the last row has been told
of every record passed over. -/

namespace Rollup.Table

def Course.items (course : Course) : List (Except TableError Row) :=
  course.rows.map .ok ++ course.failure?.toList.map .error

theorem Event.row?_skipped (records : List Malformed) :
    (records.map skipped).filterMap row? = [] := by
  rw [List.filterMap_map, List.filterMap_eq_nil_iff]
  exact fun _ _ => rfl

theorem Event.skipped?_skipped (records : List Malformed) :
    (records.map skipped).filterMap skipped? = records := by
  rw [List.filterMap_map]
  exact List.filterMap_some

namespace Rows

/-- So many steps, one after another. -/
def steps : Nat → Rows → List RowStep
  | 0, _ => []
  | count + 1, rows => rows.next :: steps count rows.next.rest

theorem closed_of_last {rows : Rows} (last : ∀ met, rows.next.item? ≠ some (.ok met)) :
    rows.next.rest.pending? = none ∧ rows.next.rest.feed? = none := by
  unfold next at last ⊢
  split
  case h_1 values waiting =>
    rw [waiting] at last
    exact absurd rfl (last _)
  case h_2 waiting =>
    rw [waiting] at last
    split
    case h_1 closed => exact ⟨waiting, closed⟩
    case h_2 feed opened =>
      rw [opened] at last
      dsimp only at last ⊢
      generalize findFields rows.delimiter rows.malformed feed = result at last ⊢
      obtain ⟨found, skipped⟩ := result
      cases found with
      | fields values rest => exact absurd rfl (last _)
      | failure reason => exact ⟨rfl, rfl⟩
      | finished => exact ⟨rfl, rfl⟩

theorem course_of_last {rows : Rows} (last : ∀ met, rows.next.item? ≠ some (.ok met)) :
    rows.next.rest.course = ⟨[], none⟩ :=
  course_of_closed (closed_of_last last).1 (closed_of_last last).2

theorem items_next (rows : Rows) :
    rows.course.items = rows.next.item?.toList ++ rows.next.rest.course.items := by
  rw [course_eq]
  match read : rows.next.item? with
  | none =>
    rw [course_of_last (by simp [read])]
    simp only [Course.items, Course.rows, Event.row?_skipped]
    rfl
  | some (.error reason) =>
    rw [course_of_last (by simp [read])]
    simp only [Course.items, Course.rows, Event.row?_skipped]
    rfl
  | some (.ok met) =>
    simp only [Course.items, Course.rows, Course.after, List.filterMap_append, Event.row?_skipped]
    rfl

theorem skipped_next (rows : Rows) :
    rows.course.skipped = rows.next.skipped ++ rows.next.rest.course.skipped := by
  rw [course_eq]
  match read : rows.next.item? with
  | none =>
    rw [course_of_last (by simp [read])]
    simp only [Course.skipped, Event.skipped?_skipped, List.filterMap_nil, List.append_nil]
  | some (.error reason) =>
    rw [course_of_last (by simp [read])]
    simp only [Course.skipped, Event.skipped?_skipped, List.filterMap_nil, List.append_nil]
  | some (.ok met) =>
    simp only [Course.skipped, Course.after, List.filterMap_append, Event.skipped?_skipped]
    simp [Event.skipped?]

/-- The items come in order, and after them nothing. -/
theorem item_steps (rows : Rows) (count : Nat) :
    (rows.steps count).map RowStep.item? =
      (List.range count).map fun place => rows.course.items[place]? := by
  induction count generalizing rows with
  | zero => rfl
  | succ count ih =>
    rw [steps, List.map_cons, ih, List.range_succ_eq_map, List.map_cons, List.map_map,
      items_next rows]
    cases read : rows.next.item? with
    | none =>
      rw [course_of_last (by simp [read])]
      rfl
    | some item => rfl

theorem skipped_steps (rows : Rows) {count : Nat} (long : rows.course.rows.length < count) :
    (rows.steps count).flatMap RowStep.skipped = rows.course.skipped := by
  induction count generalizing rows with
  | zero => exact absurd long (Nat.not_lt_zero _)
  | succ count ih =>
    rw [steps, List.flatMap_cons, skipped_next]
    congr 1
    by_cases last : ∃ met, rows.next.item? = some (.ok met)
    · obtain ⟨met, read⟩ := last
      apply ih
      rw [course_eq, read] at long
      simp only [Course.rows, Course.after, List.filterMap_append, Event.row?,
        List.filterMap_cons, List.length_append, List.length_cons] at long
      rw [Course.rows]
      omega
    · have ended := course_of_last (not_exists.mp last)
      cases count with
      | zero =>
        rw [ended]
        rfl
      | succ count =>
        apply ih
        rw [ended]
        exact Nat.succ_pos count

end Rows

end Rollup.Table
