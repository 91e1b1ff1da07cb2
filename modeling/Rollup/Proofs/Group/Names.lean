import Rollup.Group.Ranking
import Rollup.Proofs.Group.Forms

/-! The names of metrics.  A metric is read from a call, as operations are, or from a name, which is
a measure, an underscore and any column that is not empty and does not end in a blank; so a column
may itself hold underscores, blanks and brackets.  Main statement: a metric is read back from its
name, and the label and the name of an operation are read as the metric of that operation. -/

namespace Rollup.Group

open Text

/-- A column that a name can end in. -/
structure Inked (column : String) : Prop where
  present : column ≠ ""
  last : column.toList.getLast?.any isBlank = false

theorem inked_ofList {column : List Char} (some : column ≠ [])
    (halts : Halts isBlank column.reverse) : Inked (String.ofList column) := by
  refine ⟨fun empty => some ?_, ?_⟩
  · rw [← String.toList_eq_nil_iff, String.toList_ofList] at empty
    exact empty
  · rw [String.toList_ofList, ← List.head?_reverse]
    exact halts

theorem Inked.halts {column : String} (inked : Inked column) (front : List Char) :
    Halts isBlank (front ++ column.toList).reverse := by
  have some : column.toList ≠ [] := fun none => inked.present (String.toList_eq_nil_iff.mp none)
  have last := inked.last
  rw [← List.dropLast_concat_getLast some, List.getLast?_concat] at last
  rw [← List.dropLast_concat_getLast some, ← List.append_assoc, List.reverse_concat]
  exact halts_cons last

theorem Operation.Written.inked {cs : List Char} {m : Measure} {column : String}
    (written : Written cs (measure m column)) : Inked column := by
  generalize asked : measure m column = operation at written
  rcases written with ⟨-⟩ | @⟨other, name, first, second, inner, third, named, blank, present, plain⟩
  · cases asked
  · cases asked
    refine inked_ofList present ?_
    obtain ⟨c, others, same⟩ := List.exists_cons_of_ne_nil (mt List.reverse_eq_nil_iff.mp present)
    have member : c ∈ inner := by
      rw [← List.mem_reverse, same]
      exact List.mem_cons_self
    rw [same]
    exact halts_cons (isBlank_of_isColumnChar ((isColumnChar_iff c).mpr (plain c member)))

namespace Metric

theorem toList_name_measure (m : Measure) (column : String) :
    (measure m column).name.toList = m.name.toList ++ '_' :: column.toList := by
  simp [name, Operation.fieldName, Operation.measure, Aggregate.name]

theorem named?_measure (m : Measure) {column : List Char} (some : column ≠ []) :
    named? (m.name.toList ++ '_' :: column) = Option.some (measure m (String.ofList column)) := by
  have letters := List.all_eq_true.mp m.all_ne_underscore
  have underscore : Halts (fun c => decide (c ≠ '_')) ('_' :: column) := halts_cons (by rfl)
  have found := Measure.find?_name_iff.mpr m.toLower_name
  rw [named?, dropWhile_append_of_halts letters underscore,
    takeWhile_append_of_halts letters underscore, List.drop_one, List.tail_cons, if_neg some, found]
  rfl

theorem call?_name (m : Measure) (column : List Char) :
    Operation.call? (m.name.toList ++ '_' :: column) = none := by
  have none : Operation.argument? ('_' :: column) = none := by rfl
  rw [Operation.call?, ← m.length_name, List.drop_left, none]
  rfl

theorem ne_count_name (m : Measure) (column : List Char) :
    (m.name.toList ++ '_' :: column).map Char.toLower ≠ "count".toList := by
  intro same
  have underscore : '_' ∈ "count".toList := by
    rw [← same, List.mem_map]
    exact ⟨'_', by simp, rfl⟩
  exact absurd underscore (by decide)

theorem parse_name_measure (m : Measure) {column : String} (inked : Inked column) :
    parse (measure m column).name = measure m column := by
  have trimmed : trim (measure m column).name.toList = m.name.toList ++ '_' :: column.toList := by
    rw [toList_name_measure]
    refine trim_of_halts ?_ ?_
    · cases m <;> rfl
    · rw [List.append_cons]
      exact inked.halts _
  have some : column.toList ≠ [] := fun none => inked.present (String.toList_eq_nil_iff.mp none)
  unfold parse
  rw [trimmed]
  dsimp only
  rw [if_neg (mt (sameIgnoringCase_iff Operation.toLower_count).mp (ne_count_name m _)),
    call?_name, named?_measure m some, String.ofList_toList]
  rfl

theorem parse_of_parse? {text : String} {operation : Operation}
    (read : Operation.parse? text = some operation) :
    (parse text).operation? = some operation := by
  unfold Operation.parse? at read
  unfold parse
  dsimp only at read ⊢
  split at read
  case isTrue counts =>
    cases read
    rw [if_pos counts]
    rfl
  case isFalse other =>
    obtain ⟨⟨m, column⟩, called, rfl⟩ := Option.map_eq_some_iff.mp read
    rw [if_neg other, called]
    rfl

theorem exists_of_named? {cs : List Char} {metric : Metric} (read : named? cs = some metric) :
    ∃ m column, metric = measure m (String.ofList column) ∧ column ≠ [] ∧ column <:+ cs := by
  unfold named? at read
  dsimp only at read
  split at read
  · cases read
  case isFalse present =>
    obtain ⟨m, -, same⟩ := Option.bind_eq_some_iff.mp read
    cases same
    exact ⟨m, _, rfl, present, (List.drop_suffix 1 _).trans (List.dropWhile_suffix _)⟩

theorem parse_cases (text : String) : parse text = count ∨
    parse text = unknown (String.ofList (trim text.toList)) ∨
    ∃ m column, parse text = measure m column ∧ Inked column := by
  unfold parse
  dsimp only
  split
  · exact .inl rfl
  · split
    case h_1 m column called =>
      exact .inr (.inr ⟨m, column, rfl, (Operation.call?_eq_some_iff.mp called).inked⟩)
    case h_2 =>
      cases named : named? (trim text.toList) with
      | none => exact .inr (.inl rfl)
      | some metric =>
        obtain ⟨m, column, rfl, present, last⟩ := exists_of_named? named
        have halts := (halts_reverse_trim text.toList).front (List.reverse_prefix.mpr last)
        exact .inr (.inr ⟨m, _, rfl, inked_ofList present halts⟩)

theorem parse_name_parse (text : String) : parse (parse text).name = parse text := by
  rcases parse_cases text with counts | other | ⟨m, column, same, inked⟩
  · rw [counts]
    rfl
  · have again : parse (String.ofList (trim text.toList)) = parse text := by
      unfold parse
      rw [String.toList_ofList, trim_trim]
    rw [other]
    exact again.trans other
  · rw [same]
    exact parse_name_measure m inked

theorem parse_fieldName {cs : List Char} {operation : Operation}
    (written : operation.Written cs) : (parse operation.fieldName).operation? = some operation := by
  cases written with
  | count named => rfl
  | @call m name first second column third named blank present plain =>
    have inked := (Operation.Written.call named blank present plain).inked
    exact congrArg operation? (parse_name_measure m inked)

end Metric

/-- Every metric but an unknown one is read back from its name, if its column is one that a name can
end in; what was read from any text is; and an operation is the operation of the metric that is read
from its written form, from its label and from its name. -/
theorem Metric.parse_forms :
    (∀ text, parse (parse text).name = parse text) ∧
    (∀ text operation, Operation.parse? text = some operation →
      (parse text).operation? = some operation ∧
      (parse operation.label).operation? = some operation ∧
      (parse operation.fieldName).operation? = some operation) ∧
    ∀ metric : Metric, (∀ text, metric ≠ unknown text) →
      (∀ column, metric.column? = some column →
        column ≠ "" ∧ column.toList.getLast?.any isBlank = false) →
      parse metric.name = metric := by
  refine ⟨parse_name_parse, ?_, ?_⟩
  · intro text operation read
    have written := Operation.parse?_eq_some_iff.mp read
    have labelled : Operation.parse? operation.label = some operation := by
      rw [Operation.parse?_eq_some_iff, written.isItem_label.trimmed]
      exact written.label
    exact ⟨parse_of_parse? read, parse_of_parse? labelled, parse_fieldName written⟩
  · intro metric known formed
    cases metric with
    | count => rfl
    | measure m column =>
      obtain ⟨present, last⟩ := formed column rfl
      exact parse_name_measure m ⟨present, last⟩
    | unknown text => exact absurd rfl (known text)

/-- A column that looks like a call, a call with blanks, and a text that only looks like a name. -/
theorem Metric.parse_forms_odd_columns :
    parse "min__x sum(y)" = measure .minimum "_x sum(y)" ∧
    Operation.parse? " MAX( v_1\t)" = some (.measure .maximum "v_1") ∧
    (parse "max_v_1").operation? = some (.measure .maximum "v_1") ∧
    parse (parse " count_x").name = unknown "count_x" := by
  obtain ⟨again, forms, names⟩ := parse_forms
  have read : Operation.parse? " MAX( v_1\t)" = some (.measure .maximum "v_1") := by decide +kernel
  refine ⟨names (measure .minimum "_x sum(y)") nofun ?_, read, (forms _ _ read).2.2, again _⟩
  rintro _ ⟨⟩
  exact ⟨by decide, by decide⟩

end Rollup.Group
