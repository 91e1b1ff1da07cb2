import Mathlib.Data.List.TakeWhile
import Rollup.Proofs.Text.Spans
import Rollup.Text.Pieces

/-! Texts without blanks around them.  Trimming gives such a text and leaves one as it is.  A word
is recognised in any case of its letters by its form in small letters.  Main statement: the items of
a list that was made of entries are those of one entry after another, so items that are not empty,
have no blanks around them and no comma inside are read back from the list that they make. -/

namespace Rollup.Text

theorem Halts.front {α : Type} {p : α → Bool} {front whole : List α} (halts : Halts p whole)
    (first : front <+: whole) : Halts p front := by
  obtain ⟨more, rfl⟩ := first
  cases front with
  | nil => exact halts_nil
  | cons symbol others => exact halts

theorem trim_of_halts {cs : List Char} (first : Halts isBlank cs)
    (last : Halts isBlank cs.reverse) : trim cs = cs := by
  rw [trim, trimStart, dropWhile_of_halts first, trimEnd, dropWhile_of_halts last,
    List.reverse_reverse]

theorem halts_reverse_trim (cs : List Char) : Halts isBlank (trim cs).reverse := by
  rw [trim, trimEnd, List.reverse_reverse]
  exact halts_dropWhile isBlank _

theorem prefixed_trimEnd (cs : List Char) : trimEnd cs <+: cs := by
  rw [trimEnd, ← List.reverse_suffix, List.reverse_reverse]
  exact List.dropWhile_suffix isBlank

theorem halts_trim (cs : List Char) : Halts isBlank (trim cs) :=
  (halts_dropWhile isBlank cs).front (prefixed_trimEnd (trimStart cs))

theorem trim_trim (cs : List Char) : trim (trim cs) = trim cs :=
  trim_of_halts (halts_trim cs) (halts_reverse_trim cs)

theorem trimEnd_eq_nil_iff (cs : List Char) :
    trimEnd cs = [] ↔ ∀ c ∈ cs, isBlank c = true := by
  simp [trimEnd, List.dropWhile_eq_nil_iff]

theorem trim_eq_nil_iff (cs : List Char) : trim cs = [] ↔ ∀ c ∈ cs, isBlank c = true := by
  constructor
  · intro nothing c member
    by_contra ink
    exact trim_ne_nil_of_mem member (Bool.eq_false_iff.mpr ink) nothing
  · intro blank
    rw [trim, trimStart, List.dropWhile_eq_nil_iff.mpr blank, trimEnd_nil]

theorem halts_trimEnd_iff (cs : List Char) :
    Halts isBlank (trimEnd cs) ↔ Halts isBlank cs ∨ trim cs = [] := by
  constructor
  · intro halts
    cases left : trimEnd cs with
    | nil => exact .inr ((trim_eq_nil_iff cs).mpr ((trimEnd_eq_nil_iff cs).mp left))
    | cons first others =>
      obtain ⟨more, whole⟩ := prefixed_trimEnd cs
      rw [left] at halts whole
      rw [← whole]
      exact .inl halts
  · rintro (halts | nothing)
    · exact halts.front (prefixed_trimEnd cs)
    · rw [(trimEnd_eq_nil_iff cs).mpr ((trim_eq_nil_iff cs).mp nothing)]
      exact halts_nil

theorem trimEnd_eq_trim_iff (cs : List Char) :
    trimEnd cs = trim cs ↔ Halts isBlank (trimEnd cs) := by
  constructor
  · intro same
    rw [same]
    exact halts_trim cs
  · intro halts
    rcases (halts_trimEnd_iff cs).mp halts with start | nothing
    · rw [trim, trimStart, dropWhile_of_halts start]
    · rw [nothing, trimEnd_eq_nil_iff]
      exact (trim_eq_nil_iff cs).mp nothing

theorem sameIgnoringCase_iff {word : String} (small : word.toList.map Char.toLower = word.toList)
    {cs : List Char} : sameIgnoringCase word (String.ofList cs) = true ↔
      cs.map Char.toLower = word.toList := by
  rw [sameIgnoringCase, beq_iff_eq, small, String.toList_ofList]
  exact eq_comm

theorem pieces_eq_splitOn (separator : Char) (cs : List Char) :
    pieces separator cs = cs.splitOn separator := by
  induction cs with
  | nil => simp [pieces]
  | cons c rest ih =>
    rw [List.splitOn_cons_eq_if_modifyHead, pieces, ih]
    by_cases same : c = separator
    · simp [same]
    · have some := List.splitOn_ne_nil separator rest
      obtain ⟨piece, others, found⟩ := List.exists_cons_of_ne_nil some
      simp [same, found]

theorem listItems_eq (list : String) : listItems list =
    (((list.toList.splitOn ',').map trim).filter (· ≠ [])).map String.ofList := by
  rw [listItems, pieces_eq_splitOn]

/-- A text that can stand in a list as one item. -/
structure IsItem (item : String) : Prop where
  filled : item.toList ≠ []
  trimmed : trim item.toList = item.toList
  flat : ',' ∉ item.toList

theorem not_mem_of_mem_splitOn {separator : Char} {cs piece : List Char}
    (member : piece ∈ cs.splitOn separator) : separator ∉ piece := by
  induction cs generalizing piece with
  | nil =>
    obtain rfl : piece = [] := by simpa using member
    exact List.not_mem_nil
  | cons c rest ih =>
    rw [List.splitOn_cons_eq_if_modifyHead] at member
    by_cases same : c = separator
    · rw [if_pos (beq_iff_eq.mpr same), List.mem_cons] at member
      rcases member with rfl | later
      · exact List.not_mem_nil
      · exact ih later
    · obtain ⟨first, others, found⟩ :=
        List.exists_cons_of_ne_nil (List.splitOn_ne_nil separator rest)
      rw [if_neg (mt beq_iff_eq.mp same), found, List.modifyHead_cons, List.mem_cons] at member
      rw [found] at ih
      rcases member with rfl | later
      · exact List.not_mem_cons_of_ne_of_not_mem (Ne.symm same) (ih List.mem_cons_self)
      · exact ih (List.mem_cons_of_mem first later)

theorem mem_of_mem_trim {c : Char} {cs : List Char} (member : c ∈ trim cs) : c ∈ cs :=
  List.dropWhile_subset _ ((prefixed_trimEnd _).subset member)

theorem isItem_of_mem_listItems {list item : String} (member : item ∈ listItems list) :
    IsItem item := by
  rw [listItems_eq] at member
  obtain ⟨text, kept, rfl⟩ := List.mem_map.mp member
  obtain ⟨given, filled⟩ := List.mem_filter.mp kept
  obtain ⟨piece, cut, rfl⟩ := List.mem_map.mp given
  have flat : ',' ∉ trim piece := fun comma => not_mem_of_mem_splitOn cut (mem_of_mem_trim comma)
  refine ⟨?_, ?_, ?_⟩ <;> rw [String.toList_ofList]
  · exact of_decide_eq_true filled
  · exact trim_trim piece
  · exact flat

/-- What stands between the commas of some entries, trimmed and not blank. -/
def tokensOf (entries : List String) : List (List Char) :=
  ((entries.flatMap (·.toList.splitOn ',')).map trim).filter (· ≠ [])

theorem splitOn_intercalate_eq (separator : Char) {texts : List (List Char)} (some : texts ≠ []) :
    ([separator].intercalate texts).splitOn separator = texts.flatMap (·.splitOn separator) := by
  induction texts with
  | nil => exact absurd rfl some
  | cons text texts ih =>
    cases texts with
    | nil => simp
    | cons next texts =>
      rw [List.intercalate_cons_cons, List.append_assoc, List.singleton_append,
        List.splitOn_append_cons_self, ih (List.cons_ne_nil _ _), ← List.flatMap_cons]

/-- A list that entries make has their tokens as its items, whatever commas and blanks the entries
have inside. -/
theorem listItems_joined_eq (entries : List String) :
    listItems (joined "," entries) = (tokensOf entries).map String.ofList := by
  cases entries with
  | nil => rfl
  | cons entry entries =>
    have cut : (joined "," (entry :: entries)).toList.splitOn ',' =
        (entry :: entries).flatMap (·.toList.splitOn ',') := by
      rw [joined, String.toList_intercalate, ← List.flatMap_map]
      exact splitOn_intercalate_eq ',' (List.cons_ne_nil _ _)
    rw [listItems_eq, cut]
    rfl

theorem tokensOf_of_isItem {items : List String} (formed : ∀ item ∈ items, IsItem item) :
    tokensOf items = items.map String.toList := by
  have whole : items.flatMap (·.toList.splitOn ',') = items.map String.toList := by
    rw [List.map_eq_flatMap, List.flatMap_def, List.flatMap_def]
    exact congrArg List.flatten <| List.map_congr_left fun item member =>
      List.splitOn_eq_singleton (formed item member).flat
  have trimmed : (items.map String.toList).map trim = items.map String.toList := by
    rw [List.map_map]
    exact List.map_congr_left fun item member => (formed item member).trimmed
  rw [tokensOf, whole, trimmed]
  refine List.filter_eq_self.mpr fun text member => ?_
  obtain ⟨item, given, rfl⟩ := List.mem_map.mp member
  exact decide_eq_true (formed item given).filled

theorem tokensOf_listItems (list : String) : tokensOf (listItems list) = tokensOf [list] := by
  calc tokensOf (listItems list)
    _ = (listItems list).map String.toList :=
      tokensOf_of_isItem fun item => isItem_of_mem_listItems
    _ = tokensOf [list] := by
      rw [listItems_eq, List.map_map, tokensOf, List.flatMap_singleton]
      exact List.map_id'' (fun _ => String.toList_ofList) _

theorem listItems_joined {items : List String} (formed : ∀ item ∈ items, IsItem item) :
    listItems (joined "," items) = items := by
  rw [listItems_joined_eq, tokensOf_of_isItem formed, List.map_map]
  exact List.map_id'' (fun _ => String.ofList_toList) _

end Rollup.Text
