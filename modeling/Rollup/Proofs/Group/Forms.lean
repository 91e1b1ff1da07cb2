import Mathlib
import Rollup.Group.Operation
import Rollup.Proofs.Text.Trimming

/-! The written forms of an operation.  Counting is a word, and a measure is a call with blanks
anywhere between its name, its brackets and its column.  The pattern of a call knows more letters
than the names do, so a name is compared in the small form of its ASCII letters.  Main statement:
an operation is read exactly from its written forms. -/

namespace Rollup.Group

open Text

namespace Measure

theorem toLower_name (m : Measure) : m.name.toList.map Char.toLower = m.name.toList := by
  cases m <;> decide

theorem all_ne_underscore (m : Measure) : m.name.toList.all (· ≠ '_') = true := by
  cases m <;> rfl

theorem length_name (m : Measure) : m.name.toList.length = 3 := by
  cases m <;> decide

theorem name_injective {a b : Measure} (same : a.name = b.name) : a = b := by
  cases a <;> cases b <;> first | rfl | exact absurd same (by decide)

theorem find?_name_iff {cs : List Char} {m : Measure} :
    (all.find? fun m => sameIgnoringCase m.name (String.ofList cs)) = some m ↔
      cs.map Char.toLower = m.name.toList := by
  constructor
  · intro found
    have same := List.find?_some found
    exact (sameIgnoringCase_iff m.toLower_name).mp same
  · intro named
    have only : ∀ other : Measure,
        sameIgnoringCase other.name (String.ofList cs) = decide (other = m) := by
      intro other
      rw [Bool.eq_iff_iff, sameIgnoringCase_iff other.toLower_name, named, decide_eq_true_iff,
        String.toList_inj]
      exact ⟨fun same => (name_injective same).symm, fun same => same ▸ rfl⟩
    simp only [only]
    cases m <;> rfl

end Measure

namespace Operation

/-- The texts that stand for an operation. -/
inductive Written : List Char → Operation → Prop where
  | count {word : List Char} (named : word.map Char.toLower = "count".toList) : Written word count
  | call {m : Measure} {name first second column third : List Char}
      (named : name.map Char.toLower = m.name.toList)
      (blank : ∀ c ∈ first ++ second ++ third, isBlank c = true) (present : column ≠ [])
      (plain : ∀ c ∈ column,
        c.isAlphanum = true ∨ c = '_' ∨ c = '\u017F' ∨ c = '\u212A') :
      Written (name ++ (first ++ '(' :: (second ++ (column ++ (third ++ [')'])))))
        (measure m (String.ofList column))

theorem isColumnChar_iff (c : Char) : isColumnChar c = true ↔
    c.isAlphanum = true ∨ c = '_' ∨ c = '\u017F' ∨ c = '\u212A' := by
  have byCode : ∀ other : Char, c.toNat = other.toNat ↔ c = other := fun other => Char.toNat_inj
  simp only [isColumnChar, Bool.or_eq_true, decide_eq_true_eq, ← byCode, or_assoc]
  rfl

theorem toNat_bounds_of_isAlphanum {c : Char} (letter : c.isAlphanum = true) :
    48 ≤ c.toNat ∧ c.toNat ≤ 122 := by
  simp only [Char.isAlphanum, Char.isAlpha, Char.isUpper, Char.isLower, Char.isDigit,
    Bool.or_eq_true, Bool.and_eq_true, decide_eq_true_eq, UInt32.le_iff_toNat_le, ge_iff_le]
    at letter
  rcases letter with (⟨lower, upper⟩ | ⟨lower, upper⟩) | ⟨lower, upper⟩
  · exact ⟨Nat.le_trans (by decide) lower, Nat.le_trans upper (by decide)⟩
  · exact ⟨Nat.le_trans (by decide) lower, Nat.le_trans upper (by decide)⟩
  · exact ⟨Nat.le_trans (by decide) lower, Nat.le_trans upper (by decide)⟩

theorem isBlank_of_isColumnChar {c : Char} (plain : isColumnChar c = true) :
    isBlank c = false := by
  rw [isColumnChar_iff] at plain
  rcases plain with letter | rfl | rfl | rfl
  · obtain ⟨lower, upper⟩ := toNat_bounds_of_isAlphanum letter
    simp only [isBlank, Bool.or_eq_false_iff, Bool.and_eq_false_iff, decide_eq_false_iff_not,
      beq_eq_false_iff_ne]
    omega
  · rfl
  · rfl
  · rfl

def Bracketed (cs column : List Char) : Prop :=
  ∃ first second third, cs = first ++ '(' :: (second ++ (column ++ (third ++ [')']))) ∧
    (∀ c ∈ first ++ second ++ third, isBlank c = true) ∧ column ≠ [] ∧
    ∀ c ∈ column, isColumnChar c = true

theorem bracketed_of_argument? {cs column : List Char} (read : argument? cs = some column) :
    Bracketed cs column := by
  unfold argument? at read
  split at read
  case h_2 => cases read
  case h_1 inner opened =>
    dsimp only at read
    split at read
    case isFalse => cases read
    case isTrue closed =>
      obtain ⟨present, closed⟩ := closed
      cases read
      let body := trimStart inner
      let rest := body.dropWhile isColumnChar
      have third : rest.takeWhile isBlank ++ [')'] = rest := by
        rw [← closed]
        exact List.takeWhile_append_dropWhile
      have column : body.takeWhile isColumnChar ++ rest = body := List.takeWhile_append_dropWhile
      have second : inner.takeWhile isBlank ++ body = inner := List.takeWhile_append_dropWhile
      refine ⟨cs.takeWhile isBlank, inner.takeWhile isBlank, rest.takeWhile isBlank, ?_, ?_,
        present, fun c => mem_takeWhile⟩
      · rw [third, column, second, ← opened]
        exact List.takeWhile_append_dropWhile.symm
      · simp only [List.forall_mem_append]
        exact ⟨⟨fun c => mem_takeWhile, fun c => mem_takeWhile⟩, fun c => mem_takeWhile⟩

theorem argument?_of_bracketed {cs column : List Char} (bracketed : Bracketed cs column) :
    argument? cs = some column := by
  obtain ⟨first, second, third, rfl, blank, present, plain⟩ := bracketed
  simp only [List.forall_mem_append] at blank
  obtain ⟨⟨before, inside⟩, behind⟩ := blank
  have filled : Halts isBlank (column ++ (third ++ [')'])) := by
    obtain ⟨c, others, rfl⟩ := List.exists_cons_of_ne_nil present
    exact halts_cons (isBlank_of_isColumnChar (plain c List.mem_cons_self))
  have ended : Halts isColumnChar (third ++ [')']) := by
    refine Halts.append (halts_cons (by rfl)) fun c member => ?_
    refine Bool.eq_false_iff.mpr fun other => ?_
    exact Bool.eq_false_iff.mp (isBlank_of_isColumnChar other) (behind c member)
  have opened : trimStart (first ++ '(' :: (second ++ (column ++ (third ++ [')'])))) =
      '(' :: (second ++ (column ++ (third ++ [')']))) :=
    dropWhile_append_of_halts before (halts_cons (by rfl))
  have body : trimStart (second ++ (column ++ (third ++ [')']))) = column ++ (third ++ [')']) :=
    dropWhile_append_of_halts inside filled
  have closed : trimStart (third ++ [')']) = [')'] :=
    dropWhile_append_of_halts behind (halts_cons (by rfl))
  unfold argument?
  rw [opened]
  split
  case h_2 other => exact absurd rfl (other _)
  case h_1 inner same =>
    obtain ⟨-, rfl⟩ := List.cons.inj same
    dsimp only
    rw [body, takeWhile_append_of_halts plain ended, dropWhile_append_of_halts plain ended,
      closed, if_pos ⟨present, rfl⟩]

theorem call?_eq_some_iff {cs : List Char} {m : Measure} {column : String} :
    call? cs = some (m, column) ↔ Written cs (measure m column) := by
  have parts : call? cs = some (m, column) ↔ argument? (cs.drop 3) = some column.toList ∧
      (cs.take 3).map Char.toLower = m.name.toList := by
    rw [← Measure.find?_name_iff, call?]
    cases argument? (cs.drop 3) with
    | none => simp
    | some found =>
      cases Measure.all.find? fun m => sameIgnoringCase m.name (String.ofList (cs.take 3)) with
      | none => simp
      | some other =>
        have text : String.ofList found = column ↔ found = column.toList := by
          rw [← String.toList_inj, String.toList_ofList]
        simp [text, and_comm]
  rw [parts]
  constructor
  · rintro ⟨read, named⟩
    obtain ⟨first, second, third, same, blank, present, plain⟩ := bracketed_of_argument? read
    have whole : cs = cs.take 3 ++
        (first ++ '(' :: (second ++ (column.toList ++ (third ++ [')'])))) := by
      rw [← same, List.take_append_drop]
    have written := Written.call named blank present fun c member =>
      (isColumnChar_iff c).mp (plain c member)
    rwa [String.ofList_toList, ← whole] at written
  · generalize asked : measure m column = operation
    rintro (⟨-⟩ | @⟨other, name, first, second, inner, third, named, blank, present, plain⟩)
    · cases asked
    · cases asked
      have three : name.length = 3 := by
        rw [← m.length_name, ← named, List.length_map]
      rw [← three, List.take_left, List.drop_left, String.toList_ofList]
      exact ⟨argument?_of_bracketed ⟨first, second, third, rfl, blank, present,
        fun c member => (isColumnChar_iff c).mpr (plain c member)⟩, named⟩

theorem Written.ne_count {cs : List Char} {m : Measure} {column : String}
    (written : Written cs (measure m column)) : cs.map Char.toLower ≠ "count".toList := by
  generalize asked : measure m column = operation at written
  rcases written with ⟨-⟩ | ⟨-, -, -, -⟩
  · cases asked
  · intro same
    have bracket : ')' ∈ "count".toList := by
      rw [← same, List.mem_map]
      exact ⟨')', by simp, rfl⟩
    exact absurd bracket (by decide)

theorem toLower_count : "count".toList.map Char.toLower = "count".toList := by decide

/-- An operation is read from its written forms and from nothing else. -/
theorem parse?_eq_some_iff {text : String} {operation : Operation} :
    parse? text = some operation ↔ Written (trim text.toList) operation := by
  unfold parse?
  generalize trim text.toList = token
  dsimp only
  split
  case isTrue counts =>
    rw [sameIgnoringCase_iff toLower_count] at counts
    constructor
    · rintro ⟨⟩
      exact .count counts
    · intro written
      cases written with
      | count named => rfl
      | call named blank present plain =>
        exact absurd counts (Written.call named blank present plain).ne_count
  case isFalse other =>
    rw [sameIgnoringCase_iff toLower_count] at other
    constructor
    · intro read
      obtain ⟨⟨m, column⟩, called, rfl⟩ := Option.map_eq_some_iff.mp read
      exact call?_eq_some_iff.mp called
    · intro written
      cases written with
      | count named => exact absurd named other
      | call named blank present plain =>
        exact Option.map_eq_some_iff.mpr
          ⟨_, call?_eq_some_iff.mpr (.call named blank present plain), rfl⟩

theorem toList_label_measure (m : Measure) (column : String) :
    (measure m column).label.toList = m.name.toList ++ '(' :: (column.toList ++ [')']) := by
  simp [label, measure, Aggregate.name]

namespace Written

variable {cs : List Char} {operation : Operation}

theorem label (written : Written cs operation) : Written operation.label.toList operation := by
  cases written with
  | count named => exact .count toLower_count
  | @call m name first second column third named blank present plain =>
    have short : Written (m.name.toList ++ ([] ++ '(' :: ([] ++ (column ++ ([] ++ [')'])))))
        (measure m (String.ofList column)) :=
      .call m.toLower_name (List.forall_mem_nil _) present plain
    rw [toList_label_measure, String.toList_ofList]
    exact short

theorem isItem_label (written : Written cs operation) : IsItem operation.label := by
  cases written with
  | count named => exact ⟨by decide, by decide, by decide⟩
  | @call m name first second column third named blank present plain =>
    constructor
    · simp [toList_label_measure]
    · rw [toList_label_measure]
      refine trim_of_halts ?_ ?_
      · cases m <;> rfl
      · rw [List.reverse_append, List.reverse_cons, List.reverse_append]
        exact halts_cons (by rfl)
    · rw [toList_label_measure, String.toList_ofList]
      have outside : ',' ∉ column := fun member =>
        absurd ((isColumnChar_iff ',').mpr (plain ',' member)) (by decide)
      have unnamed : ',' ∉ m.name.toList := by
        cases m <;> decide
      simp [outside, unnamed]

end Written

end Operation

end Rollup.Group
