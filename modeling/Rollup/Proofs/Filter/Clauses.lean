import Rollup.Proofs.Filter.Tokens

/-! One condition of a filter text.  Blanks are in no class that matters to a reader, so each part
ends where the grammar ends it.  Main statement: a condition is read from the front of a text
exactly when a clause stands there and no more digits follow it. -/

namespace Rollup.Filter

open Table Text

theorem ascii_blank_cases {c : Char} (blank : isAsciiBlank c = true) :
    c = ' ' ∨ c = '\t' ∨ c = '\n' ∨ c = '\x0c' ∨ c = '\r' := by
  simp only [isAsciiBlank, isAsciiBlankCode, Bool.or_eq_true, beq_iff_eq] at blank
  have named : ∀ d : Char, c.toNat = d.toNat → c = d := fun d same => Char.toNat_inj.mp same
  rcases blank with (((space | tab) | feed) | form) | carriage
  · exact .inl (named ' ' space)
  · exact .inr (.inl (named '\t' tab))
  · exact .inr (.inr (.inl (named '\n' feed)))
  · exact .inr (.inr (.inr (.inl (named '\x0c' form))))
  · exact .inr (.inr (.inr (.inr (named '\r' carriage))))

theorem outside_of_blank {p : Char → Bool}
    (avoids : [' ', '\t', '\n', '\x0c', '\r'].all (fun c => !p c) = true) {c : Char}
    (blank : isAsciiBlank c = true) : p c = false := by
  simp only [List.all_cons, List.all_nil, Bool.and_true, Bool.and_eq_true, Bool.not_eq_true']
    at avoids
  rcases ascii_blank_cases blank with rfl | rfl | rfl | rfl | rfl
  · exact avoids.1
  · exact avoids.2.1
  · exact avoids.2.2.1
  · exact avoids.2.2.2.1
  · exact avoids.2.2.2.2

theorem ink_of_class {p : Char → Bool}
    (avoids : [' ', '\t', '\n', '\x0c', '\r'].all (fun c => !p c) = true) {c : Char}
    (member : p c = true) : isAsciiBlank c = false := by
  apply Bool.eq_false_iff.mpr
  intro blank
  rw [outside_of_blank avoids blank] at member
  cases member

theorem Blanks.halts {blanks rest : List Char} (all : Blanks blanks) {p : Char → Bool}
    (avoids : [' ', '\t', '\n', '\x0c', '\r'].all (fun c => !p c) = true)
    (halts : Halts p rest) : Halts p (blanks ++ rest) :=
  halts.append fun c member => outside_of_blank avoids (all c member)

theorem skipBlanks_append {blanks rest : List Char} (all : Blanks blanks)
    (halts : Halts isAsciiBlank rest) : skipBlanks (blanks ++ rest) = rest :=
  dropWhile_append_of_halts all halts

theorem exists_blanks (cs : List Char) : ∃ blanks, Blanks blanks ∧ cs = blanks ++ skipBlanks cs :=
  ⟨cs.takeWhile isAsciiBlank, fun _ member => mem_takeWhile member,
    List.takeWhile_append_dropWhile.symm⟩

theorem symbol_halts (comparison : Comparison) {p : Char → Bool}
    (avoids : ['=', '!', '>', '<'].all (fun c => !p c) = true) (rest : List Char) :
    Halts p (comparison.symbol.toList ++ rest) := by
  simp only [List.all_cons, List.all_nil, Bool.and_true, Bool.and_eq_true, Bool.not_eq_true']
    at avoids
  cases comparison with
  | equal => exact avoids.1
  | notEqual => exact avoids.2.1
  | greater => exact avoids.2.2.1
  | less => exact avoids.2.2.2
  | greaterOrEqual => exact avoids.2.2.1
  | lessOrEqual => exact avoids.2.2.2

section

variable {scope : Scope} {cs rest : List Char}

theorem condition_core {clause : Clause} (formed : clause.WellFormed scope.header)
    (halts : Halts isNumeralChar rest) :
    condition scope (clause.core ++ rest) = .ok (clause.condition, rest) := by
  let operand := clause.operand ++ rest
  let sign := clause.comparison.symbol.toList ++ (clause.afterSign ++ operand)
  let name := clause.name ++ (clause.beforeSign ++ sign)
  have whole : clause.core ++ rest = clause.lead ++ name := by
    simp only [Clause.core, name, sign, operand, List.append_assoc]
  have operandInk : Halts isAsciiBlank operand :=
    formed.spells.halts (by decide) (by decide) (fun _ plain => ink_of_class (by decide) plain) rest
  have signInk : Halts isAsciiBlank sign := symbol_halts _ (by decide) _
  have nameInk : Halts isAsciiBlank name := by
    obtain ⟨first, others, same⟩ := List.exists_cons_of_ne_nil formed.name
    have letter : isNameChar first = true :=
      formed.nameChars first (same ▸ List.mem_cons_self)
    rw [show name = first :: (others ++ (clause.beforeSign ++ sign)) by simp [name, same]]
    exact halts_cons (ink_of_class (by decide) letter)
  have nameEnds : Halts isNameChar (clause.beforeSign ++ sign) :=
    formed.beforeSign.halts (by decide) (symbol_halts _ (by decide) _)
  have signEnds : Halts (· = '=') (clause.afterSign ++ operand) := by
    refine formed.afterSign.halts (by decide) (formed.spells.halts (by decide) (by decide) ?_ rest)
    intro c plain
    simp only [decide_eq_false_iff_not]
    rintro rfl
    cases plain
  have start : skipBlanks (clause.core ++ rest) = name := by
    rw [whole]
    exact skipBlanks_append formed.lead nameInk
  have run : name.takeWhile isNameChar = clause.name :=
    takeWhile_append_of_halts formed.nameChars nameEnds
  have left : skipBlanks (name.dropWhile isNameChar) = sign := by
    rw [dropWhile_append_of_halts formed.nameChars nameEnds]
    exact skipBlanks_append formed.beforeSign signInk
  have compared : comparison? sign = some (clause.comparison, clause.afterSign ++ operand) :=
    comparison?_symbol _ signEnds
  have value : literal scope (skipBlanks (clause.afterSign ++ operand)) =
      .ok (clause.literal, rest) := by
    rw [skipBlanks_append formed.afterSign operandInk]
    exact literal_of_spells scope formed.spells halts
  have named : name ≠ [] := List.append_ne_nil_of_left_ne_nil formed.name _
  have known : scope.header.contains (String.ofList clause.name) = true :=
    (scope.header.contains_iff _).mpr formed.known
  have allowed : ¬(clause.literal.isText = true ∧ clause.comparison.isOrdering = true) := by
    rintro ⟨text, ordering⟩
    rw [formed.equality text] at ordering
    cases ordering
  simp only [condition, start, run, left, if_neg named, if_neg formed.name, known, not_true,
    if_false, compared, value, if_neg allowed]
  rfl

theorem condition_ok {result : Condition} (read : condition scope cs = .ok (result, rest)) :
    (skipBlanks cs).takeWhile isNameChar ≠ [] ∧
    scope.header.contains (String.ofList ((skipBlanks cs).takeWhile isNameChar)) = true ∧
    ∃ after, comparison? (skipBlanks ((skipBlanks cs).dropWhile isNameChar)) =
        some (result.comparison, after) ∧
      literal scope (skipBlanks after) = .ok (result.literal, rest) ∧
      ¬(result.literal.isText = true ∧ result.comparison.isOrdering = true) ∧
      result.column = String.ofList ((skipBlanks cs).takeWhile isNameChar) := by
  unfold condition at read
  dsimp only at read
  split at read
  · cases read
  split at read
  · cases read
  case isFalse named =>
    split at read
    · cases read
    case isFalse known =>
      split at read
      case h_1 => cases read
      case h_2 comparison after compared =>
        split at read
        case h_1 => cases read
        case h_2 value last inside =>
          split at read
          · cases read
          case isFalse allowed =>
            cases read
            exact ⟨named, Decidable.not_not.mp known, after, compared, inside, allowed, rfl⟩

theorem exists_clause {result : Condition} (read : condition scope cs = .ok (result, rest))
    {trail : List Char} (blanks : Blanks trail) :
    ∃ clause : Clause, clause.WellFormed scope.header ∧ cs = clause.core ++ rest ∧
      clause.condition = result ∧ clause.trail = trail := by
  obtain ⟨named, known, after, compared, inside, allowed, column⟩ := condition_ok read
  obtain ⟨lead, leadBlank, start⟩ := exists_blanks cs
  obtain ⟨beforeSign, beforeBlank, between⟩ :=
    exists_blanks ((skipBlanks cs).dropWhile isNameChar)
  obtain ⟨afterSign, afterBlank, behind⟩ := exists_blanks after
  obtain ⟨operand, written, spells⟩ := exists_spelling inside
  let name := (skipBlanks cs).takeWhile isNameChar
  let clause : Clause :=
    ⟨lead, name, beforeSign, result.comparison, afterSign, operand, result.literal, trail⟩
  have known : String.ofList name ∈ scope.header.names := (scope.header.contains_iff _).mp known
  have equality : result.literal.isText = true → result.comparison.isOrdering = false :=
    fun text => Bool.eq_false_iff.mpr fun ordering => allowed ⟨text, ordering⟩
  have whole : cs = clause.core ++ rest := calc
    cs = lead ++ (name ++ (skipBlanks cs).dropWhile isNameChar) := by
      rw [List.takeWhile_append_dropWhile]
      exact start
    _ = lead ++ (name ++ (beforeSign ++ (result.comparison.symbol.toList ++ after))) := by
      rw [← comparison?_eq_some compared, ← between]
    _ = lead ++ (name ++ (beforeSign ++ (result.comparison.symbol.toList ++
          (afterSign ++ (operand ++ rest))))) := by
      rw [← written, ← behind]
    _ = clause.core ++ rest := by simp only [Clause.core, clause, List.append_assoc]
  have same : clause.condition = result := by
    rw [Clause.condition, ← column]
  exact ⟨clause, ⟨leadBlank, named, fun _ member => mem_takeWhile member, known, beforeBlank,
    afterBlank, spells, equality, blanks⟩, whole, same, rfl⟩

end

end Rollup.Filter
