import Rollup.Proofs.Filter.Numbers

/-! The tokens of a filter text.  Each reader takes exactly what the grammar gives for its token,
provided that the text behind it cannot be taken for more of it. -/

namespace Rollup.Filter

open Text

section

variable {raw text cs rest : List Char}

theorem quoted?_of_escaped (escaped : Escaped raw text) (rest : List Char) :
    quoted? (raw ++ '"' :: rest) = some (text, rest) := by
  induction escaped with
  | nil => rfl
  | plain notQuote notBackslash tail ih =>
    rw [List.cons_append, quoted?]
    · rw [ih]
      rfl
    · exact notQuote
    · exact fun _ same => absurd same notBackslash
    · exact fun _ same => absurd same notBackslash
  | escape special tail ih =>
    rcases special with rfl | rfl <;> rw [List.cons_append, List.cons_append, quoted?, ih] <;> rfl
  | backslash notQuote notBackslash tail ih =>
    rw [List.cons_append, quoted?]
    · rw [ih]
      rfl
    · decide
    · intro _ _ same
      exact notQuote (List.cons.inj same).1
    · intro _ _ same
      exact notBackslash (List.cons.inj same).1

theorem exists_escaped (read : quoted? cs = some (text, rest)) :
    ∃ raw, cs = raw ++ '"' :: rest ∧ Escaped raw text := by
  fun_induction quoted? cs generalizing text with
  | case1 => cases read
  | case2 rest =>
    cases read
    exact ⟨[], rfl, .nil⟩
  | case3 after ih =>
    obtain ⟨⟨inner, last⟩, inside, same⟩ := Option.map_eq_some_iff.1 read
    cases same
    obtain ⟨raw, rfl, escaped⟩ := ih inside
    exact ⟨'\\' :: '"' :: raw, rfl, .escape (.inl rfl) escaped⟩
  | case4 after ih =>
    obtain ⟨⟨inner, last⟩, inside, same⟩ := Option.map_eq_some_iff.1 read
    cases same
    obtain ⟨raw, rfl, escaped⟩ := ih inside
    exact ⟨'\\' :: '\\' :: raw, rfl, .escape (.inr rfl) escaped⟩
  | case5 c after notQuote notEscape notBackslash ih =>
    obtain ⟨⟨inner, last⟩, inside, same⟩ := Option.map_eq_some_iff.1 read
    cases same
    obtain ⟨raw, rfl, escaped⟩ := ih inside
    refine ⟨c :: raw, rfl, ?_⟩
    by_cases slash : c = '\\'
    · subst slash
      cases raw with
      | nil => exact (notEscape _ rfl rfl).elim
      | cons next others =>
        refine .backslash ?_ ?_ escaped
        · rintro rfl
          exact notEscape _ rfl rfl
        · rintro rfl
          exact notBackslash _ rfl rfl
    · exact .plain notQuote slash escaped

theorem comparison?_symbol (comparison : Comparison) (halts : Halts (· = '=') rest) :
    comparison? (comparison.symbol.toList ++ rest) = some (comparison, rest) := by
  have short : afterWord? ['='] rest = none := by
    cases rest with
    | nil => rfl
    | cons first others =>
      have other : '=' ≠ first := by
        rintro rfl
        cases halts
      exact if_neg other
  cases comparison <;>
    simp [comparison?, Comparison.all, Comparison.symbol, afterWord?, short]

theorem comparison?_eq_some {comparison : Comparison}
    (read : comparison? cs = some (comparison, rest)) :
    cs = comparison.symbol.toList ++ rest := by
  obtain ⟨candidate, _, found⟩ := List.exists_of_findSome?_eq_some read
  obtain ⟨after, token, same⟩ := Option.map_eq_some_iff.1 found
  cases same
  exact afterWord?_eq_some_iff.1 token

variable {operand : List Char} {value : Literal}

theorem IsNumber.begins (shape : IsNumber operand) :
    ∃ first others, operand = first :: others ∧ (first = '-' ∨ isNumeralChar first = true) := by
  obtain ⟨body, signed, unsigned⟩ := shape
  rcases signed with rfl | rfl
  · obtain ⟨c, member, -⟩ := unsigned.digit
    cases operand with
    | nil => cases member
    | cons first others =>
      exact ⟨first, others, rfl, .inr (unsigned.chars first List.mem_cons_self)⟩
  · exact ⟨'-', body, rfl, .inl rfl⟩

theorem Spells.begins (spells : Spells operand value) :
    ∃ first others, operand = first :: others ∧
      (first = '"' ∨ first = '-' ∨ isNumeralChar first = true) := by
  cases spells with
  | text escaped => exact ⟨_, _, rfl, .inl rfl⟩
  | number shape read =>
    obtain ⟨first, others, same, begins⟩ := shape.begins
    exact ⟨first, others, same, .inr begins⟩

theorem Spells.halts (spells : Spells operand value) {p : Char → Bool} (quote : p '"' = false)
    (minus : p '-' = false) (plain : ∀ c, isNumeralChar c = true → p c = false)
    (rest : List Char) : Halts p (operand ++ rest) := by
  obtain ⟨first, others, rfl, begins⟩ := spells.begins
  rcases begins with rfl | rfl | digit
  · exact quote
  · exact minus
  · exact plain first digit

theorem literal_of_spells (scope : Scope) (spells : Spells operand value)
    (halts : Halts isNumeralChar rest) :
    literal scope (operand ++ rest) = .ok (value, rest) := by
  cases spells with
  | @text raw text escaped =>
    have read := quoted?_of_escaped escaped rest
    simp only [literal, List.cons_append, List.append_assoc, List.nil_append, read]
  | number shape read =>
    have run := numeral_of_isNumber shape halts
    obtain ⟨first, others, rfl, begins⟩ := shape.begins
    have notQuote : first ≠ '"' := by
      rintro rfl
      revert begins
      decide
    unfold literal
    split
    case h_1 empty => cases empty
    case h_2 same => exact absurd (List.cons.inj same).1 notQuote
    case h_3 => simp only [run, reduceCtorEq, if_false, read]

theorem exists_spelling {scope : Scope} (read : literal scope cs = .ok (value, rest)) :
    ∃ operand, cs = operand ++ rest ∧ Spells operand value := by
  unfold literal at read
  split at read
  case h_1 => cases read
  case h_2 body =>
    split at read
    case h_1 text after inside =>
      cases read
      obtain ⟨raw, rfl, escaped⟩ := exists_escaped inside
      exact ⟨'"' :: (raw ++ ['"']), by simp, .text escaped⟩
    case h_2 => cases read
  case h_3 =>
    dsimp only at read
    split at read
    · cases read
    · split at read
      case h_1 number inside =>
        cases read
        exact ⟨_, (numeral_append cs).symm, .number (isNumber_of_read? inside) inside⟩
      case h_2 => cases read

end

end Rollup.Filter
