import Rollup.Filter.Compile
import Rollup.Proofs.Filter.Clauses

/-! Filter texts are read by their grammar.  A chain of conditions takes the clauses of a term up to
the end or to the sign for another term, and a chain of terms takes the whole phrase.  Main
statement: compiling a text that is not blank succeeds exactly when the text is a phrase about
columns there are, and then gives the tree of that phrase. -/

namespace Rollup.Filter

open Table Text

section

variable {scope : Scope} {cs rest : List Char}

/-- A term ends with the text, or in front of the sign for another term. -/
def TermEnds (rest : List Char) : Prop := rest = [] ∨ ∃ more, rest = '|' :: more

theorem TermEnds.halts {p : Char → Bool} (ends : TermEnds rest) (outside : p '|' = false) :
    Halts p rest := by
  rcases ends with rfl | ⟨more, rfl⟩
  · rfl
  · exact outside

theorem TermEnds.no_joint (ends : TermEnds rest) : afterWord? ['&', '&'] rest = none := by
  rcases ends with rfl | ⟨more, rfl⟩ <;> rfl

theorem conjuncts_termText {clauses : List Clause} (formed : TermWellFormed scope.header clauses)
    (ends : TermEnds rest) :
    conjuncts scope (termText clauses ++ rest) =
      .ok (clauses.map fun clause => .condition clause.condition, rest) := by
  obtain ⟨nonempty, formed⟩ := formed
  induction clauses with
  | nil => exact absurd rfl nonempty
  | cons clause others ih =>
    obtain ⟨first, later⟩ := List.forall_mem_cons.mp formed
    by_cases last : others = []
    · subst last
      have read := condition_core first (first.trail.halts (by decide) (ends.halts rfl))
      have left := skipBlanks_append first.trail (ends.halts rfl)
      rw [termText_singleton, Clause.text, List.append_assoc, conjuncts_eq, read]
      simp only [left, ends.no_joint, List.map_cons, List.map_nil]
    · let tail := termText others ++ rest
      have halts : ∀ {p : Char → Bool}, p '&' = false → Halts p ('&' :: '&' :: tail) := halts_cons
      have read := condition_core first (first.trail.halts (by decide) (halts (by decide)))
      have left := skipBlanks_append first.trail (halts (by decide))
      have joint : afterWord? ['&', '&'] ('&' :: '&' :: tail) = some tail := rfl
      have inner : conjuncts scope tail = _ := ih last later
      rw [termText_cons clause last, Clause.text, List.append_assoc, List.append_assoc,
        List.cons_append, List.cons_append, conjuncts_eq, read]
      simp only [left, joint, inner, List.map_cons]

theorem exists_term {terms : List Expression} (read : conjuncts scope cs = .ok (terms, rest)) :
    Halts isAsciiBlank rest ∧ ∃ clauses, TermWellFormed scope.header clauses ∧
      cs = termText clauses ++ rest ∧
      terms = clauses.map fun clause => .condition clause.condition := by
  fun_induction conjuncts scope cs generalizing terms with
  | case1 => cases read
  | case2 cs first after inside joint =>
    cases read
    obtain ⟨trail, blanks, behind⟩ := exists_blanks after
    obtain ⟨clause, formed, whole, rfl, rfl⟩ := exists_clause inside blanks
    refine ⟨halts_dropWhile _ _, [clause], ⟨by simp, by simpa using formed⟩, ?_, rfl⟩
    rw [termText_singleton, Clause.text, List.append_assoc, ← behind, whole]
  | case3 => cases read
  | case4 cs first after inside next joint shorter short others last more ih =>
    cases read
    obtain ⟨halts, clauses, formed, tail, rfl⟩ := ih more
    obtain ⟨trail, blanks, behind⟩ := exists_blanks after
    obtain ⟨clause, single, whole, rfl, rfl⟩ := exists_clause inside blanks
    refine ⟨halts, clause :: clauses, ⟨by simp, ?_⟩, ?_, rfl⟩
    · exact List.forall_mem_cons.mpr ⟨single, formed.formed⟩
    · calc
        cs = clause.core ++ (clause.trail ++ (['&', '&'] ++ next)) := by
          rw [← afterWord?_eq_some_iff.mp joint, ← behind, whole]
        _ = termText (clause :: clauses) ++ rest := by
          rw [termText_cons clause formed.nonempty, tail]
          simp [Clause.text]

theorem disjuncts_phraseText {phrase : List (List Clause)}
    (formed : PhraseWellFormed scope.header phrase) :
    disjuncts scope (phraseText phrase) = .ok (phrase.map termTree, []) := by
  obtain ⟨nonempty, formed⟩ := formed
  induction phrase with
  | nil => exact absurd rfl nonempty
  | cons clauses others ih =>
    obtain ⟨first, later⟩ := List.forall_mem_cons.mp formed
    by_cases last : others = []
    · subst last
      have read := conjuncts_termText first (.inl rfl : TermEnds [])
      rw [List.append_nil] at read
      rw [phraseText_singleton, disjuncts_eq, read]
      rfl
    · let tail := phraseText others
      have read := conjuncts_termText first (.inr ⟨'|' :: tail, rfl⟩)
      have left : skipBlanks ('|' :: '|' :: tail) = '|' :: '|' :: tail :=
        dropWhile_of_halts (halts_cons (by decide))
      have joint : afterWord? ['|', '|'] ('|' :: '|' :: tail) = some tail := rfl
      have inner : disjuncts scope tail = _ := ih last later
      rw [phraseText_cons clauses last, disjuncts_eq, read]
      simp only [left, joint, inner, List.map_cons]
      rfl

theorem exists_phrase {terms : List Expression} (read : disjuncts scope cs = .ok (terms, rest)) :
    ∃ phrase, PhraseWellFormed scope.header phrase ∧ cs = phraseText phrase ++ rest ∧
      terms = phrase.map termTree := by
  fun_induction disjuncts scope cs generalizing terms with
  | case1 => cases read
  | case2 cs inner after inside first =>
    cases read
    obtain ⟨halts, clauses, formed, whole, rfl⟩ := exists_term inside
    have same : skipBlanks after = after := dropWhile_of_halts halts
    refine ⟨[clauses], ⟨by simp, by simpa using formed⟩, ?_, rfl⟩
    rw [phraseText_singleton, whole, same]
  | case3 => cases read
  | case4 cs inner after inside first next joint shorter short others last more =>
    rename_i ih
    cases read
    obtain ⟨halts, clauses, formed, whole, rfl⟩ := exists_term inside
    obtain ⟨phrase, inner, tail, rfl⟩ := ih more
    have same : skipBlanks after = after := dropWhile_of_halts halts
    refine ⟨clauses :: phrase, ⟨by simp, ?_⟩, ?_, rfl⟩
    · exact List.forall_mem_cons.mpr ⟨formed, inner.formed⟩
    · calc
        cs = termText clauses ++ (['|', '|'] ++ next) := by
          rw [whole, ← same, afterWord?_eq_some_iff.mp joint]
        _ = phraseText (clauses :: phrase) ++ rest := by
          rw [phraseText_cons clauses inner.nonempty, tail]
          simp

end

/-- A text is accepted exactly when it is written by the grammar, and gives the tree of that. -/
theorem parse_ok_iff (header : Header) (text : String) (expression : Expression) :
    parse header text = .ok expression ↔ ∃ phrase, PhraseWellFormed header phrase ∧
      text.toList = phraseText phrase ∧ expression = phraseTree phrase := by
  let scope : Scope := ⟨header, byteLength text.toList⟩
  constructor
  · intro read
    unfold parse at read
    dsimp only at read
    split at read
    case h_1 => cases read
    case h_2 terms whole =>
      cases read
      obtain ⟨phrase, formed, same, rfl⟩ := exists_phrase whole
      exact ⟨phrase, formed, same.trans (List.append_nil _), rfl⟩
    case h_3 => cases read
  · rintro ⟨phrase, formed, same, rfl⟩
    have read : disjuncts scope text.toList = .ok (phrase.map termTree, []) := by
      rw [same]
      exact disjuncts_phraseText formed
    simp only [parse, scope] at read ⊢
    rw [read]
    rfl

/-- A text that is not blank is compiled exactly when the grammar has it, and to the tree of its
phrase; and no number of the grammar is refused. -/
theorem compile_ok_iff (header : Header) {text : String} (filled : trim text.toList ≠ [])
    (filter : Filter) :
    (Filter.compile header text = .ok filter ↔ ∃ phrase, PhraseWellFormed header phrase ∧
      text.toList = phraseText phrase ∧ filter = ⟨some (phraseTree phrase)⟩) ∧
    ∀ digits, IsNumber digits → ∃ value, Decimal.read? digits = some value := by
  refine ⟨?_, fun _ shape => exists_value_of_isNumber shape⟩
  rw [Filter.compile_eq, if_neg filled]
  constructor
  · intro compiled
    cases read : parse header text with
    | error reason =>
      rw [read] at compiled
      cases compiled
    | ok expression =>
      rw [read] at compiled
      cases compiled
      obtain ⟨phrase, formed, same, rfl⟩ := (parse_ok_iff header text expression).mp read
      exact ⟨phrase, formed, same, rfl⟩
  · rintro ⟨phrase, formed, same, rfl⟩
    rw [(parse_ok_iff header text _).mpr ⟨phrase, formed, same, rfl⟩]
    rfl

/-- Both joints, both kinds of literal, a backslash before a quote and one before a letter. -/
theorem compile_ok_iff_two_terms :
    let header : Header := ⟨["a", "b"]⟩
    let text := "a>=-1.||\tb == \"\\\"\\z\"&& a!=.5\n"
    trim text.toList ≠ [] ∧
    ∃ first second, Decimal.read? ['-', '1', '.'] = some first ∧
      Decimal.read? ['.', '5'] = some second ∧
      Filter.compile header text = .ok ⟨some (.any
        [.condition ⟨"a", .greaterOrEqual, .number first⟩,
          .all [.condition ⟨"b", .equal, .text "\"\\z"⟩,
            .condition ⟨"a", .notEqual, .number second⟩]])⟩ := by
  intro header text
  have filled : trim text.toList ≠ [] := by decide +kernel
  have whole : IsNumber ['-', '1', '.'] :=
    ⟨['1', '.'], .inr rfl, by simp [isNumeralChar], ⟨'1', List.mem_cons_self, rfl⟩, by decide⟩
  have half : IsNumber ['.', '5'] :=
    ⟨['.', '5'], .inl rfl, by simp [isNumeralChar], ⟨'5', by simp, rfl⟩, by decide⟩
  have escaped : Escaped ['\\', '"', '\\', 'z'] ['"', '\\', 'z'] :=
    .escape (.inl rfl) (.backslash (by decide) (by decide) (.plain (by decide) (by decide) .nil))
  have named : ∀ c ∈ ['a'], isNameChar c = true := List.forall_mem_singleton.mpr rfl
  have known : "a" ∈ header.names := List.mem_cons_self
  have space : Blanks [' '] := by decide
  have none : Blanks [] := by decide
  obtain ⟨first, readFirst⟩ := exists_value_of_isNumber whole
  obtain ⟨second, readSecond⟩ := exists_value_of_isNumber half
  let least : Clause := ⟨[], ['a'], [], .greaterOrEqual, [], ['-', '1', '.'], .number first, []⟩
  let same : Clause :=
    ⟨['\t'], ['b'], [' '], .equal, [' '], ['"', '\\', '"', '\\', 'z', '"'], .text "\"\\z", []⟩
  let other : Clause := ⟨[' '], ['a'], [], .notEqual, [], ['.', '5'], .number second, ['\n']⟩
  have leastFormed : least.WellFormed header :=
    ⟨none, List.cons_ne_nil _ _, named, known, none, none, .number whole readFirst,
      (absurd · Bool.false_ne_true), none⟩
  have sameFormed : same.WellFormed header :=
    ⟨by decide, List.cons_ne_nil _ _, List.forall_mem_singleton.mpr rfl, by decide, space, space,
      .text escaped, fun _ => rfl, none⟩
  have otherFormed : other.WellFormed header :=
    ⟨space, List.cons_ne_nil _ _, named, known, none, none, .number half readSecond,
      (absurd · Bool.false_ne_true), (by decide : Blanks ['\n'])⟩
  have formed : PhraseWellFormed header [[least], [same, other]] := by
    have alone : TermWellFormed header [least] :=
      ⟨List.cons_ne_nil _ _, List.forall_mem_singleton.mpr leastFormed⟩
    have both : TermWellFormed header [same, other] :=
      ⟨List.cons_ne_nil _ _,
        List.forall_mem_cons.mpr ⟨sameFormed, List.forall_mem_singleton.mpr otherFormed⟩⟩
    exact ⟨List.cons_ne_nil _ _,
      List.forall_mem_cons.mpr ⟨alone, List.forall_mem_singleton.mpr both⟩⟩
  have written : text.toList = phraseText [[least], [same, other]] := by
    simp [text, phraseText, termText, Clause.text, Clause.core, least, same, other,
      Comparison.symbol]
  refine ⟨filled, first, second, readFirst, readSecond, ?_⟩
  exact (compile_ok_iff header filled _).1.mpr ⟨_, formed, written, rfl⟩

end Rollup.Filter
