import Rollup.Proofs.Filter.Equality

/-! Filter texts put together.  Blanks behind or in front of a phrase are blanks of its outermost
clauses, so two phrases with a sign between them are one phrase: `||` keeps the terms of both
apart, and `&&` makes one term of the two that it stands between.  Main statement: the text joined
by `||` accepts what either side accepts, and the text joined by `&&` accepts what the terms so
merged accept, which is what both sides accept when each of them is a single term. -/

namespace Rollup.Filter

open Table Text

namespace Expression

/-- The expressions that an expression offers a choice of: the terms of a disjunction, or itself. -/
def alternatives : Expression → List Expression
  | any terms => terms
  | condition c => [condition c]
  | all terms => [all terms]

def isAny : Expression → Bool
  | any _ => true
  | condition _ | all _ => false

theorem alternatives_of_single {expression : Expression} (single : expression.isAny = false) :
    expression.alternatives = [expression] := by
  cases expression with
  | any terms => cases single
  | condition c => rfl
  | all terms => rfl

theorem accepts_joinedBy_any (row : Row) (terms : List Expression) :
    (joinedBy any terms).accepts row = terms.any (·.accepts row) := by
  match terms with
  | [] => simp [joinedBy, accepts, acceptsSome]
  | [term] => simp [joinedBy]
  | first :: second :: others => simp [joinedBy, accepts, acceptsSome_eq]

theorem accepts_joinedBy_all (row : Row) (terms : List Expression) :
    (joinedBy all terms).accepts row = terms.all (·.accepts row) := by
  match terms with
  | [] => simp [joinedBy, accepts, acceptsEvery]
  | [term] => simp [joinedBy]
  | first :: second :: others => simp [joinedBy, accepts, acceptsEvery_eq]

end Expression

namespace Filter

def alternatives (filter : Filter) : List Expression :=
  filter.expression?.elim [] Expression.alternatives

def isAny (filter : Filter) : Bool := filter.expression?.any Expression.isAny

end Filter

section Trees

variable (row : Row) (phrase : List (List Clause))

theorem accepts_phraseTree :
    (phraseTree phrase).accepts row = (phrase.map termTree).any (·.accepts row) :=
  Expression.accepts_joinedBy_any row _

theorem accepts_termTree_append (first second : List Clause) :
    (termTree (first ++ second)).accepts row =
      ((termTree first).accepts row && (termTree second).accepts row) := by
  rw [termTree, List.map_append, Expression.accepts_joinedBy_all, List.all_append,
    ← Expression.accepts_joinedBy_all, ← Expression.accepts_joinedBy_all]
  rfl

theorem alternatives_termTree (clauses : List Clause) :
    (termTree clauses).alternatives = [termTree clauses] := by
  match clauses with
  | [] => rfl
  | [clause] => rfl
  | first :: second :: others => rfl

theorem alternatives_phraseTree : (phraseTree phrase).alternatives = phrase.map termTree := by
  match phrase with
  | [] => rfl
  | [clauses] => exact alternatives_termTree clauses
  | first :: second :: others => rfl

end Trees

section Texts

theorem intercalate_append {separator : List Char} {first second : List (List Char)}
    (some : first ≠ []) (more : second ≠ []) :
    separator.intercalate (first ++ second) =
      separator.intercalate first ++ (separator ++ separator.intercalate second) := by
  induction first with
  | nil => exact absurd rfl some
  | cons item others ih =>
    by_cases last : others = []
    · subst last
      rw [List.singleton_append, List.intercalate_cons_of_ne_nil more,
        List.intercalate_singleton, List.append_assoc]
    · rw [List.cons_append,
        List.intercalate_cons_of_ne_nil (List.append_ne_nil_of_left_ne_nil last second), ih last,
        List.intercalate_cons_of_ne_nil last]
      simp only [List.append_assoc]

theorem termText_append {first second : List Clause} (some : first ≠ []) (more : second ≠ []) :
    termText (first ++ second) = termText first ++ '&' :: '&' :: termText second := by
  rw [termText, List.map_append, intercalate_append (by simpa using some) (by simpa using more)]
  rfl

theorem phraseText_append {first second : List (List Clause)} (some : first ≠ [])
    (more : second ≠ []) :
    phraseText (first ++ second) = phraseText first ++ '|' :: '|' :: phraseText second := by
  rw [phraseText, List.map_append, intercalate_append (by simpa using some) (by simpa using more)]
  rfl

theorem phraseText_merged (front rest : List (List Clause)) {last next : List Clause}
    (some : last ≠ []) (more : next ≠ []) :
    phraseText (front ++ (last ++ next) :: rest) =
      phraseText (front ++ [last]) ++ '&' :: '&' :: phraseText (next :: rest) := by
  induction front with
  | nil =>
    by_cases alone : rest = []
    · subst alone
      simp only [List.nil_append, phraseText_singleton]
      exact termText_append some more
    · rw [List.nil_append, List.nil_append, phraseText_cons _ alone, phraseText_cons _ alone,
        phraseText_singleton, termText_append some more]
      simp only [List.append_assoc, List.cons_append]
  | cons first others ih =>
    have filled : others ++ (last ++ next) :: rest ≠ [] := by simp
    have ended : others ++ [last] ≠ [] := by simp
    rw [List.cons_append, List.cons_append, phraseText_cons first filled, ih,
      phraseText_cons first ended]
    simp only [List.append_assoc, List.cons_append]

variable {header : Header} {blanks : List Char}

theorem exists_term_before_blanks {clauses : List Clause} (formed : TermWellFormed header clauses)
    (all : Blanks blanks) : ∃ others, TermWellFormed header others ∧
      termText others = termText clauses ++ blanks ∧
      others.map Clause.condition = clauses.map Clause.condition := by
  obtain ⟨some, formed⟩ := formed
  induction clauses with
  | nil => exact absurd rfl some
  | cons clause rest ih =>
    obtain ⟨first, later⟩ := List.forall_mem_cons.mp formed
    by_cases last : rest = []
    · subst last
      let extended : Clause := { clause with trail := clause.trail ++ blanks }
      have trail : Blanks (clause.trail ++ blanks) :=
        List.forall_mem_append.mpr ⟨first.trail, all⟩
      refine ⟨[extended], ⟨List.cons_ne_nil _ _, List.forall_mem_singleton.mpr ?_⟩, ?_, rfl⟩
      · exact { first with trail := trail }
      · rw [termText_singleton, termText_singleton, Clause.text, Clause.text, List.append_assoc]
        rfl
    · obtain ⟨others, ⟨more, formed⟩, text, same⟩ := ih last later
      refine ⟨clause :: others, ⟨List.cons_ne_nil _ _, List.forall_mem_cons.mpr ⟨first, formed⟩⟩,
        ?_, by rw [List.map_cons, same, List.map_cons]⟩
      rw [termText_cons clause more, termText_cons clause last, text]
      simp only [List.append_assoc, List.cons_append]

theorem termTree_congr {clauses others : List Clause}
    (same : others.map Clause.condition = clauses.map Clause.condition) :
    termTree others = termTree clauses := by
  have mapped (list : List Clause) :
      (list.map fun clause => Expression.condition clause.condition) =
        (list.map Clause.condition).map .condition := by
    rw [List.map_map]
    rfl
  rw [termTree, mapped, same, ← mapped]
  rfl

theorem exists_phrase_before_blanks {phrase : List (List Clause)}
    (formed : PhraseWellFormed header phrase) (all : Blanks blanks) :
    ∃ others, PhraseWellFormed header others ∧ phraseText others = phraseText phrase ++ blanks ∧
      others.map termTree = phrase.map termTree := by
  obtain ⟨some, formed⟩ := formed
  induction phrase with
  | nil => exact absurd rfl some
  | cons clauses rest ih =>
    obtain ⟨first, later⟩ := List.forall_mem_cons.mp formed
    by_cases last : rest = []
    · subst last
      obtain ⟨extended, formed, text, same⟩ := exists_term_before_blanks first all
      refine ⟨[extended], ⟨List.cons_ne_nil _ _, List.forall_mem_singleton.mpr formed⟩, ?_, ?_⟩
      · rw [phraseText_singleton, phraseText_singleton, text]
      · rw [List.map_singleton, List.map_singleton, termTree_congr same]
    · obtain ⟨others, ⟨more, formed⟩, text, same⟩ := ih last later
      refine ⟨clauses :: others,
        ⟨List.cons_ne_nil _ _, List.forall_mem_cons.mpr ⟨first, formed⟩⟩, ?_,
        by rw [List.map_cons, same, List.map_cons]⟩
      rw [phraseText_cons clauses more, phraseText_cons clauses last, text]
      simp only [List.append_assoc, List.cons_append]

theorem exists_phrase_behind_blanks {phrase : List (List Clause)}
    (formed : PhraseWellFormed header phrase) (all : Blanks blanks) :
    ∃ others, PhraseWellFormed header others ∧ phraseText others = blanks ++ phraseText phrase ∧
      others.map termTree = phrase.map termTree := by
  obtain ⟨some, formed⟩ := formed
  obtain ⟨clauses, rest, rfl⟩ := List.exists_cons_of_ne_nil some
  obtain ⟨⟨filled, term⟩, later⟩ := List.forall_mem_cons.mp formed
  obtain ⟨clause, others, rfl⟩ := List.exists_cons_of_ne_nil filled
  obtain ⟨first, between⟩ := List.forall_mem_cons.mp term
  let extended : Clause := { clause with lead := blanks ++ clause.lead }
  have lead : Blanks (blanks ++ clause.lead) := List.forall_mem_append.mpr ⟨all, first.lead⟩
  have ready : extended.WellFormed header := { first with lead := lead }
  have text : extended.text = blanks ++ clause.text := by
    simp only [Clause.text, Clause.core, extended, List.append_assoc]
  have whole : termText (extended :: others) = blanks ++ termText (clause :: others) := by
    by_cases alone : others = []
    · subst alone
      rw [termText_singleton, termText_singleton, text]
    · rw [termText_cons _ alone, termText_cons _ alone, text, List.append_assoc]
  refine ⟨(extended :: others) :: rest, ⟨List.cons_ne_nil _ _, List.forall_mem_cons.mpr
    ⟨⟨List.cons_ne_nil _ _, List.forall_mem_cons.mpr ⟨ready, between⟩⟩, later⟩⟩, ?_, rfl⟩
  by_cases alone : rest = []
  · subst alone
    rw [phraseText_singleton, phraseText_singleton, whole]
  · rw [phraseText_cons _ alone, phraseText_cons _ alone, whole, List.append_assoc]

end Texts

section Compiling

variable {header : Header} {text : String}

theorem exists_phrase_of_compile {filter : Filter} (filled : trim text.toList ≠ [])
    (compiled : Filter.compile header text = .ok filter) : ∃ phrase,
      PhraseWellFormed header phrase ∧ text.toList = phraseText phrase ∧
      filter = ⟨some (phraseTree phrase)⟩ := by
  rw [Filter.compile_eq, if_neg filled] at compiled
  cases read : parse header text with
  | error reason =>
    rw [read] at compiled
    cases compiled
  | ok expression =>
    rw [read] at compiled
    cases compiled
    obtain ⟨phrase, formed, same, rfl⟩ := (parse_ok_iff header text expression).mp read
    exact ⟨phrase, formed, same, rfl⟩

theorem compile_of_phrase {phrase : List (List Clause)} (filled : trim text.toList ≠ [])
    (formed : PhraseWellFormed header phrase) (same : text.toList = phraseText phrase) :
    Filter.compile header text = .ok ⟨some (phraseTree phrase)⟩ := by
  rw [Filter.compile_eq, if_neg filled, (parse_ok_iff header text _).mpr ⟨phrase, formed, same, rfl⟩]
  rfl

end Compiling

section Joining

variable {header : Header} {left right : List (List Clause)}
  (formed : PhraseWellFormed header left) (formed' : PhraseWellFormed header right)
include formed formed'

theorem exists_disjunction {text : String}
    (same : text.toList = phraseText left ++ '|' :: '|' :: phraseText right) :
    ∃ either, Filter.compile header text = .ok ⟨some either⟩ ∧ ∀ row, either.accepts row =
      ((left.map termTree).any (·.accepts row) || (right.map termTree).any (·.accepts row)) := by
  have filled : trim text.toList ≠ [] := trim_ne_nil_of_mem (c := '|') (by simp [same]) (by decide)
  have ready : PhraseWellFormed header (left ++ right) :=
    ⟨List.append_ne_nil_of_left_ne_nil formed.nonempty right,
      List.forall_mem_append.mpr ⟨formed.formed, formed'.formed⟩⟩
  have written : text.toList = phraseText (left ++ right) := by
    rw [same, phraseText_append formed.nonempty formed'.nonempty]
  refine ⟨_, compile_of_phrase filled ready written, fun row => ?_⟩
  rw [accepts_phraseTree, List.map_append, List.any_append]

theorem exists_conjunction {text : String}
    (same : text.toList = phraseText left ++ '&' :: '&' :: phraseText right) :
    ∃ both, Filter.compile header text = .ok ⟨some both⟩ ∧ ∃ front last next rest,
      left.map termTree = front ++ [last] ∧ right.map termTree = next :: rest ∧
      ∀ row, both.accepts row = (front.any (·.accepts row) ||
        (last.accepts row && next.accepts row) || rest.any (·.accepts row)) := by
  obtain ⟨front, last, rfl⟩ : ∃ front last, left = front ++ [last] :=
    ⟨_, _, (List.dropLast_concat_getLast formed.nonempty).symm⟩
  obtain ⟨next, rest, rfl⟩ := List.exists_cons_of_ne_nil formed'.nonempty
  obtain ⟨fronts, lasts⟩ := List.forall_mem_append.mp formed.formed
  obtain ⟨nexts, rests⟩ := List.forall_mem_cons.mp formed'.formed
  have lasts := List.forall_mem_singleton.mp lasts
  have filled : trim text.toList ≠ [] := trim_ne_nil_of_mem (c := '&') (by simp [same]) (by decide)
  -- the sign joins the last term of the left phrase and the first of the right one into one
  have merged : TermWellFormed header (last ++ next) :=
    ⟨List.append_ne_nil_of_left_ne_nil lasts.nonempty next,
      List.forall_mem_append.mpr ⟨lasts.formed, nexts.formed⟩⟩
  have ready : PhraseWellFormed header (front ++ (last ++ next) :: rest) :=
    ⟨by simp, List.forall_mem_append.mpr ⟨fronts, List.forall_mem_cons.mpr ⟨merged, rests⟩⟩⟩
  have written : text.toList = phraseText (front ++ (last ++ next) :: rest) := by
    rw [same, phraseText_merged front rest lasts.nonempty nexts.nonempty]
  refine ⟨_, compile_of_phrase filled ready written, front.map termTree, termTree last,
    termTree next, rest.map termTree, by simp, rfl, fun row => ?_⟩
  rw [accepts_phraseTree, List.map_append, List.any_append, List.map_cons, List.any_cons,
    accepts_termTree_append, Bool.or_assoc]

end Joining

/-- Texts joined by `||` accept what either accepts.  Joined by `&&` they accept what their
alternatives do once the last of one side and the first of the other are one; so if neither side
is a disjunction, what both accept. -/
theorem compile_joined (header : Header) {a b : String} {first second : Filter}
    (filled : trim a.toList ≠ []) (filled' : trim b.toList ≠ [])
    (compiled : Filter.compile header a = .ok first)
    (compiled' : Filter.compile header b = .ok second) {before after : String}
    (blanks : Blanks before.toList) (blanks' : Blanks after.toList) :
    (∃ either, Filter.compile header (a ++ before ++ "||" ++ after ++ b) = .ok either ∧
      ∀ row, either.accepts row = (first.accepts row || second.accepts row)) ∧
    ∃ both, Filter.compile header (a ++ before ++ "&&" ++ after ++ b) = .ok both ∧
      (first.isAny = false → second.isAny = false →
        ∀ row, both.accepts row = (first.accepts row && second.accepts row)) ∧
      ∃ front last next rest, first.alternatives = front ++ [last] ∧
        second.alternatives = next :: rest ∧
        ∀ row, both.accepts row = (front.any (·.accepts row) ||
          (last.accepts row && next.accepts row) || rest.any (·.accepts row)) := by
  obtain ⟨phrase, formed, same, rfl⟩ := exists_phrase_of_compile filled compiled
  obtain ⟨phrase', formed', same', rfl⟩ := exists_phrase_of_compile filled' compiled'
  obtain ⟨left, leftFormed, leftText, leftTrees⟩ := exists_phrase_before_blanks formed blanks
  obtain ⟨right, rightFormed, rightText, rightTrees⟩ := exists_phrase_behind_blanks formed' blanks'
  have whole (sign : String) : (a ++ before ++ sign ++ after ++ b).toList =
      phraseText left ++ (sign.toList ++ phraseText right) := by
    simp only [String.toList_append, leftText, rightText, same, same', List.append_assoc]
  constructor
  · obtain ⟨either, joined, means⟩ := exists_disjunction leftFormed rightFormed (whole "||")
    refine ⟨_, joined, fun row => ?_⟩
    have told := means row
    rwa [leftTrees, rightTrees, ← accepts_phraseTree, ← accepts_phraseTree] at told
  · obtain ⟨both, joined, front, last, next, rest, lefts, rights, means⟩ :=
      exists_conjunction leftFormed rightFormed (whole "&&")
    have ended : (phraseTree phrase).alternatives = front ++ [last] := by
      rw [alternatives_phraseTree, ← leftTrees, lefts]
    have begins : (phraseTree phrase').alternatives = next :: rest := by
      rw [alternatives_phraseTree, ← rightTrees, rights]
    refine ⟨_, joined, ?_, front, last, next, rest, ended, begins, means⟩
    intro single single' row
    have alone := (Expression.alternatives_of_single single).symm.trans ended
    have alone' := (Expression.alternatives_of_single single').symm.trans begins
    obtain ⟨rfl, rfl⟩ : front = [] ∧ last = phraseTree phrase := by
      simpa using List.append_eq_singleton_iff.mp alone.symm
    obtain ⟨rfl, rfl⟩ := List.cons.inj alone'
    have told := means row
    rwa [List.any_nil, Bool.false_or, Bool.or_false] at told

/-- A disjunction with the other sign in a literal, then a single term. -/
theorem compile_joined_merging :
    let header : Header := ⟨["a", "b"]⟩
    let a := "a == \"x\"||b == \"&&\""
    let b := "b == \"y\""
    let isX : Expression := .condition ⟨"a", .equal, .text "x"⟩
    let isSign : Expression := .condition ⟨"b", .equal, .text "&&"⟩
    let isY : Expression := .condition ⟨"b", .equal, .text "y"⟩
    trim a.toList ≠ [] ∧ trim b.toList ≠ [] ∧
    Filter.compile header a = .ok ⟨some (.any [isX, isSign])⟩ ∧
    Filter.compile header b = .ok ⟨some isY⟩ ∧ Blanks " ".toList ∧ Blanks "".toList ∧
    ∃ both, Filter.compile header "a == \"x\"||b == \"&&\" &&b == \"y\"" = .ok both ∧
      ∀ row, both.accepts row =
        (isX.accepts row || (isSign.accepts row && isY.accepts row)) := by
  intro header a b isX isSign isY
  have filled : trim a.toList ≠ [] := by decide
  have filled' : trim b.toList ≠ [] := by decide
  have formed (column value : String) (known : column ∈ header.names) (named : column ≠ "")
      (chars : ∀ c ∈ column.toList, isNameChar c = true) :
      TermWellFormed header [equalityClause column value] :=
    ⟨List.cons_ne_nil _ _,
      List.forall_mem_singleton.mpr (equalityClause_wellFormed named chars known value)⟩
  have phrase : PhraseWellFormed header [[equalityClause "a" "x"], [equalityClause "b" "&&"]] :=
    ⟨List.cons_ne_nil _ _, List.forall_mem_cons.mpr
      ⟨formed "a" "x" (by decide) (by decide) (List.all_eq_true.mp rfl),
        List.forall_mem_singleton.mpr
          (formed "b" "&&" (by decide) (by decide) (List.all_eq_true.mp rfl))⟩⟩
  have tree : phraseTree [[equalityClause "a" "x"], [equalityClause "b" "&&"]] =
      .any [isX, isSign] := by
    simp only [phraseTree, termTree, joinedBy, List.map_cons, List.map_nil, Clause.condition,
      equalityClause, String.ofList_toList, isX, isSign]
  have compiled : Filter.compile header a = .ok ⟨some (.any [isX, isSign])⟩ := by
    rw [← tree]
    exact compile_of_phrase filled phrase (by decide)
  have written : b = equalityText "b" "y" := by decide
  have compiled' : Filter.compile header b = .ok ⟨some isY⟩ := by
    rw [written]
    exact compile_equalityText (by decide) (List.all_eq_true.mp rfl) (by decide) "y"
  have blanks : Blanks " ".toList := by decide
  have blanks' : Blanks "".toList := by decide
  obtain ⟨-, both, joined, -, front, last, next, rest, ended, begins, means⟩ :=
    compile_joined header filled filled' compiled compiled' blanks blanks'
  have text : a ++ " " ++ "&&" ++ "" ++ b = "a == \"x\"||b == \"&&\" &&b == \"y\"" := by decide
  rw [text] at joined
  refine ⟨filled, filled', compiled, compiled', blanks, blanks', both, joined, fun row => ?_⟩
  have parts : [isX] ++ [isSign] = front ++ [last] := ended
  have single : [isY] = next :: rest := begins
  obtain ⟨rfl, same⟩ := List.append_inj' parts rfl
  obtain ⟨rfl, -⟩ := List.cons.inj same
  obtain ⟨rfl, rfl⟩ := List.cons.inj single
  have told := means row
  rwa [List.any_cons, List.any_nil, Bool.or_false, Bool.or_false] at told

end Rollup.Filter
