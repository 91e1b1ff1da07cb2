import Mathlib
import Rollup.Proofs.Filter.Phrases
import Rollup.Text.Encoding

/-! Where a filter text is wrong.  Reading only ever stands at the beginning of a rest of the text,
so a position is the number of bytes in front of such a rest and never falls into a character.
Main statement: the position of an error is a place of the text, and the error tells what is there:
the rest that does not continue what was read, a column, a literal or a sign from there on, or the
lack of one. -/

namespace Rollup.Filter

open Table Text

def FilterError.position : FilterError → Nat
  | .unknownColumn _ position _ | .expectedColumn position | .expectedOperator position
  | .expectedValue position | .unclosedString position | .invalidNumber _ position
  | .stringOrdering _ _ position | .unexpectedInput position _ | .unexpectedEnd position => position

/-- Whether a text ends in a backslash that no backslash in front of it escapes. -/
def endsEscaping (cs : List Char) : Bool :=
  cs.foldl (fun escaping c => c = '\\' && !escaping) false

def beginsLiteral (c : Char) : Bool := c = '"' || c = '-' || isNumeralChar c

/-- What an error tells about the text in front of its place and the text from there on. -/
def FilterError.Describes (header : Header) (front rest : List Char) : FilterError → Prop
  | .unknownColumn column _ available => ∃ more, rest = column.toList ++ more ∧ column ≠ "" ∧
      (∀ c ∈ column.toList, isNameChar c = true) ∧ Halts isNameChar more ∧
      column ∉ header.names ∧ available = header.describe
  | .expectedColumn _ => ∃ byte more, Utf8.encode (String.ofList rest) = byte :: more ∧
      isNameChar (Char.ofNat byte.toNat) = false ∧ isAsciiBlankCode byte.toNat = false
  | .expectedOperator _ => ∀ comparison : Comparison, ¬comparison.symbol.toList <+: rest
  | .expectedValue _ => Halts beginsLiteral rest
  | .unclosedString _ => ∃ body, rest = '"' :: body ∧
      ∀ before after, body = before ++ '"' :: after → endsEscaping before = true
  | .invalidNumber literal _ => ∃ more, rest = literal.toList ++ more ∧ literal ≠ "" ∧
      Halts isNumeralChar more ∧ Decimal.read? literal.toList = none
  | .stringOrdering _ operator _ => ∃ (comparison : Comparison) (more : List Char),
      comparison.isOrdering = true ∧ operator = comparison.symbol ∧ rest = operator.toList ++ more
  | .unexpectedInput _ remainder => remainder = String.ofList rest ∧ rest ≠ [] ∧
      ¬['&', '&'] <+: rest ∧ ¬['|', '|'] <+: rest ∧
      ∃ filter, Filter.compile header (String.ofList front) = .ok filter
  | .unexpectedEnd _ => rest = []

/-- An error that names a place of the text and tells what is there. -/
def FilterError.Located (header : Header) (text : List Char) (error : FilterError) : Prop :=
  ∃ front rest, text = front ++ rest ∧ error.position = byteLength front ∧
    error.Describes header front rest

theorem byteLength_eq (cs : List Char) :
    byteLength cs = (Utf8.encode (String.ofList cs)).length := by
  rw [Utf8.encode_ofList, byteLength_eq_length]

theorem endsEscaping_pair (c : Char) (cs : List Char) :
    endsEscaping ('\\' :: c :: cs) = endsEscaping cs := by
  simp [endsEscaping]

theorem endsEscaping_of_unclosed {body before after : List Char} (unclosed : quoted? body = none)
    (same : body = before ++ '"' :: after) : endsEscaping before = true := by
  fun_induction quoted? body generalizing before with
  | case1 => simp at same
  | case2 => cases unclosed
  | case3 rest ih =>
    have inner : quoted? rest = none := by simpa using unclosed
    cases before with
    | nil => simp at same
    | cons c more =>
      obtain ⟨rfl, tail⟩ := List.cons.inj same
      cases more with
      | nil => rfl
      | cons d others =>
        obtain ⟨rfl, last⟩ := List.cons.inj tail
        rw [endsEscaping_pair]
        exact ih inner last
  | case4 rest ih =>
    have inner : quoted? rest = none := by simpa using unclosed
    cases before with
    | nil => simp at same
    | cons c more =>
      obtain ⟨rfl, tail⟩ := List.cons.inj same
      cases more with
      | nil => simp at tail
      | cons d others =>
        obtain ⟨rfl, last⟩ := List.cons.inj tail
        rw [endsEscaping_pair]
        exact ih inner last
  | case5 c rest notQuote notEscape notBackslash ih =>
    have inner : quoted? rest = none := by simpa using unclosed
    cases before with
    | nil => exact absurd (List.cons.inj same).1 notQuote
    | cons d others =>
      obtain ⟨rfl, tail⟩ := List.cons.inj same
      have later := ih inner tail
      by_cases slash : c = '\\'
      · -- what this backslash escapes is no backslash, so it escapes nothing itself
        subst slash
        cases others with
        | nil => exact (notEscape after rfl tail).elim
        | cons next more =>
          have plain : next ≠ '\\' := by
            rintro rfl
            exact notBackslash _ rfl tail
          simpa [endsEscaping, plain] using later
      · simpa [endsEscaping, slash] using later

theorem halts_of_numeral_eq_nil {cs : List Char} (nothing : (numeral cs).1 = [])
    (notQuote : ∀ body, cs ≠ '"' :: body) : Halts beginsLiteral cs := by
  cases cs with
  | nil => exact halts_nil
  | cons c rest =>
    have quote : c ≠ '"' := by
      rintro rfl
      exact notQuote rest rfl
    have minus : c ≠ '-' := by
      rintro rfl
      cases nothing
    have plain : isNumeralChar c = false := by
      apply Bool.eq_false_iff.mpr
      intro digit
      have signless : takeMinus (c :: rest) = ([], c :: rest) := by
        rw [takeMinus]
        exact fun _ same => minus (List.cons.inj same).1
      rw [numeral, signless, List.nil_append, List.takeWhile_cons_of_pos digit] at nothing
      cases nothing
    exact halts_cons (by simp [beginsLiteral, quote, minus, plain])

theorem exists_foreign_byte {cs : List Char} (filled : cs ≠ [])
    (nameless : cs.takeWhile isNameChar = []) (ink : Halts isAsciiBlank cs) :
    ∃ byte more, Utf8.encode (String.ofList cs) = byte :: more ∧
      isNameChar (Char.ofNat byte.toNat) = false ∧ isAsciiBlankCode byte.toNat = false := by
  obtain ⟨c, rest, rfl⟩ := List.exists_cons_of_ne_nil filled
  have foreign : isNameChar c = false := by
    apply Bool.eq_false_iff.mpr
    intro letter
    rw [List.takeWhile_cons_of_pos letter] at nameless
    cases nameless
  obtain ⟨byte, more, first⟩ := List.exists_cons_of_ne_nil (@String.utf8EncodeChar_ne_nil c)
  refine ⟨byte, more ++ Utf8.encode (String.ofList rest), ?_, ?_⟩
  · rw [Utf8.encode_ofList, Utf8.encode_ofList, List.flatMap_cons, first, List.cons_append]
  by_cases low : c.toNat < 0x80
  · rw [Utf8.encodeChar_ascii low] at first
    obtain ⟨rfl, -⟩ := List.cons.inj first
    rw [Utf8.toNat_ofNat_char low, Char.ofNat_toNat]
    exact ⟨foreign, ink⟩
  · have high : 0x80 ≤ byte.toNat :=
      Utf8.high_of_mem_encodeChar (Nat.not_lt.mp low) (first ▸ List.mem_cons_self)
    constructor
    · apply Bool.eq_false_iff.mpr
      intro letter
      have small := toNat_lt_of_isNameChar letter
      rw [Utf8.toNat_ofNat_byte] at small
      omega
    · simp only [isAsciiBlankCode, Bool.or_eq_false_iff, beq_eq_false_iff_ne]
      omega

theorem not_prefix_of_afterWord? {word cs : List Char} (absent : afterWord? word cs = none) :
    ¬word <+: cs := by
  rintro ⟨rest, same⟩
  rw [afterWord?_eq_some_iff.mpr same.symm] at absent
  cases absent

theorem not_prefix_of_comparison? {cs : List Char} (absent : comparison? cs = none)
    (comparison : Comparison) : ¬comparison.symbol.toList <+: cs := by
  have every := List.findSome?_eq_none_iff.mp absent comparison comparison.mem_all
  exact not_prefix_of_afterWord? (by simpa using every)

section

variable {header : Header} {text cs rest : List Char} {error : FilterError}

theorem located_of_suffix (suffix : rest <:+ text)
    (position : error.position = Scope.position ⟨header, byteLength text⟩ rest)
    (describes : ∀ front, error.Describes header front rest) : error.Located header text := by
  obtain ⟨front, whole⟩ := suffix
  exact ⟨front, rest, whole.symm, position.trans (position_of_append header whole.symm),
    describes front⟩

theorem literal_located (suffix : cs <:+ text)
    (failed : literal ⟨header, byteLength text⟩ cs = .error error) :
    error.Located header text := by
  unfold literal at failed
  split at failed
  case h_1 =>
    cases failed
    exact located_of_suffix suffix rfl fun _ => halts_nil
  case h_2 body =>
    split at failed
    case h_1 => cases failed
    case h_2 unclosed =>
      cases failed
      exact located_of_suffix suffix rfl fun _ =>
        ⟨body, rfl, fun _ _ same => endsEscaping_of_unclosed unclosed same⟩
  case h_3 filled notQuote =>
    dsimp only at failed
    split at failed
    case isTrue nothing =>
      cases failed
      exact located_of_suffix suffix rfl fun _ => halts_of_numeral_eq_nil nothing notQuote
    case isFalse some =>
      split at failed
      case h_1 => cases failed
      case h_2 unread =>
        cases failed
        refine located_of_suffix suffix rfl fun _ => ⟨(numeral cs).2, ?_, ?_, ?_, ?_⟩
        · rw [String.toList_ofList, numeral_append]
        · simpa using some
        · exact halts_dropWhile _ _
        · rwa [String.toList_ofList]

theorem condition_located (suffix : cs <:+ text)
    (failed : condition ⟨header, byteLength text⟩ cs = .error error) :
    error.Located header text := by
  have start : skipBlanks cs <:+ text := (skipBlanks_suffix cs).trans suffix
  have operator : skipBlanks ((skipBlanks cs).dropWhile isNameChar) <:+ text :=
    (skipBlanks_suffix _).trans ((List.dropWhile_suffix _).trans start)
  unfold condition at failed
  dsimp only at failed
  split at failed
  case isTrue ended =>
    cases failed
    exact located_of_suffix start rfl fun _ => ended
  case isFalse filled =>
    split at failed
    case isTrue nameless =>
      cases failed
      exact located_of_suffix start rfl fun _ =>
        exists_foreign_byte filled nameless (halts_dropWhile _ _)
    case isFalse named =>
      split at failed
      case isTrue unknown =>
        cases failed
        refine located_of_suffix start rfl fun _ =>
          ⟨(skipBlanks cs).dropWhile isNameChar, ?_, ?_, ?_, halts_dropWhile _ _, ?_, rfl⟩
        · rw [String.toList_ofList, List.takeWhile_append_dropWhile]
        · simpa using named
        · rw [String.toList_ofList]
          exact fun _ member => mem_takeWhile member
        · exact fun known => unknown ((header.contains_iff _).mpr known)
      case isFalse known =>
        split at failed
        case h_1 absent =>
          cases failed
          exact located_of_suffix operator rfl fun _ => not_prefix_of_comparison? absent
        case h_2 comparison after compared =>
          have signed := comparison?_eq_some compared
          split at failed
          case h_1 inside =>
            cases failed
            have behind : after <:+ _ := ⟨_, signed.symm⟩
            exact literal_located ((skipBlanks_suffix after).trans (behind.trans operator)) inside
          case h_2 value last inside =>
            split at failed
            case isTrue ordered =>
              cases failed
              exact located_of_suffix operator rfl fun _ =>
                ⟨comparison, after, ordered.2, rfl, signed⟩
            case isFalse => cases failed

theorem conjuncts_located (suffix : cs <:+ text)
    (failed : conjuncts ⟨header, byteLength text⟩ cs = .error error) :
    error.Located header text := by
  generalize same : (⟨header, byteLength text⟩ : Scope) = scope at failed
  fun_induction conjuncts scope cs with
  | case1 cs reason inside =>
    cases failed
    subst same
    exact condition_located suffix inside
  | case2 => cases failed
  | case3 cs first after inside next joint shorter short reason further ih =>
    cases failed
    have behind : next <:+ cs :=
      (suffix_of_joint joint).trans (rest_of_condition inside).1
    exact ih (behind.trans suffix) further
  | case4 => cases failed

theorem disjuncts_located (suffix : cs <:+ text)
    (failed : disjuncts ⟨header, byteLength text⟩ cs = .error error) :
    error.Located header text := by
  generalize same : (⟨header, byteLength text⟩ : Scope) = scope at failed
  fun_induction disjuncts scope cs with
  | case1 cs reason inside =>
    cases failed
    subst same
    exact conjuncts_located suffix inside
  | case2 => cases failed
  | case3 cs terms after inside next joint shorter short reason further ih =>
    cases failed
    have behind : next <:+ cs := (suffix_of_joint joint).trans (rest_of_conjuncts inside).1
    exact ih (behind.trans suffix) further
  | case4 => cases failed

end

section

variable {scope : Scope} {cs rest : List Char} {terms : List Expression}

theorem no_joint_of_conjuncts (read : conjuncts scope cs = .ok (terms, rest)) :
    afterWord? ['&', '&'] rest = none := by
  fun_induction conjuncts scope cs generalizing terms with
  | case1 => cases read
  | case2 cs first after inside joint =>
    cases read
    exact joint
  | case3 => cases read
  | case4 cs first after inside next joint shorter short others last more ih =>
    cases read
    exact ih more

theorem no_joint_of_disjuncts (read : disjuncts scope cs = .ok (terms, rest)) :
    afterWord? ['&', '&'] rest = none ∧ afterWord? ['|', '|'] rest = none := by
  fun_induction disjuncts scope cs generalizing terms with
  | case1 => cases read
  | case2 cs inner after inside first =>
    rename_i joint
    cases read
    have same : skipBlanks after = after := dropWhile_of_halts (exists_term inside).1
    rw [same] at joint ⊢
    exact ⟨no_joint_of_conjuncts inside, joint⟩
  | case3 => cases read
  | case4 cs inner after inside first next joint shorter short others last more =>
    rename_i ih
    cases read
    exact ih more

end

/-- What was read before it stopped can stand alone. -/
theorem parse_located {header : Header} {text : String} {error : FilterError}
    (failed : parse header text = .error error) : error.Located header text.toList := by
  unfold parse at failed
  dsimp only at failed
  split at failed
  case h_1 reason inside =>
    cases failed
    exact disjuncts_located (List.suffix_refl _) inside
  case h_2 => cases failed
  case h_3 terms rest unfinished inside =>
    cases failed
    obtain ⟨phrase, formed, whole, -⟩ := exists_phrase inside
    obtain ⟨conjunct, disjunct⟩ := no_joint_of_disjuncts inside
    have more : rest ≠ [] := unfinished
    -- a blank text compiles as well, so the phrase need not be asked for ink
    have alone : ∃ filter,
        Filter.compile header (String.ofList (phraseText phrase)) = .ok filter := by
      rw [Filter.compile_eq]
      split
      · exact ⟨_, rfl⟩
      · rw [(parse_ok_iff header _ _).mpr ⟨phrase, formed, String.toList_ofList, rfl⟩]
        exact ⟨_, rfl⟩
    exact ⟨phraseText phrase, rest, whole, position_of_append header whole, rfl, more,
      not_prefix_of_afterWord? conjunct, not_prefix_of_afterWord? disjunct, alone⟩

/-- Compiling a filter text never cuts it where no character begins: a cut succeeds at the places
where the text can be parted, and every cut that is made does.  The position of an error is such a
place, and the error describes the text around it. -/
theorem compile_error_located (header : Header) (text : String) :
    (∀ offset rest, cutFrom? text.toList offset = some rest ↔
      ∃ front, text.toList = front ++ rest ∧
        offset = (Utf8.encode (String.ofList front)).length) ∧
    (∀ offset, (Subject.ofText header text).expression ≠ .error (.cut offset)) ∧
    ∀ error, Filter.compile header text = .error error →
      error.position ≤ (Utf8.encode text).length ∧ ∃ front rest, text.toList = front ++ rest ∧
        error.position = (Utf8.encode (String.ofList front)).length ∧
        error.Describes header front rest := by
  refine ⟨fun offset rest => ?_, Subject.expression_ne_cut header text, fun error failed => ?_⟩
  · rw [cutFrom?_eq_some_iff]
    exact exists_congr fun front => and_congr_right fun _ => by rw [byteLength_eq, eq_comm]
  have refused : parse header text = .error error := by
    rw [Filter.compile_eq] at failed
    split at failed
    · cases failed
    · cases read : parse header text with
      | ok expression =>
        rw [read] at failed
        cases failed
      | error reason =>
        rw [read] at failed
        cases failed
        rfl
  obtain ⟨front, rest, whole, position, describes⟩ := parse_located refused
  refine ⟨?_, front, rest, whole, ?_, describes⟩
  · rw [position, ← String.ofList_toList (s := text), ← byteLength_eq, whole, byteLength_append]
    exact Nat.le_add_right _ _
  · rw [position, byteLength_eq]

/-- An ordering of texts behind an accented letter, whose two bytes count. -/
theorem compile_error_located_behind_accent :
    let text := "a==\"é\"&&b<\"ü\""
    Filter.compile ⟨["a", "b"]⟩ text = .error (.stringOrdering "b" "<" 10) ∧
    (∀ rest, cutFrom? text.toList 5 ≠ some rest) ∧
    10 ≤ (Utf8.encode text).length ∧ ∃ front rest, text.toList = front ++ rest ∧
      10 = (Utf8.encode (String.ofList front)).length ∧
      FilterError.Describes ⟨["a", "b"]⟩ front rest (.stringOrdering "b" "<" 10) := by
  intro text
  have failed : Filter.compile ⟨["a", "b"]⟩ text = .error (.stringOrdering "b" "<" 10) := by
    have told : (match Filter.compile ⟨["a", "b"]⟩ text with
        | .error error => some error
        | .ok _ => none) = some (.stringOrdering "b" "<" 10) := by decide +kernel
    split at told
    case h_1 error refused => rw [refused, Option.some.inj told]
    case h_2 => cases told
  have inside : cutFrom? text.toList 5 = none := by decide
  exact ⟨failed, by simp [inside], (compile_error_located _ text).2.2 _ failed⟩

end Rollup.Filter
