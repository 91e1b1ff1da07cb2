import Rollup.Filter.Scan

/-! Filters from texts.  A scan stands where a character begins or the text ends, so what it does by
offsets is what reading does on the rest of the text.  Main statement: scanning never cuts the text
where no character begins, and comes to what reading the text comes to. -/

namespace Rollup.Filter

open Table Text

theorem byteLength_append (first second : List Char) :
    byteLength (first ++ second) = byteLength first + byteLength second := by
  induction first with
  | nil => exact (Nat.zero_add _).symm
  | cons c rest ih =>
    show c.utf8Size + byteLength (rest ++ second) = c.utf8Size + byteLength rest + _
    rw [ih, Nat.add_assoc]

theorem byteLength_eq_length (cs : List Char) :
    byteLength cs = (cs.flatMap String.utf8EncodeChar).length := by
  induction cs with
  | nil => rfl
  | cons c rest ih =>
    rw [List.flatMap_cons, List.length_append, String.length_utf8EncodeChar, ← ih]
    rfl

theorem byteLength_cons (c : Char) (cs : List Char) :
    byteLength (c :: cs) = c.utf8Size + byteLength cs := rfl

theorem byteLength_ascii {c : Char} (ascii : c.toNat < 0x80) : byteLength [c] = 1 := by
  rw [byteLength_eq_length, List.flatMap_singleton, Utf8.encodeChar_ascii ascii]
  rfl

theorem cutFrom?_append (front rest : List Char) :
    cutFrom? (front ++ rest) (byteLength front) = some rest := by
  induction front with
  | nil => cases rest <;> rfl
  | cons c front ih =>
    have size := c.utf8Size_pos
    obtain ⟨before, same⟩ := Nat.exists_eq_succ_of_ne_zero (n := byteLength (c :: front))
      (by rw [byteLength_cons]; omega)
    rw [List.cons_append, same, cutFrom?, ← Nat.succ_eq_add_one, ← same, byteLength_cons,
      if_pos (Nat.le_add_right _ _), Nat.add_sub_cancel_left, ih]

theorem cutFrom?_eq_some_iff {cs rest : List Char} {offset : Nat} :
    cutFrom? cs offset = some rest ↔ ∃ front, cs = front ++ rest ∧ byteLength front = offset := by
  constructor
  · intro found
    fun_induction cutFrom? cs offset with
    | case1 cs =>
      cases found
      exact ⟨[], rfl, rfl⟩
    | case2 => cases found
    | case3 c cs offset inside ih =>
      obtain ⟨front, same, size⟩ := ih found
      refine ⟨c :: front, congrArg (c :: ·) same, ?_⟩
      rw [byteLength_cons, size]
      omega
    | case4 => cases found
  · rintro ⟨front, rfl, rfl⟩
    exact cutFrom?_append front rest

theorem cutTo?_append (part rest : List Char) :
    cutTo? (part ++ rest) (byteLength part) = some part := by
  induction part with
  | nil => cases rest <;> rfl
  | cons c part ih =>
    have size := c.utf8Size_pos
    obtain ⟨before, same⟩ := Nat.exists_eq_succ_of_ne_zero (n := byteLength (c :: part))
      (by rw [byteLength_cons]; omega)
    rw [List.cons_append, same, cutTo?, ← Nat.succ_eq_add_one, ← same, byteLength_cons,
      if_pos (Nat.le_add_right _ _), Nat.add_sub_cancel_left, ih]
    rfl

theorem position_of_append (header : Header) {text front rest : List Char}
    (whole : text = front ++ rest) :
    Scope.position ⟨header, byteLength text⟩ rest = byteLength front := by
  rw [Scope.position, whole, byteLength_append, Nat.add_sub_cancel_right]

theorem toNat_lt_of_isNameChar {c : Char} (letter : isNameChar c = true) : c.toNat < 0x80 := by
  unfold isNameChar Char.isAlphanum at letter
  delta Char.isAlpha Char.isUpper Char.isLower Char.isDigit at letter
  simp only [Bool.or_eq_true, Bool.and_eq_true, decide_eq_true_eq, UInt32.le_iff_toNat_le,
    ge_iff_le] at letter
  rcases letter with ((⟨-, upper⟩ | ⟨-, upper⟩) | ⟨-, upper⟩) | rfl
  · exact Nat.lt_of_le_of_lt upper (by decide)
  · exact Nat.lt_of_le_of_lt upper (by decide)
  · exact Nat.lt_of_le_of_lt upper (by decide)
  · decide

theorem toNat_lt_of_isNumeralChar {c : Char} (part : isNumeralChar c = true) : c.toNat < 0x80 := by
  simp only [isNumeralChar, Char.isDigit, Bool.or_eq_true, Bool.and_eq_true, decide_eq_true_eq,
    UInt32.le_iff_toNat_le, ge_iff_le] at part
  rcases part with ⟨-, upper⟩ | rfl
  · exact Nat.lt_of_le_of_lt upper (by decide)
  · decide

theorem toNat_lt_of_isAsciiBlank {c : Char} (blank : isAsciiBlank c = true) : c.toNat < 0x80 := by
  simp only [isAsciiBlank, isAsciiBlankCode, Bool.or_eq_true, beq_iff_eq] at blank
  omega

namespace Subject

def scope (subject : Subject) : Scope := ⟨subject.header, byteLength subject.text⟩

/-- The outcome of reading with the offset of the rest instead of the rest. -/
def placed {α : Type} (subject : Subject) :
    Except FilterError (α × List Char) → Except Fault (α × Nat)
  | .error error => .error (.refused error)
  | .ok (value, rest) => .ok (value, subject.scope.position rest)

section

variable {subject : Subject} {cs part rest : List Char}

theorem length_bytes (subject : Subject) : subject.bytes.length = byteLength subject.text := by
  rw [subject.encoded, byteLength_eq_length]

theorem position_nil (subject : Subject) : subject.scope.position [] = subject.bytes.length := by
  rw [length_bytes]
  rfl

theorem position_append (part : List Char) (suffix : part ++ rest <:+ subject.text) :
    subject.scope.position rest = subject.scope.position (part ++ rest) + byteLength part := by
  obtain ⟨front, whole⟩ := suffix
  have long := position_of_append subject.header whole.symm
  have short := position_of_append subject.header
    ((List.append_assoc front part rest).trans whole).symm
  rw [scope, long, short, byteLength_append]

theorem position_lt (suffix : cs <:+ subject.text) (filled : cs ≠ []) :
    subject.scope.position cs < subject.bytes.length := by
  obtain ⟨c, others, rfl⟩ := List.exists_cons_of_ne_nil filled
  have size := c.utf8Size_pos
  have whole : c :: others ++ [] <:+ subject.text := by rwa [List.append_nil]
  have ended := position_append _ whole
  rw [List.append_nil, position_nil, byteLength_cons] at ended
  omega

theorem cutFrom_position (suffix : cs <:+ subject.text) :
    subject.cutFrom (subject.scope.position cs) = .ok cs := by
  obtain ⟨front, whole⟩ := suffix
  rw [scope, position_of_append subject.header whole.symm, cutFrom, ← whole, cutFrom?_append]

theorem cut_position (subject : Subject) (suffix : part ++ rest <:+ subject.text) :
    subject.cut (subject.scope.position (part ++ rest)) (subject.scope.position rest) =
      .ok part := by
  rw [cut, cutFrom_position suffix, position_append part suffix]
  show (if _ then _ else _) = _
  rw [if_neg (Nat.not_lt.mpr (Nat.le_add_right _ _)), Nat.add_sub_cancel_left, cutTo?_append]
  rfl

theorem peek_nil (subject : Subject) : subject.peek (subject.scope.position []) = none := by
  rw [position_nil, peek, List.getElem?_eq_none (Nat.le_refl _)]
  rfl

theorem peek_cons {c : Char} (suffix : c :: rest <:+ subject.text) :
    ∃ seen, subject.peek (subject.scope.position (c :: rest)) = some seen ∧
      if c.toNat < 0x80 then seen = c else 0x80 ≤ seen.toNat := by
  obtain ⟨front, whole⟩ := suffix
  obtain ⟨byte, more, first⟩ := List.exists_cons_of_ne_nil (@String.utf8EncodeChar_ne_nil c)
  have found : subject.bytes[subject.scope.position (c :: rest)]? = some byte := by
    rw [scope, position_of_append subject.header whole.symm, subject.encoded, ← whole,
      byteLength_eq_length, List.flatMap_append, List.getElem?_append_right (Nat.le_refl _),
      Nat.sub_self, List.flatMap_cons, first]
    rfl
  refine ⟨Char.ofNat byte.toNat, by rw [peek, found]; rfl, ?_⟩
  split
  case isTrue ascii =>
    rw [Utf8.encodeChar_ascii ascii] at first
    obtain ⟨rfl, -⟩ := List.cons.inj first
    rw [Utf8.toNat_ofNat_char ascii, Char.ofNat_toNat]
  case isFalse wide =>
    rw [Utf8.toNat_ofNat_byte]
    exact Utf8.high_of_mem_encodeChar (Nat.not_lt.mp wide) (first ▸ List.mem_cons_self)

theorem skip_position (subject : Subject) {kind : Char → Bool}
    (ascii : ∀ c, kind c = true → c.toNat < 0x80) (suffix : cs <:+ subject.text) :
    subject.skip kind (subject.scope.position cs) = subject.scope.position (cs.dropWhile kind) := by
  induction cs with
  | nil =>
    rw [skip, position_nil, dif_neg (Nat.lt_irrefl _), List.dropWhile_nil, position_nil]
  | cons c rest ih =>
    obtain ⟨seen, peeked, same⟩ := peek_cons suffix
    rw [skip, dif_pos (position_lt suffix (List.cons_ne_nil c rest)), peeked, Option.any_some]
    cases kept : kind c with
    | true =>
      have small := ascii c kept
      rw [if_pos small] at same
      have next := position_append [c] suffix
      rw [byteLength_ascii small] at next
      rw [same, if_pos kept, List.dropWhile_cons_of_pos kept]
      exact (congrArg _ next.symm).trans (ih ((List.suffix_cons c rest).trans suffix))
    | false =>
      have stops : kind seen = false := by
        split at same
        · rw [same, kept]
        · apply Bool.eq_false_iff.mpr
          intro other
          have small := ascii seen other
          omega
      rw [stops, List.dropWhile_cons_of_neg (by simp [kept])]
      rfl

theorem skip_blanks (suffix : cs <:+ subject.text) :
    subject.skip isAsciiBlank (subject.scope.position cs) =
      subject.scope.position (skipBlanks cs) :=
  subject.skip_position (fun _ blank => toNat_lt_of_isAsciiBlank blank) suffix

theorem consume_position (token : List Char) (suffix : cs <:+ subject.text) :
    subject.consume token (subject.scope.position cs) =
      .ok ((afterWord? token cs).map subject.scope.position) := by
  rw [consume, cutFrom_position suffix]
  show Except.ok (if _ then _ else _) = _
  by_cases here : token <+: cs
  · obtain ⟨rest, rfl⟩ := here
    rw [if_pos (by simp), afterWord?_eq_some_iff.mpr rfl, Option.map_some,
      position_append _ suffix]
  · rw [if_neg (by simpa using here)]
    cases found : afterWord? token cs with
    | none => rfl
    | some rest => exact absurd ⟨rest, (afterWord?_eq_some_iff.mp found).symm⟩ here

theorem identifier_position (suffix : cs <:+ subject.text) :
    subject.identifier (subject.scope.position cs) =
      .ok (cs.takeWhile isNameChar, subject.scope.position (cs.dropWhile isNameChar)) := by
  have parts : cs.takeWhile isNameChar ++ cs.dropWhile isNameChar = cs :=
    List.takeWhile_append_dropWhile
  have taken := subject.cut_position (parts.symm ▸ suffix)
  rw [parts] at taken
  rw [identifier, subject.skip_position (fun _ letter => toNat_lt_of_isNameChar letter) suffix,
    taken]
  rfl

theorem operator_position (suffix : cs <:+ subject.text) (candidates : List Comparison) :
    subject.operator (subject.scope.position cs) candidates =
      match candidates.findSome? fun comparison =>
        (afterWord? comparison.symbol.toList cs).map (comparison, ·) with
      | none => .error (.refused (.expectedOperator (subject.scope.position cs)))
      | some (comparison, rest) => .ok (comparison, subject.scope.position rest) := by
  induction candidates with
  | nil => rfl
  | cons comparison others ih =>
    rw [operator, consume_position _ suffix, List.findSome?_cons]
    cases afterWord? comparison.symbol.toList cs with
    | none => exact ih
    | some rest => rfl

theorem all_position (suffix : cs <:+ subject.text) :
    subject.operator (subject.scope.position cs) Comparison.all =
      match comparison? cs with
      | none => .error (.refused (.expectedOperator (subject.scope.position cs)))
      | some (comparison, rest) => .ok (comparison, subject.scope.position rest) :=
  operator_position suffix Comparison.all

theorem unescape_of_quoted? {text : List Char} (read : quoted? cs = some (text, rest))
    (offset : Nat) :
    ∃ stop, unescape offset cs = some (text, stop) ∧
      stop + 1 + byteLength rest = offset + byteLength cs := by
  fun_induction quoted? cs generalizing offset text with
  | case1 => cases read
  | case2 rest =>
    cases read
    exact ⟨offset, rfl, by rw [byteLength_cons, Nat.add_assoc]; rfl⟩
  | case3 after ih | case4 after ih =>
    obtain ⟨⟨inner, last⟩, inside, same⟩ := Option.map_eq_some_iff.mp read
    cases same
    obtain ⟨stop, found, sum⟩ := ih inside (offset + 2)
    refine ⟨stop, by rw [unescape, found]; rfl, ?_⟩
    rw [sum, byteLength_cons, byteLength_cons, ← Nat.add_assoc, ← Nat.add_assoc]
    rfl
  | case5 c after notQuote notEscape notBackslash ih =>
    obtain ⟨⟨inner, last⟩, inside, same⟩ := Option.map_eq_some_iff.mp read
    cases same
    obtain ⟨stop, found, sum⟩ := ih inside (offset + c.utf8Size)
    refine ⟨stop, ?_, by rw [sum, byteLength_cons, Nat.add_assoc]⟩
    rw [unescape.eq_5 _ _ _ notQuote notEscape notBackslash, found]
    rfl

theorem unescape_of_unclosed (unclosed : quoted? cs = none) (offset : Nat) :
    unescape offset cs = none := by
  fun_induction quoted? cs generalizing offset with
  | case1 => rfl
  | case2 => cases unclosed
  | case3 after ih | case4 after ih =>
    rw [unescape, ih (Option.map_eq_none_iff.mp unclosed)]
    rfl
  | case5 c after notQuote notEscape notBackslash ih =>
    rw [unescape.eq_5 _ _ _ notQuote notEscape notBackslash,
      ih (Option.map_eq_none_iff.mp unclosed)]
    rfl

theorem quotedText_position (suffix : '"' :: cs <:+ subject.text) :
    subject.quotedText (subject.scope.position ('"' :: cs)) =
      match quoted? cs with
      | some (text, rest) => .ok (text, subject.scope.position rest)
      | none => .error (.refused (.unclosedString (subject.scope.position ('"' :: cs)))) := by
  have inside := position_append ['"'] suffix
  have later : cs <:+ subject.text := (List.suffix_cons '"' cs).trans suffix
  have opened : subject.scope.position ('"' :: cs) + 1 = subject.scope.position cs := inside.symm
  rw [quotedText, opened, cutFrom_position later]
  dsimp only [bind, Except.bind]
  cases read : quoted? cs with
  | none =>
    rw [unescape_of_unclosed read]
    rfl
  | some found =>
    obtain ⟨text, rest⟩ := found
    obtain ⟨stop, closed, sum⟩ := unescape_of_quoted? read 0
    obtain ⟨part, same⟩ := suffix_of_quoted? read
    have behind : part ++ rest <:+ subject.text := same ▸ later
    have moved := position_append part behind
    rw [← same, byteLength_append] at sum
    rw [same] at moved
    have ended : stop + 1 = byteLength part := by omega
    rw [closed]
    show Except.ok (text, subject.scope.position cs + (stop + 1)) = .ok (text, _)
    rw [ended, moved]

theorem skip_numeral (suffix : cs <:+ subject.text) :
    subject.skip isNumeralChar
        (if subject.peek (subject.scope.position cs) = some '-' then subject.scope.position cs + 1
          else subject.scope.position cs) =
      subject.scope.position (numeral cs).2 := by
  have digits (rest : List Char) (behind : rest <:+ subject.text) :=
    subject.skip_position (fun _ part => toNat_lt_of_isNumeralChar part) behind
  cases cs with
  | nil =>
    rw [peek_nil, if_neg nofun]
    exact digits [] suffix
  | cons c rest =>
    have later := (List.suffix_cons c rest).trans suffix
    obtain ⟨seen, peeked, same⟩ := peek_cons suffix
    rw [peeked]
    by_cases minus : c = '-'
    · subst minus
      have next := position_append ['-'] suffix
      rw [if_pos (by decide)] at same
      rw [same, if_pos rfl]
      exact (congrArg _ next.symm).trans (digits rest later)
    · have plain : some seen ≠ some '-' := by
        rintro ⟨⟩
        split at same
        · exact minus same.symm
        · exact absurd same (by decide)
      have signless : takeMinus (c :: rest) = ([], c :: rest) := by
        rw [takeMinus]
        exact fun _ same => minus (List.cons.inj same).1
      rw [if_neg plain, numeral, signless]
      exact digits (c :: rest) suffix

theorem number_position (suffix : cs <:+ subject.text) :
    subject.number (subject.scope.position cs) =
      if (numeral cs).1 = [] then
        .error (.refused (.expectedValue (subject.scope.position cs)))
      else
        match Decimal.read? (numeral cs).1 with
        | some value => .ok (value, subject.scope.position (numeral cs).2)
        | none =>
          .error (.refused
            (.invalidNumber (String.ofList (numeral cs).1) (subject.scope.position cs))) := by
  have parts := numeral_append cs
  have taken := subject.cut_position (parts.symm ▸ suffix)
  rw [parts] at taken
  rw [number, skip_numeral suffix, taken]
  rfl

theorem literal_position (suffix : cs <:+ subject.text) :
    subject.literal (subject.scope.position cs) =
      subject.placed (Filter.literal subject.scope cs) := by
  cases cs with
  | nil =>
    rw [literal, peek_nil]
    rfl
  | cons c rest =>
    obtain ⟨seen, peeked, same⟩ := peek_cons suffix
    by_cases quote : c = '"'
    · subst quote
      rw [if_pos (by decide)] at same
      rw [literal, peeked, same, Filter.literal]
      dsimp only
      rw [quotedText_position suffix]
      cases quoted? rest with
      | none => rfl
      | some found => rfl
    · have plain : seen ≠ '"' := by
        rintro rfl
        split at same
        · exact quote same.symm
        · exact absurd same (by decide)
      have other : subject.literal (subject.scope.position (c :: rest)) =
          (subject.number (subject.scope.position (c :: rest))).map
            fun read => (.number read.1, read.2) := by
        rw [literal, peeked]
        split
        case h_1 none => cases none
        case h_2 same => exact absurd (Option.some.inj same) plain
        case h_3 => rfl
      rw [other, number_position suffix, Filter.literal]
      · dsimp only
        split
        · rfl
        · cases Decimal.read? (numeral (c :: rest)).1 <;> rfl
      · exact List.cons_ne_nil c rest
      · exact fun _ same => quote (List.cons.inj same).1

theorem condition_position (suffix : cs <:+ subject.text) :
    subject.condition (subject.scope.position cs) =
      subject.placed (Filter.condition subject.scope cs) := by
  have start : skipBlanks cs <:+ subject.text := (skipBlanks_suffix cs).trans suffix
  have after : (skipBlanks cs).dropWhile isNameChar <:+ subject.text :=
    (List.dropWhile_suffix _).trans start
  have sign := (skipBlanks_suffix ((skipBlanks cs).dropWhile isNameChar)).trans after
  unfold condition Filter.condition
  dsimp only
  rw [skip_blanks suffix]
  by_cases ended : skipBlanks cs = []
  · rw [ended, position_nil, if_pos (Nat.le_refl _), if_pos rfl]
    rfl
  rw [if_neg (Nat.not_le.mpr (position_lt start ended)), if_neg ended, identifier_position start]
  generalize (skipBlanks cs).takeWhile isNameChar = name
  show (if name = [] then _ else if ¬subject.header.contains (String.ofList name) then _ else _) = _
  by_cases nameless : name = []
  · rw [if_pos nameless, if_pos nameless]
    rfl
  rw [if_neg nameless, if_neg nameless]
  have header : subject.scope.header = subject.header := rfl
  rw [header]
  by_cases unknown : ¬subject.header.contains (String.ofList name)
  · rw [if_pos unknown, if_pos unknown]
    rfl
  rw [if_neg unknown, if_neg unknown, skip_blanks after, all_position sign]
  cases found : comparison? (skipBlanks ((skipBlanks cs).dropWhile isNameChar)) with
  | none => rfl
  | some met =>
    obtain ⟨comparison, behind⟩ := met
    have later : behind <:+ subject.text := (suffix_of_comparison? found).trans sign
    show (subject.literal (subject.skip isAsciiBlank (subject.scope.position behind)) >>= _) = _
    rw [skip_blanks later, literal_position ((skipBlanks_suffix behind).trans later)]
    dsimp only
    cases Filter.literal subject.scope (skipBlanks behind) with
    | error error => rfl
    | ok found =>
      obtain ⟨value, rest⟩ := found
      show (if value.isText ∧ comparison.isOrdering then _ else _) = _
      dsimp only
      split <;> rfl

theorem conjuncts_position (suffix : cs <:+ subject.text) :
    subject.conjuncts (subject.scope.position cs) =
      subject.placed (Filter.conjuncts subject.scope cs) := by
  induction size : cs.length using Nat.strongRecOn generalizing cs with
  | ind size ih =>
    subst size
    rw [conjuncts_eq, Filter.conjuncts_eq, condition_position suffix]
    cases inside : Filter.condition subject.scope cs with
    | error error => rfl
    | ok found =>
      obtain ⟨first, after⟩ := found
      obtain ⟨behind, shorter⟩ := rest_of_condition inside
      have later := behind.trans suffix
      dsimp only [placed]
      rw [skip_blanks later, consume_position _ ((skipBlanks_suffix after).trans later)]
      cases joint : afterWord? ['&', '&'] (skipBlanks after) with
      | none => rfl
      | some next =>
        have short := (suffix_of_joint joint).length_le
        dsimp only [Option.map_some]
        rw [ih next.length (by omega) ((suffix_of_joint joint).trans later) rfl]
        cases Filter.conjuncts subject.scope next <;> rfl

theorem disjuncts_position (suffix : cs <:+ subject.text) :
    subject.disjuncts (subject.scope.position cs) =
      subject.placed (Filter.disjuncts subject.scope cs) := by
  induction size : cs.length using Nat.strongRecOn generalizing cs with
  | ind size ih =>
    subst size
    rw [disjuncts_eq, Filter.disjuncts_eq, conjuncts_position suffix]
    cases inside : Filter.conjuncts subject.scope cs with
    | error error => rfl
    | ok found =>
      obtain ⟨terms, after⟩ := found
      obtain ⟨behind, shorter⟩ := rest_of_conjuncts inside
      have later := behind.trans suffix
      dsimp only [placed]
      rw [skip_blanks later, consume_position _ ((skipBlanks_suffix after).trans later)]
      cases joint : afterWord? ['|', '|'] (skipBlanks after) with
      | none => rfl
      | some next =>
        have short := (suffix_of_joint joint).length_le
        dsimp only [Option.map_some]
        rw [ih next.length (by omega) ((suffix_of_joint joint).trans later) rfl]
        cases Filter.disjuncts subject.scope next <;> rfl

end

/-- Scanning a text comes to what reading it comes to, and never cuts it where no character begins
or behind its end. -/
theorem expression_eq (header : Header) (text : String) :
    (ofText header text).expression = (parse header text).mapError .refused := by
  let subject := ofText header text
  have whole : text.toList <:+ subject.text := List.suffix_refl _
  have start : subject.scope.position text.toList = 0 := Nat.sub_self _
  have scanned : subject.disjuncts 0 =
      subject.placed (Filter.disjuncts ⟨header, byteLength text.toList⟩ text.toList) := by
    rw [← start]
    exact disjuncts_position whole
  unfold expression parse
  dsimp only
  rw [scanned]
  cases read : Filter.disjuncts ⟨header, byteLength text.toList⟩ text.toList with
  | error error => rfl
  | ok found =>
    obtain ⟨terms, rest⟩ := found
    obtain ⟨behind, settled⟩ := rest_of_disjuncts read
    have suffix : rest <:+ subject.text := behind
    have last := skip_blanks suffix
    rw [settled] at last
    show (if subject.skip isAsciiBlank (subject.scope.position rest) < subject.bytes.length then
      (subject.cutFrom (subject.skip isAsciiBlank (subject.scope.position rest)) >>= _) else _) = _
    rw [last]
    cases rest with
    | nil =>
      rw [position_nil, if_neg (Nat.lt_irrefl _)]
      rfl
    | cons c rest =>
      rw [if_pos (position_lt suffix (List.cons_ne_nil c rest)), cutFrom_position suffix]
      rfl

theorem expression_ne_cut (header : Header) (text : String) (offset : Nat) :
    (ofText header text).expression ≠ .error (.cut offset) := by
  rw [expression_eq]
  cases parse header text with
  | error error => exact nofun
  | ok expression => exact nofun

end Subject

/-- A filter that has been checked against a header.  Without an expression it accepts every
row. -/
structure Filter where
  expression? : Option Expression

namespace Filter

def acceptsAll (filter : Filter) : Bool := filter.expression?.isNone

def accepts (filter : Filter) (row : Row) : Bool :=
  match filter.expression? with
  | none => true
  | some expression => expression.accepts row

def compile (header : Header) (text : String) : Except FilterError Filter :=
  if Text.trim text.toList = [] then .ok ⟨none⟩
  else
    match scanned : (Subject.ofText header text).expression with
    | .ok expression => .ok ⟨some expression⟩
    | .error (.refused error) => .error error
    | .error (.cut offset) => (Subject.expression_ne_cut header text offset scanned).elim

theorem compile_eq (header : Header) (text : String) :
    compile header text =
      if Text.trim text.toList = [] then .ok ⟨none⟩
      else (parse header text).map fun expression => ⟨some expression⟩ := by
  unfold compile
  split
  · rfl
  · have same := Subject.expression_eq header text
    split
    case h_1 expression scanned =>
      rw [scanned] at same
      cases read : parse header text with
      | error error =>
        rw [read] at same
        cases same
      | ok found =>
        rw [read] at same
        cases same
        rfl
    case h_2 error scanned =>
      rw [scanned] at same
      cases read : parse header text with
      | error reason =>
        rw [read] at same
        cases same
        rfl
      | ok found =>
        rw [read] at same
        cases same
    case h_3 offset scanned => exact (Subject.expression_ne_cut header text offset scanned).elim

end Filter

end Rollup.Filter
