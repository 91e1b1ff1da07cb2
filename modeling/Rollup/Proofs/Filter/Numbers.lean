import Rollup.Proofs.Decimal.Digits
import Rollup.Proofs.Filter.Grammar

/-! Numbers in filter texts.  The run that could be a number is read as one exactly when it has a
digit and no second point, so nothing that the grammar calls a number is refused. -/

namespace Rollup.Filter

open Text

open Decimal (takeDigits_append)

theorem isDigit_of_isNumeralChar {c : Char} (plain : isNumeralChar c = true) (other : c ≠ '.') :
    Decimal.isDigit c = true := by
  have digit : c.isDigit = true := by simpa [isNumeralChar, other] using plain
  exact digit

theorem ne_point_of_isDigit {c : Char} (digit : Decimal.isDigit c = true) : c ≠ '.' := by
  rintro rfl
  exact absurd digit (by decide)

theorem whole_and_rest {body : List Char} (plain : ∀ c ∈ body, isNumeralChar c = true) :
    ∃ whole rest, body = whole ++ rest ∧ (∀ c ∈ whole, Decimal.isDigit c = true) ∧
      (rest = [] ∨ ∃ tail, rest = '.' :: tail) := by
  by_cases pointed : '.' ∈ body
  · obtain ⟨whole, tail, rfl, absent⟩ := List.eq_append_cons_of_mem pointed
    refine ⟨whole, _, rfl, ?_, .inr ⟨tail, rfl⟩⟩
    intro c member
    apply isDigit_of_isNumeralChar (plain c (List.mem_append_left _ member))
    rintro rfl
    exact absent member
  · refine ⟨body, [], (List.append_nil body).symm, ?_, .inl rfl⟩
    intro c member
    apply isDigit_of_isNumeralChar (plain c member)
    rintro rfl
    exact pointed member

theorem count_point_of_digits {whole : List Char}
    (digits : ∀ c ∈ whole, Decimal.isDigit c = true) : whole.count '.' = 0 :=
  List.count_eq_zero.mpr fun member => ne_point_of_isDigit (digits '.' member) rfl

theorem halts_point (tail : List Char) : Halts Decimal.isDigit ('.' :: tail) :=
  halts_cons (by decide)

theorem exists_digit_iff {whole : List Char} (digits : ∀ c ∈ whole, Decimal.isDigit c = true) :
    (∃ c ∈ whole, c.isDigit = true) ↔ whole ≠ [] := by
  constructor
  · rintro ⟨c, member, -⟩ rfl
    cases member
  · intro some
    obtain ⟨c, member⟩ := List.exists_mem_of_ne_nil whole some
    exact ⟨c, member, digits c member⟩

theorem exists_digit_append_iff {whole fraction : List Char}
    (digits : ∀ c ∈ whole, Decimal.isDigit c = true)
    (fractionDigits : ∀ c ∈ fraction, Decimal.isDigit c = true) :
    (∃ c ∈ whole ++ '.' :: fraction, c.isDigit = true) ↔ ¬(whole = [] ∧ fraction = []) := by
  have point : '.'.isDigit = false := by decide
  have front := exists_digit_iff digits
  have back := exists_digit_iff fractionDigits
  simp only [List.mem_append, List.mem_cons, or_and_right, exists_or, front, exists_eq_left,
    point, Bool.false_eq_true, false_or, back]
  exact Decidable.not_and_iff_or_not.symm

section

variable {whole fraction : List Char} (digits : ∀ c ∈ whole, Decimal.isDigit c = true)

include digits

theorem ofText?_whole : Decimal.Numeral.ofText? whole =
    if whole = [] then none else some (Decimal.Numeral.ofDigits whole [] 0) := by
  have read := takeDigits_append digits halts_nil
  rw [List.append_nil] at read
  simp only [Decimal.Numeral.ofText?, read, and_true]
  rfl

variable (fractionDigits : ∀ c ∈ fraction, Decimal.isDigit c = true)

include fractionDigits

theorem ofText?_point : Decimal.Numeral.ofText? (whole ++ '.' :: fraction) =
    if whole = [] ∧ fraction = [] then none
    else some (Decimal.Numeral.ofDigits whole fraction 0) := by
  have read := takeDigits_append digits (halts_point fraction)
  have readFraction := takeDigits_append fractionDigits halts_nil
  rw [List.append_nil] at readFraction
  simp only [Decimal.Numeral.ofText?, read, readFraction]
  rfl

theorem ofText?_two_points (further : List Char) :
    Decimal.Numeral.ofText? (whole ++ '.' :: (fraction ++ '.' :: further)) = none := by
  have read := takeDigits_append digits (halts_point (fraction ++ '.' :: further))
  have readFraction := takeDigits_append fractionDigits (halts_point further)
  have refused : Decimal.exponent? ('.' :: further) = none := by simp [Decimal.exponent?]
  simp only [Decimal.Numeral.ofText?, read, readFraction, refused, Option.map_none, ite_self]

end

/-- The text of an unsigned number has a digit, and not a second point. -/
theorem ofText?_isSome_iff {body : List Char} (plain : ∀ c ∈ body, isNumeralChar c = true) :
    (Decimal.Numeral.ofText? body).isSome = true ↔
      (∃ c ∈ body, c.isDigit = true) ∧ body.count '.' ≤ 1 := by
  obtain ⟨whole, rest, rfl, digits, shape⟩ := whole_and_rest plain
  have noPoint := count_point_of_digits digits
  rcases shape with rfl | ⟨tail, rfl⟩
  · rw [List.append_nil, ofText?_whole digits, exists_digit_iff digits, noPoint]
    by_cases empty : whole = [] <;> simp [empty]
  · have plainTail : ∀ c ∈ tail, isNumeralChar c = true := fun c member =>
      plain c (List.mem_append_right whole (List.mem_cons_of_mem '.' member))
    obtain ⟨fraction, last, rfl, fractionDigits, lastShape⟩ := whole_and_rest plainTail
    have noPointLater := count_point_of_digits fractionDigits
    rcases lastShape with rfl | ⟨further, rfl⟩
    · have one : (whole ++ '.' :: fraction).count '.' ≤ 1 := by
        simp [List.count_append, noPoint, noPointLater]
      rw [List.append_nil, ofText?_point digits fractionDigits,
        exists_digit_append_iff digits fractionDigits, and_iff_left one]
      by_cases empty : whole = [] ∧ fraction = [] <;> simp [empty]
    · have many : 2 ≤ (whole ++ '.' :: (fraction ++ '.' :: further)).count '.' := by
        simp only [List.count_append, List.count_cons_self]
        omega
      rw [ofText?_two_points digits fractionDigits]
      exact iff_of_false nofun fun both => absurd both.2 (Nat.not_le.mpr many)

theorem toLower_of_isNumeralChar {c : Char} (plain : isNumeralChar c = true) :
    c.toLower = c := by
  have small : c.val ≤ '9'.val := by
    by_cases point : c = '.'
    · subst point
      decide
    · have digit := isDigit_of_isNumeralChar plain point
      simp only [Decimal.isDigit, Bool.and_eq_true, decide_eq_true_eq] at digit
      exact digit.2
  apply dif_neg
  intro upper
  have absurdity : 'A'.val ≤ '9'.val := UInt32.le_trans upper.1 small
  exact absurd absurdity (by decide)

theorem ne_word_of_plain {body : List Char} (plain : ∀ c ∈ body, isNumeralChar c = true)
    {word : List Char} {c : Char} (member : c ∈ word) (other : isNumeralChar c = false) :
    body ≠ word := by
  rintro rfl
  rw [plain c member] at other
  cases other

theorem map_toLower_of_plain {body : List Char} (plain : ∀ c ∈ body, isNumeralChar c = true) :
    body.map Char.toLower = body := by
  rw [List.map_congr_left fun c member => toLower_of_isNumeralChar (plain c member)]
  exact List.map_id body

theorem ne_nan_of_plain {body : List Char} (plain : ∀ c ∈ body, isNumeralChar c = true) :
    body ≠ "nan".toList :=
  ne_word_of_plain plain (c := 'n') (by decide) (by decide)

theorem takeSign_of_plain {body : List Char} (plain : ∀ c ∈ body, isNumeralChar c = true)
    {digits : List Char} (signed : digits = body ∨ digits = '-' :: body) :
    ∃ negative, Decimal.takeSign digits = (negative, body) := by
  rcases signed with rfl | rfl
  · refine ⟨false, ?_⟩
    unfold Decimal.takeSign
    split
    case h_1 rest => exact absurd (plain '-' List.mem_cons_self) (by decide)
    case h_2 rest => exact absurd (plain '+' List.mem_cons_self) (by decide)
    case h_3 => rfl
  · exact ⟨true, rfl⟩

theorem read?_isSome_iff {body : List Char} (plain : ∀ c ∈ body, isNumeralChar c = true)
    {digits : List Char} (signed : digits = body ∨ digits = '-' :: body) :
    (Decimal.read? digits).isSome = true ↔
      (∃ c ∈ body, c.isDigit = true) ∧ body.count '.' ≤ 1 := by
  have notWord : ¬(body = "inf".toList ∨ body = "infinity".toList) := by
    rw [not_or]
    exact ⟨ne_word_of_plain plain (c := 'i') (by decide) (by decide),
      ne_word_of_plain plain (c := 'i') (by decide) (by decide)⟩
  obtain ⟨negative, sign⟩ := takeSign_of_plain plain signed
  rw [← ofText?_isSome_iff plain]
  simp only [Decimal.read?, sign, map_toLower_of_plain plain, if_neg notWord,
    if_neg (ne_nan_of_plain plain), Option.isSome_map]

theorem exists_value_of_isNumber {digits : List Char} (shape : IsNumber digits) :
    ∃ value, Decimal.read? digits = some value := by
  obtain ⟨body, signed, unsigned⟩ := shape
  apply Option.isSome_iff_exists.mp
  exact (read?_isSome_iff unsigned.chars signed).mpr ⟨unsigned.digit, unsigned.points⟩

theorem takeMinus_of_plain {body rest : List Char}
    (plain : ∀ c ∈ body, isNumeralChar c = true) (some : body ≠ []) :
    takeMinus (body ++ rest) = ([], body ++ rest) := by
  cases body with
  | nil => exact absurd rfl some
  | cons first others =>
    have notMinus : first ≠ '-' := by
      rintro rfl
      exact absurd (plain '-' List.mem_cons_self) (by decide)
    rw [List.cons_append, takeMinus]
    rintro _ same
    exact notMinus (List.cons.inj same).1

theorem numeral_of_isNumber {digits rest : List Char} (shape : IsNumber digits)
    (halts : Halts isNumeralChar rest) : numeral (digits ++ rest) = (digits, rest) := by
  obtain ⟨body, signed, unsigned⟩ := shape
  have run := takeWhile_append_of_halts unsigned.chars halts
  have left := dropWhile_append_of_halts unsigned.chars halts
  rcases signed with rfl | rfl
  · have some : digits ≠ [] := by
      obtain ⟨c, member, -⟩ := unsigned.digit
      exact List.ne_nil_of_mem member
    rw [numeral, takeMinus_of_plain unsigned.chars some, run, left, List.nil_append]
  · show (['-'] ++ (body ++ rest).takeWhile isNumeralChar,
      (body ++ rest).dropWhile isNumeralChar) = _
    rw [run, left, List.singleton_append]

theorem isNumber_of_read? {cs : List Char} {value : Float}
    (read : Decimal.read? (numeral cs).1 = some value) : IsNumber (numeral cs).1 := by
  have plain : ∀ c ∈ (takeMinus cs).2.takeWhile isNumeralChar, isNumeralChar c = true :=
    fun c member => mem_takeWhile member
  have signed : (numeral cs).1 = (takeMinus cs).2.takeWhile isNumeralChar ∨
      (numeral cs).1 = '-' :: (takeMinus cs).2.takeWhile isNumeralChar := by
    unfold numeral takeMinus
    split
    · exact .inr rfl
    · exact .inl rfl
  have found : (Decimal.read? (numeral cs).1).isSome = true := by
    rw [read]
    rfl
  obtain ⟨digit, points⟩ := (read?_isSome_iff plain signed).mp found
  exact ⟨_, signed, plain, digit, points⟩

end Rollup.Filter
