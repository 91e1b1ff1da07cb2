import Rollup.Json.Node
import Rollup.Json.Value
import Rollup.Proofs.Decimal.Digits
import Rollup.Proofs.Decimal.Height
import Rollup.Proofs.Text.Spans

/-! Numbers between text and syntax.  A number in its parts has a text, and where its parts are
proper the reader finds them again, whatever comes behind that cannot belong to a number.  Main
statement: the text of a finite binary64 number is that of proper parts, in every layout that it may
have, and the text of any other is null. -/

namespace Rollup.Json

open Decimal Text

def Digits (cs : List Char) : Prop := cs ≠ [] ∧ ∀ c ∈ cs, isDigit c = true

def beginsNumber (c : Char) : Bool := c = '-' || isDigit c

def goesOn (c : Char) : Bool := isDigit c || c = '.' || c = 'e' || c = 'E'

namespace Written

def signText (negative : Bool) : List Char := if negative then ['-'] else []

def fractionText (fraction? : Option (List Char)) : List Char := fraction?.elim [] ('.' :: ·)

def exponentText (exponent? : Option (Bool × List Char)) : List Char :=
  exponent?.elim [] fun (negative, digits) => 'e' :: (if negative then '-' else '+') :: digits

def text (written : Written) : List Char :=
  signText written.negative ++ (written.whole ++
    (fractionText written.fraction? ++ exponentText written.exponent?))

/-- Every part has its digits, and the whole part has no zero in front. -/
structure Proper (written : Written) : Prop where
  whole : Digits written.whole
  short : ¬(written.whole.head? = some '0' ∧ written.whole.length > 1)
  fraction : ∀ digits, written.fraction? = some digits → Digits digits
  exponent : ∀ negative digits, written.exponent? = some (negative, digits) → Digits digits

end Written

theorem isDigit_of_halts {rest : List Char} (halts : Halts goesOn rest) : Halts isDigit rest := by
  cases rest with
  | nil => rfl
  | cons c rest =>
    have outside : goesOn c = false := halts
    simp only [goesOn, Bool.or_eq_false_iff] at outside
    exact outside.1.1.1

theorem exponent?_of_halts {rest : List Char} (halts : Halts goesOn rest) :
    exponent? rest = some (none, rest) := by
  cases rest with
  | nil => rfl
  | cons c rest =>
    have outside : goesOn c = false := halts
    simp only [goesOn, Bool.or_eq_false_iff, decide_eq_false_iff_not] at outside
    simp [exponent?, outside.1.2, outside.2]

theorem exponent?_exponentText {given? : Option (Bool × List Char)} {rest : List Char}
    (proper : ∀ negative digits, given? = some (negative, digits) → Digits digits)
    (halts : Halts goesOn rest) :
    exponent? (Written.exponentText given? ++ rest) = some (given?, rest) := by
  cases given? with
  | none => exact exponent?_of_halts halts
  | some given =>
    obtain ⟨negative, digits⟩ := given
    obtain ⟨some, decimal⟩ := proper negative digits rfl
    have taken := takeDigits_append decimal (isDigit_of_halts halts)
    cases negative <;> simp [Written.exponentText, exponent?, exponentSign, taken, some]

theorem halts_exponentText (given? : Option (Bool × List Char)) {rest : List Char}
    (halts : Halts goesOn rest) : Halts isDigit (Written.exponentText given? ++ rest) := by
  cases given? with
  | none => exact isDigit_of_halts halts
  | some given => exact halts_cons (by decide)

theorem fraction?_fractionText {given? : Option (List Char)} {rest : List Char}
    (proper : ∀ digits, given? = some digits → Digits digits) (halts : Halts isDigit rest)
    (next : rest.head? ≠ some '.') :
    fraction? (Written.fractionText given? ++ rest) = some (given?, rest) := by
  cases given? with
  | none =>
    cases rest with
    | nil => rfl
    | cons c rest =>
      have other : c ≠ '.' := by simpa using next
      simp [Written.fractionText, fraction?, other]
  | some digits =>
    obtain ⟨some, decimal⟩ := proper digits rfl
    simp [Written.fractionText, fraction?, takeDigits_append decimal halts, some]

theorem halts_fractionText (given? : Option (List Char)) {rest : List Char}
    (halts : Halts isDigit rest) : Halts isDigit (Written.fractionText given? ++ rest) := by
  cases given? with
  | none => exact halts
  | some given => exact halts_cons (by decide)

theorem head?_exponentText {given? : Option (Bool × List Char)} {rest : List Char}
    (halts : Halts goesOn rest) : (Written.exponentText given? ++ rest).head? ≠ some '.' := by
  cases given? with
  | some given => simp [Written.exponentText]
  | none =>
    cases rest with
    | nil => simp [Written.exponentText]
    | cons c rest =>
      have outside : goesOn c = false := halts
      simp only [goesOn, Bool.or_eq_false_iff, decide_eq_false_iff_not] at outside
      simpa [Written.exponentText] using outside.1.1.2

namespace Written

variable {written : Written} (proper : written.Proper)
include proper

theorem number?_text {rest : List Char} (halts : Halts goesOn rest) :
    number? (written.text ++ rest) = some (written, rest) := by
  obtain ⟨negative, whole, fraction, exponent⟩ := written
  obtain ⟨⟨filled, decimal⟩, short, fractional, exponential⟩ := proper
  have behind := halts_exponentText exponent halts
  have taken := takeDigits_append decimal (halts_fractionText fraction behind)
  have point := fraction?_fractionText fractional behind (head?_exponentText halts)
  have power := exponent?_exponentText exponential halts
  dsimp only at filled decimal short fractional exponential
  cases negative with
  | true => simp [text, signText, number?, taken, filled, short, point, power]
  | false =>
    obtain ⟨first, others, rfl⟩ := List.exists_cons_of_ne_nil filled
    have unsigned : first ≠ '-' := by
      rintro rfl
      exact absurd (decimal '-' List.mem_cons_self) (by decide)
    rw [List.cons_append] at taken
    simpa [text, signText, number?, unsigned, taken, point, power] using short

theorem text_begins : ∃ c rest, written.text = c :: rest ∧ beginsNumber c = true := by
  obtain ⟨negative, whole, fraction, exponent⟩ := written
  cases negative with
  | true => exact ⟨'-', _, rfl, rfl⟩
  | false =>
    obtain ⟨filled, decimal⟩ := proper.whole
    dsimp only at filled decimal
    obtain ⟨first, others, rfl⟩ := List.exists_cons_of_ne_nil filled
    exact ⟨first, _, rfl, by simp [beginsNumber, decimal first List.mem_cons_self]⟩

end Written

theorem digits_digitsOf (n : Nat) : Digits (digitsOf n) :=
  ⟨digitsOf_ne_nil n, isDigit_of_mem_digitsOf⟩

theorem text_digitsOf (n : Nat) : Written.text ⟨false, digitsOf n, none, none⟩ = digitsOf n := by
  simp [Written.text, Written.signText, Written.fractionText, Written.exponentText]

theorem isDigit_of_mem_zeros {count : Nat} : ∀ c ∈ zeros count, isDigit c = true := by
  intro c member
  rw [List.eq_of_mem_replicate member]
  decide

theorem Digits.append {front back : List Char} (digits : Digits front)
    (more : ∀ c ∈ back, isDigit c = true) : Digits (front ++ back) :=
  ⟨List.append_ne_nil_of_left_ne_nil digits.1 back, List.forall_mem_append.mpr ⟨digits.2, more⟩⟩

theorem Digits.after {front back : List Char} (digits : Digits back)
    (more : ∀ c ∈ front, isDigit c = true) : Digits (front ++ back) :=
  ⟨List.append_ne_nil_of_right_ne_nil front digits.1,
    List.forall_mem_append.mpr ⟨more, digits.2⟩⟩

theorem Digits.take {cs : List Char} (digits : Digits cs) {count : Nat} (some : 0 < count) :
    Digits (cs.take count) := by
  refine ⟨?_, fun c member => digits.2 c (List.mem_of_mem_take member)⟩
  simpa [Nat.ne_of_gt some] using digits.1

theorem Digits.drop {cs : List Char} (digits : Digits cs) {count : Nat}
    (left : count < cs.length) : Digits (cs.drop count) :=
  ⟨by simpa using left, fun c member => digits.2 c (List.mem_of_mem_drop member)⟩

theorem digits_zero : Digits ['0'] := ⟨nofun, List.forall_mem_singleton.mpr (by decide)⟩

def IsNumber (cs : List Char) : Prop := ∃ written : Written, written.Proper ∧ cs = written.text

def IsUnsigned (cs : List Char) : Prop :=
  ∃ written : Written, written.Proper ∧ written.negative = false ∧ cs = written.text

theorem IsUnsigned.signed {cs : List Char} (unsigned : IsUnsigned cs) (negative : Bool) :
    IsNumber (Written.signText negative ++ cs) := by
  obtain ⟨written, proper, positive, rfl⟩ := unsigned
  refine ⟨{ written with negative := negative },
    ⟨proper.whole, proper.short, proper.fraction, proper.exponent⟩, ?_⟩
  simp [Written.text, Written.signText, positive]

theorem isUnsigned_point {whole fraction : List Char} (digits : Digits whole)
    (short : ¬(whole.head? = some '0' ∧ whole.length > 1)) (behind : Digits fraction) :
    IsUnsigned (whole ++ '.' :: fraction) := by
  refine ⟨⟨false, whole, some fraction, none⟩, ⟨digits, short, ?_, nofun⟩, rfl, ?_⟩
  · rintro _ ⟨⟩
    exact behind
  · simp [Written.text, Written.signText, Written.fractionText, Written.exponentText]

theorem isUnsigned_power {ds : List Char} (digits : Digits ds) (power : Int) :
    IsUnsigned (ds.take 1 ++ (if ds.length = 1 then [] else '.' :: ds.drop 1) ++
      'e' :: (if power < 0 then '-' else '+') :: digitsOf power.natAbs) := by
  refine ⟨⟨false, ds.take 1, if ds.length = 1 then none else some (ds.drop 1),
    some (decide (power < 0), digitsOf power.natAbs)⟩, ⟨?_, ?_, ?_, ?_⟩, rfl, ?_⟩
  · exact digits.take Nat.one_pos
  · exact fun several => absurd several.2 (Nat.not_lt.mpr (List.length_take_le 1 ds))
  · intro fraction given
    dsimp only at given
    split at given
    case isTrue => cases given
    case isFalse several =>
      cases given
      have length := List.length_pos_of_ne_nil digits.1
      exact digits.drop (by omega)
  · rintro _ _ ⟨⟩
    exact digits_digitsOf _
  · by_cases single : ds.length = 1 <;> by_cases negative : power < 0 <;>
      simp [Written.text, Written.signText, Written.fractionText, Written.exponentText, single,
        negative]

theorem isUnsigned_decimalText {s : Shortest} (some : s.digits ≠ 0) :
    IsUnsigned (decimalText s) := by
  have digits := digits_digitsOf s.digits
  have head := head?_digitsOf some
  unfold decimalText
  dsimp only
  generalize digitsOf s.digits = ds at *
  split
  case isTrue =>
    apply isUnsigned_point (digits.append isDigit_of_mem_zeros) _ digits_zero
    rw [List.head?_append_of_ne_nil _ digits.1]
    exact fun zero => head zero.1
  case isFalse outside =>
    split
    case isTrue inside =>
      have some : 0 < (Int.ofNat ds.length + s.exponent).toNat := by omega
      have left : (Int.ofNat ds.length + s.exponent).toNat < ds.length := by
        simp only [Int.ofNat_eq_natCast] at outside inside ⊢
        omega
      apply isUnsigned_point (digits.take some) _ (digits.drop left)
      rw [List.head?_take, if_neg (Nat.ne_of_gt some)]
      exact fun zero => head zero.1
    case isFalse =>
      split
      case isTrue =>
        exact isUnsigned_point digits_zero (by simp) (digits.after isDigit_of_mem_zeros)
      case isFalse => exact isUnsigned_power digits _

/-- A binary64 number is written as a number of proper parts if it is finite, and else as null. -/
theorem floatText_cases (x : Float) :
    if x.isFinite then IsNumber (floatText x) else floatText x = "null".toList := by
  rw [isFinite_eq]
  unfold floatText
  cases magnitude x with
  | infinite => rfl
  | notANumber => rfl
  | finite significand exponent =>
    show IsNumber _
    dsimp only
    split
    case isTrue =>
      exact (isUnsigned_point digits_zero (by simp) digits_zero).signed (isNegative x)
    case isFalse some =>
      have unsigned := isUnsigned_decimalText (shortest_digits_ne_zero some exponent)
      exact unsigned.signed (isNegative x)

theorem IsNumber.begins {cs : List Char} (number : IsNumber cs) :
    ∃ c rest, cs = c :: rest ∧ beginsNumber c = true := by
  obtain ⟨written, proper, rfl⟩ := number
  exact Written.text_begins proper

theorem floatText_eq_null_iff (x : Float) : floatText x = "null".toList ↔ x.isFinite = false := by
  have cases := floatText_cases x
  cases finite : x.isFinite with
  | false =>
    rw [finite] at cases
    exact iff_of_true cases rfl
  | true =>
    rw [finite] at cases
    obtain ⟨c, rest, same, begins⟩ := IsNumber.begins cases
    refine iff_of_false (fun null => ?_) nofun
    obtain ⟨rfl, -⟩ := List.cons.inj (same.symm.trans null)
    exact absurd begins (by decide)

end Rollup.Json
