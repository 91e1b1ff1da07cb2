import Rollup.Json.Node
import Rollup.Json.Value

/-! Quoted texts.  A character is written as itself, as a backslash and a letter, or by its code
point.  Main statement: up to the closing quote the reader takes exactly what was written for a
text, and decoding it gives the text back, whatever its characters are. -/

namespace Rollup.Json

open Decimal (digitValue? valueIn)

/-- The ways in which a character may be written.  A code point beyond the first `2 ^ 16` takes two
surrogates. -/
inductive Escaped (c : Char) : List Char → Prop
  | letter {e : Char} (escapes : isEscape e = true) (means : escapeValue e = c) :
      Escaped c ['\\', e]
  | code {p q r s : Char} (digits : ∀ digit ∈ [p, q, r, s], isHex digit = true)
      (means : valueIn 16 [p, q, r, s] = c.toNat) :
      Escaped c ['\\', 'u', p, q, r, s]
  | pair {p q r s t u v w : Char}
      (digits : ∀ digit ∈ [p, q, r, s, t, u, v, w], isHex digit = true)
      (high : isHighSurrogate (valueIn 16 [p, q, r, s]) = true)
      (low : isLowSurrogate (valueIn 16 [t, u, v, w]) = true)
      (means : 0x10000 + (valueIn 16 [p, q, r, s] - 0xD800) * 0x400 +
        (valueIn 16 [t, u, v, w] - 0xDC00) = c.toNat) :
      Escaped c ['\\', 'u', p, q, r, s, '\\', 'u', t, u, v, w]
  | plain (quote : c ≠ '"') (backslash : c ≠ '\\') (printed : 32 ≤ c.toNat) : Escaped c [c]

inductive Escapes : List Char → List Char → Prop
  | nil : Escapes [] []
  | cons {c : Char} {written cs raw : List Char} (first : Escaped c written)
      (others : Escapes cs raw) : Escapes (c :: cs) (written ++ raw)

theorem ne_u_of_isEscape {e : Char} (escapes : isEscape e = true) : e ≠ 'u' := by
  rintro rfl
  cases escapes

theorem rawText?_append {c : Char} {written : List Char} (escaped : Escaped c written)
    (rest : List Char) :
    rawText? (written ++ rest) =
      (rawText? rest).map fun (raw, after) => (written ++ raw, after) := by
  cases escaped with
  | letter escapes means => simp [rawText?, ne_u_of_isEscape escapes, escapes]
  | code digits means =>
    simp only [List.forall_mem_cons] at digits
    simp [rawText?, digits]
  | pair digits high low means =>
    simp only [List.forall_mem_cons] at digits
    simp [rawText?, digits]
    rfl
  | plain quote backslash printed =>
    simp [rawText?, backslash, Nat.not_lt.mpr printed]

theorem rawText?_of_escapes {cs raw : List Char} (escapes : Escapes cs raw) (rest : List Char) :
    rawText? (raw ++ '"' :: rest) = some (raw, rest) := by
  induction escapes with
  | nil => simp [rawText?]
  | cons first others ih =>
    rw [List.append_assoc, rawText?_append first, ih]
    rfl

end Rollup.Json
