import Rollup.Text.Utf8

/-! The bytes of a text, one character after another.  An ASCII character is the one byte of its
code, and every other character gives bytes from 0x80 on, so no part of it can be taken for an
ASCII byte. -/

namespace Rollup.Text.Utf8

theorem encode_ofList (cs : List Char) :
    encode (String.ofList cs) = cs.flatMap String.utf8EncodeChar := by
  rw [encode, String.toUTF8_eq_toByteArray, String.toByteArray_ofList, List.utf8Encode,
    List.data_toByteArray, List.toList_toArray]

theorem encode_ofList_append (first second : List Char) :
    encode (String.ofList (first ++ second)) =
      encode (String.ofList first) ++ encode (String.ofList second) := by
  rw [encode_ofList, encode_ofList, encode_ofList, List.flatMap_append]

theorem toNat_ofNat_byte (byte : UInt8) : (Char.ofNat byte.toNat).toNat = byte.toNat := by
  have small := byte.toNat_lt
  have valid : Nat.isValidChar byte.toNat := .inl (by omega)
  rw [Char.ofNat, dif_pos valid]
  rfl

theorem toNat_ofNat_char {c : Char} (ascii : c.toNat < 0x80) :
    (UInt8.ofNat c.toNat).toNat = c.toNat := by
  rw [UInt8.toNat_ofNat', Nat.mod_eq_of_lt (by omega)]

theorem encodeChar_ascii {c : Char} (ascii : c.toNat < 0x80) :
    String.utf8EncodeChar c = [UInt8.ofNat c.toNat] := by
  have small : c.val.toNat ≤ 0x7F := Nat.le_of_lt_succ ascii
  simp only [String.utf8EncodeChar, if_pos small]
  rfl

theorem high_of_mem_encodeChar {c : Char} (high : 0x80 ≤ c.toNat) {byte : UInt8}
    (member : byte ∈ String.utf8EncodeChar c) : 0x80 ≤ byte.toNat := by
  have big : ¬c.val.toNat ≤ 0x7F := Nat.not_le.mpr high
  simp only [String.utf8EncodeChar, if_neg big] at member
  split at member
  · simp only [List.mem_cons, List.not_mem_nil, or_false] at member
    rcases member with rfl | rfl <;> rw [UInt8.toNat_ofNat'] <;> omega
  · split at member
    · simp only [List.mem_cons, List.not_mem_nil, or_false] at member
      rcases member with rfl | rfl | rfl <;> rw [UInt8.toNat_ofNat'] <;> omega
    · simp only [List.mem_cons, List.not_mem_nil, or_false] at member
      rcases member with rfl | rfl | rfl | rfl <;> rw [UInt8.toNat_ofNat'] <;> omega

theorem ascii_mem_encodeChar_iff {c : Char} {byte : UInt8} (ascii : byte.toNat < 0x80) :
    byte ∈ String.utf8EncodeChar c ↔ c.toNat = byte.toNat := by
  by_cases low : c.toNat < 0x80
  · rw [encodeChar_ascii low, List.mem_singleton, ← UInt8.toNat_inj, toNat_ofNat_char low, eq_comm]
  · refine iff_of_false ?_ ?_
    · intro member
      have high := high_of_mem_encodeChar (Nat.not_lt.mp low) member
      omega
    · omega

end Rollup.Text.Utf8
