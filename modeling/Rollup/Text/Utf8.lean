/-! UTF-8 between bytes and text.  Decoding is either strict, where one bad byte refuses the whole
sequence, or lossy, where each maximal ill-formed stretch becomes one replacement character.
Main statement: decoding what was encoded gives the text back. -/

namespace Rollup.Text.Utf8

def encode (s : String) : List UInt8 := s.toUTF8.data.toList

def decode? (bytes : List UInt8) : Option String := String.fromUTF8? ⟨bytes.toArray⟩

theorem decode?_encode (s : String) : decode? (encode s) = some s := by
  have whole : (⟨(encode s).toArray⟩ : ByteArray) = s.toByteArray := by
    simp [encode, String.toUTF8_eq_toByteArray]
  unfold decode? String.fromUTF8?
  rw [whole, dif_pos s.isValidUTF8]
  rfl

theorem encode_of_decode? {bytes : List UInt8} {s : String} (read : decode? bytes = some s) :
    encode s = bytes := by
  simp only [decode?, String.fromUTF8?] at read
  split at read
  case isTrue valid =>
    cases read
    rfl
  case isFalse => cases read

theorem decode?_eq_some_iff {bytes : List UInt8} {s : String} :
    decode? bytes = some s ↔ bytes = encode s :=
  ⟨fun read => (encode_of_decode? read).symm, fun same => same ▸ decode?_encode s⟩

/-- A character that has begun: the bits read so far, how many bytes are still owed, and the
bounds on the next one. -/
structure Begun where
  bits : Nat
  owed : Nat
  low : Nat := 0x80
  high : Nat := 0xBF

/-- What a first byte is: a character of its own, the start of a longer one, or no start. -/
inductive Lead where
  | whole (c : Char)
  | begun (state : Begun)
  | stray

/-- The bounds on the byte after the first exclude overlong forms, surrogates and code points
past the last one. -/
def lead (byte : UInt8) : Lead :=
  let n := byte.toNat
  if n < 0x80 then .whole (Char.ofNat n)
  else if n < 0xC2 then .stray
  else if n < 0xE0 then .begun ⟨n - 0xC0, 1, 0x80, 0xBF⟩
  else if n < 0xF0 then
    .begun ⟨n - 0xE0, 2, if n = 0xE0 then 0xA0 else 0x80, if n = 0xED then 0x9F else 0xBF⟩
  else if n < 0xF5 then
    .begun ⟨n - 0xF0, 3, if n = 0xF0 then 0x90 else 0x80, if n = 0xF4 then 0x8F else 0xBF⟩
  else .stray

def replacement : Char := '\uFFFD'

def start (byte : UInt8) : List Char × Option Begun :=
  match lead byte with
  | .whole c => ([c], none)
  | .begun state => ([], some state)
  | .stray => ([replacement], none)

def advance (open? : Option Begun) (byte : UInt8) : List Char × Option Begun :=
  match open? with
  | none => start byte
  | some state =>
    let n := byte.toNat
    if state.low ≤ n ∧ n ≤ state.high then
      let bits := state.bits * 64 + (n - 0x80)
      if state.owed ≤ 1 then ([Char.ofNat bits], none)
      else ([], some { bits := bits, owed := state.owed - 1 })
    else
      let (text, rest) := start byte
      (replacement :: text, rest)

def lossyFrom (open? : Option Begun) : List UInt8 → List Char
  | [] => if open?.isSome then [replacement] else []
  | byte :: rest =>
    let (text, next) := advance open? byte
    text ++ lossyFrom next rest

/-- The text of any bytes: each longest start of a character that leads nowhere is replaced. -/
def decodeLossy (bytes : List UInt8) : List Char := lossyFrom none bytes

end Rollup.Text.Utf8
