import Rollup.Proofs.Table.Enclosure
import Rollup.Proofs.Table.Reading
import Rollup.Proofs.Table.Splitting
import Rollup.Text.Encoding
import Rollup.Settings.Basic

/-! Records as bytes and as text.  With an ASCII delimiter no part of a longer character can be
taken for a mark, so the bytes of a text lead to the same mode as its characters.  Main statements:
splitting reports an open quote only for text that ends inside one, never succeeds on such text,
and reads a line feed that lies inside quotes only as part of a quoted cell. -/

namespace Rollup.Table

open Text

/-- A byte that can stand between fields: ASCII, and neither the quote nor part of a line break. -/
structure Separates (delimiter : UInt8) : Prop where
  ascii : delimiter.toNat < 0x80
  not_quote : delimiter ≠ quote
  not_lineFeed : delimiter ≠ lineFeed
  not_carriageReturn : delimiter ≠ carriageReturn

theorem separates_of_delimiterByte {settings : Settings} {delimiter : UInt8}
    (accepted : settings.delimiterByte = .ok delimiter) : Separates delimiter := by
  have code := Settings.toNat_delimiterByte accepted
  unfold Settings.delimiterByte at accepted
  dsimp only at accepted
  split at accepted
  · cases accepted
  case isFalse ascii =>
    split at accepted
    · cases accepted
    case isFalse free =>
      have differs : ∀ c : Char, Settings.isReserved c = true → c.toNat ≠ delimiter.toNat := by
        intro c reserved same
        rw [code] at same
        rw [Char.toNat_inj.mp same] at reserved
        exact free reserved
      refine ⟨by omega, ?_, ?_, ?_⟩
      · rintro rfl
        exact differs '"' (by decide) (by decide)
      · rintro rfl
        exact differs '\n' (by decide) (by decide)
      · rintro rfl
        exact differs '\r' (by decide) (by decide)

def charOf (delimiter : UInt8) : Char := Char.ofNat delimiter.toNat

theorem toNat_charOf (delimiter : UInt8) : (charOf delimiter).toNat = delimiter.toNat :=
  Utf8.toNat_ofNat_byte delimiter

theorem charOf_ne {delimiter byte : UInt8} {c : Char} (differs : delimiter ≠ byte)
    (code : c.toNat = byte.toNat) : charOf delimiter ≠ c := by
  rintro rfl
  apply differs
  apply UInt8.toNat_inj.mp
  rw [← toNat_charOf, code]

theorem Separates.charOf_ne_quote {delimiter : UInt8} (separates : Separates delimiter) :
    charOf delimiter ≠ '"' :=
  charOf_ne separates.not_quote rfl

theorem Separates.charOf_ne_lineFeed {delimiter : UInt8} (separates : Separates delimiter) :
    charOf delimiter ≠ '\n' :=
  charOf_ne separates.not_lineFeed rfl

theorem Separates.charOf_ne_carriageReturn {delimiter : UInt8} (separates : Separates delimiter) :
    charOf delimiter ≠ '\r' :=
  charOf_ne separates.not_carriageReturn rfl

theorem ofNat_toNat_eq_iff {c : Char} {byte : UInt8} (ascii : c.toNat < 0x80) :
    UInt8.ofNat c.toNat = byte ↔ c.toNat = byte.toNat := by
  rw [← UInt8.toNat_inj, Utf8.toNat_ofNat_char ascii]

def Mode.past : Mode → Mode
  | .start => .bare
  | .bare => .bare
  | .quoted => .quoted
  | .shut => .closed
  | .closed => .closed

theorem Mode.next_eq_past {α : Type} [DecidableEq α] {marks : Marks α} {symbol : α}
    (notDelimiter : symbol ≠ marks.delimiter) (notQuote : symbol ≠ marks.quote)
    (ink : marks.isPadding symbol = false) (mode : Mode) :
    mode.next marks symbol = mode.past := by
  cases mode <;> simp [Mode.next, Mode.past, notDelimiter, notQuote, ink]

theorem Mode.past_past (mode : Mode) : mode.past.past = mode.past := by
  cases mode <;> rfl

theorem Mode.after_eq_past {α : Type} [DecidableEq α] {marks : Marks α} {symbols : List α}
    (some : symbols ≠ []) (mode : Mode)
    (plain : ∀ symbol ∈ symbols, symbol ≠ marks.delimiter ∧ symbol ≠ marks.quote ∧
      marks.isPadding symbol = false) : mode.after marks symbols = mode.past := by
  induction symbols generalizing mode with
  | nil => exact absurd rfl some
  | cons first rest ih =>
    obtain ⟨notDelimiter, notQuote, ink⟩ := plain first List.mem_cons_self
    rw [Mode.after_cons, Mode.next_eq_past notDelimiter notQuote ink]
    cases rest with
    | nil => rfl
    | cons second others =>
      rw [ih (by simp) _ (fun symbol member => plain symbol (List.mem_cons_of_mem _ member)),
        Mode.past_past]

/-- The bytes of a character lead where the character leads. -/
theorem Mode.after_encodeChar {delimiter : UInt8} (ascii : delimiter.toNat < 0x80) (mode : Mode)
    (c : Char) :
    mode.after (byteMarks delimiter) (String.utf8EncodeChar c) =
      mode.next (charMarks (charOf delimiter)) c := by
  have code := toNat_charOf delimiter
  by_cases low : c.toNat < 0x80
  · have delimiters : UInt8.ofNat c.toNat = delimiter ↔ c = charOf delimiter := by
      rw [ofNat_toNat_eq_iff low, ← code, Char.toNat_inj]
    have quotes : UInt8.ofNat c.toNat = quote ↔ c = '"' := by
      rw [ofNat_toNat_eq_iff low, ← Char.toNat_inj]
      rfl
    have spaces : UInt8.ofNat c.toNat = 0x20 ↔ c = ' ' := by
      rw [ofNat_toNat_eq_iff low, ← Char.toNat_inj]
      rfl
    have tabs : UInt8.ofNat c.toNat = 0x09 ↔ c = '\t' := by
      rw [ofNat_toNat_eq_iff low, ← Char.toNat_inj]
      rfl
    rw [Utf8.encodeChar_ascii low, Mode.after_cons, Mode.after_nil]
    apply Mode.next_congr delimiters quotes
    simp only [byteMarks, charMarks, isPadding, isPaddingChar, spaces, tabs]
  · have high : 0x80 ≤ c.toNat := Nat.not_lt.mp low
    have differs : ∀ d : Char, d.toNat < 0x80 → c ≠ d := by
      rintro d small rfl
      omega
    have plain : ∀ byte ∈ String.utf8EncodeChar c, byte ≠ delimiter ∧ byte ≠ quote ∧
        isPadding byte = false := by
      intro byte member
      have far := Utf8.high_of_mem_encodeChar high member
      have other : ∀ b : UInt8, b.toNat < 0x80 → byte ≠ b := by
        rintro b small rfl
        omega
      refine ⟨other delimiter ascii, other quote (by decide), ?_⟩
      simp [isPadding, other 0x20 (by decide), other 0x09 (by decide)]
    rw [Mode.after_eq_past String.utf8EncodeChar_ne_nil mode plain]
    symm
    apply Mode.next_eq_past
    · exact differs (charOf delimiter) (by omega)
    · exact differs '"' (by decide)
    · simp [charMarks, isPaddingChar, differs ' ' (by decide), differs '\t' (by decide)]

theorem Mode.after_encode {delimiter : UInt8} (ascii : delimiter.toNat < 0x80) (mode : Mode)
    (cs : List Char) :
    mode.after (byteMarks delimiter) (Utf8.encode (String.ofList cs)) =
      mode.after (charMarks (charOf delimiter)) cs := by
  rw [Utf8.encode_ofList]
  induction cs generalizing mode with
  | nil => rfl
  | cons c rest ih =>
    rw [List.flatMap_cons, Mode.after_append, Mode.after_encodeChar ascii, ih]
    rfl

theorem lineFeed_mem_encodeChar_iff {c : Char} :
    lineFeed ∈ String.utf8EncodeChar c ↔ c = '\n' := by
  rw [Utf8.ascii_mem_encodeChar_iff (by decide), ← Char.toNat_inj]
  rfl

theorem lineFeed_mem_encode_iff {cs : List Char} :
    lineFeed ∈ Utf8.encode (String.ofList cs) ↔ '\n' ∈ cs := by
  rw [Utf8.encode_ofList, List.mem_flatMap]
  simp only [lineFeed_mem_encodeChar_iff, exists_eq_right]

theorem getLast?_encode_ne {cs : List Char} (other : cs.getLast? ≠ some '\r') :
    (Utf8.encode (String.ofList cs)).getLast? ≠ some carriageReturn := by
  by_cases empty : cs = []
  · subst empty
    decide
  · intro last
    have final := List.getLast?_eq_some_getLast (@String.utf8EncodeChar_ne_nil (cs.getLast empty))
    rw [← List.dropLast_concat_getLast empty, Utf8.encode_ofList, List.flatMap_append,
      List.flatMap_singleton, List.getLast?_append, final, Option.some_or, ← final] at last
    have code := (Utf8.ascii_mem_encodeChar_iff (by decide)).mp (List.mem_of_getLast? last)
    have same : cs.getLast empty = '\r' := Char.toNat_inj.mp code
    exact other (same ▸ List.getLast?_eq_some_getLast empty)

theorem enclosed_encode_iff {delimiter : UInt8} (ascii : delimiter.toNat < 0x80) (mode : Mode)
    (cs : List Char) :
    Enclosed (byteMarks delimiter) lineFeed mode (Utf8.encode (String.ofList cs)) ↔
      Enclosed (charMarks (charOf delimiter)) '\n' mode cs := by
  rw [Utf8.encode_ofList]
  induction cs generalizing mode with
  | nil => exact iff_of_true (enclosed_nil _ _ _) (enclosed_nil _ _ _)
  | cons c rest ih =>
    have head : Enclosed (byteMarks delimiter) lineFeed mode (String.utf8EncodeChar c) ↔
        (c = '\n' → mode = .quoted) := by
      by_cases feed : c = '\n'
      · subst feed
        have bytes : String.utf8EncodeChar '\n' = [lineFeed] := by decide
        simp [bytes, enclosed_cons_iff, enclosed_nil]
      · have absent : lineFeed ∉ String.utf8EncodeChar c :=
          fun member => feed (lineFeed_mem_encodeChar_iff.mp member)
        exact iff_of_true (enclosed_of_not_mem _ absent _) fun same => absurd same feed
    rw [List.flatMap_cons, enclosed_append_iff, Mode.after_encodeChar ascii, ih, head,
      enclosed_cons_iff]

/-- Some bytes are the record that is written as some cells. -/
structure Written (delimiter : UInt8) (cells : List Cell) (bytes : List UInt8) : Prop where
  some : cells ≠ []
  formed : ∀ cell ∈ cells, cell.WellFormed (charOf delimiter)
  bytes : bytes = Utf8.encode (String.ofList (rowText (charOf delimiter) cells))

section

variable {delimiter : UInt8} {bytes : List UInt8}

theorem Written.modeOf_ne_quoted {cells : List Cell} (separates : Separates delimiter)
    (written : Written delimiter cells bytes) : modeOf delimiter bytes ≠ .quoted := by
  rw [modeOf, written.bytes, Mode.after_encode separates.ascii]
  exact Mode.after_rowText separates.charOf_ne_quote written.formed

theorem Written.unbroken_iff {cells : List Cell} (separates : Separates delimiter)
    (written : Written delimiter cells bytes) :
    Unbroken delimiter bytes ↔ ∀ cell ∈ cells, cell.Flat := by
  rw [Unbroken, written.bytes, enclosed_encode_iff separates.ascii]
  exact enclosed_rowText_iff separates.charOf_ne_quote separates.charOf_ne_lineFeed written.formed

theorem decodeRecord_of_decode? {text : String} (decoded : Utf8.decode? bytes = some text) :
    decodeRecord delimiter bytes = splitFields (charOf delimiter) text := by
  unfold decodeRecord
  rw [decoded]
  rfl

theorem exists_split {result : Except RecordError (List String)}
    (read : decodeRecord delimiter bytes = result) (valid : result ≠ .error .invalidUtf8) :
    ∃ cs, bytes = Utf8.encode (String.ofList cs) ∧ Split (charOf delimiter) cs result := by
  cases decoded : Utf8.decode? bytes with
  | none =>
    unfold decodeRecord at read
    rw [decoded] at read
    exact absurd read.symm valid
  | some text =>
    rw [decodeRecord_of_decode? decoded] at read
    refine ⟨text.toList, ?_, read ▸ splitFields_split (charOf delimiter) text⟩
    rw [String.ofList_toList]
    exact Utf8.decode?_eq_some_iff.mp decoded

theorem decodeRecord_ok_iff (separates : Separates delimiter) (values : List String) :
    decodeRecord delimiter bytes = .ok values ↔
      ∃ cells, Written delimiter cells bytes ∧ cells.map Cell.value = values := by
  constructor
  · intro read
    obtain ⟨cs, same, split⟩ := exists_split read nofun
    cases split with
    | @fields cells some formed text => exact ⟨cells, ⟨some, formed, text ▸ same⟩, rfl⟩
  · rintro ⟨cells, written, rfl⟩
    rw [decodeRecord_of_decode? (Utf8.decode?_eq_some_iff.mpr written.bytes)]
    exact splitFields_rowText separates.charOf_ne_quote written.some written.formed

theorem modeOf_of_unterminated (separates : Separates delimiter) {column : Nat}
    (read : decodeRecord delimiter bytes = .error (.unterminatedQuote column)) :
    modeOf delimiter bytes = .quoted := by
  obtain ⟨cs, same, split⟩ := exists_split read nofun
  cases split with
  | @unterminated cells before content formed padding text =>
    have notQuote := separates.charOf_ne_quote
    let marks := charMarks (charOf delimiter)
    calc
      modeOf delimiter bytes = Mode.start.after marks cs := by
        rw [modeOf, same, Mode.after_encode separates.ascii]
      _ = (Mode.start.after marks (begun (charOf delimiter) cells)).after marks
          (before ++ '"' :: doubled content) := by rw [text, Mode.after_append]
      _ = Mode.start.after marks (before ++ '"' :: doubled content) := by
        rw [Mode.after_begun notQuote formed]
      _ = .quoted := Mode.after_opening notQuote padding content

end

end Rollup.Table
