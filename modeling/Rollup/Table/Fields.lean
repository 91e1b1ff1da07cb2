import Rollup.Decimal.Digits
import Rollup.Text.Blank
import Rollup.Text.Utf8

/-! The fields of one record.  A field that opens with a quote, after padding, keeps its content
verbatim with a doubled quote standing for one, and nothing but padding may follow it.  Any
other field is trimmed: padding in front is skipped and blanks at its end are cut.  Columns in
errors count characters from one. -/

namespace Rollup.Table

/-- Why a record cannot be split into fields. -/
inductive RecordError where
  | unterminatedQuote (column : Nat)
  | textAfterQuote (found : Char) (column : Nat)
  | invalidUtf8
  deriving DecidableEq, Repr

def RecordError.message : RecordError → String
  | .unterminatedQuote column =>
    "unterminated quoted field starting at column " ++ Decimal.natural column
  | .textAfterQuote found column =>
    "unexpected character '" ++ String.singleton found ++ "' after closing quote at column " ++
      Decimal.natural column
  | .invalidUtf8 => "record is not valid UTF-8"

def isPaddingChar (c : Char) : Bool := c = ' ' || c = '\t'

theorem isBlank_of_isPaddingChar (c : Char) (padding : isPaddingChar c = true) :
    Text.isBlank c = true := by
  simp only [isPaddingChar, Bool.or_eq_true, decide_eq_true_eq] at padding
  rcases padding with same | same <;> subst same <;> decide

/-- Where the splitting stands.  The characters of the current field are kept last one first, and
an open quote is remembered by its column. -/
inductive Field where
  | start
  | bare (reversed : List Char)
  | quoted (opened : Nat) (reversed : List Char)
  | closed (reversed : List Char)

def Field.value? : Field → Except RecordError String
  | .start => .ok ""
  | .bare reversed => .ok (String.ofList (Text.trimEnd reversed.reverse))
  | .quoted opened _ => .error (.unterminatedQuote opened)
  | .closed reversed => .ok (String.ofList reversed.reverse)

/-- Splits the rest of a record, which starts at the given column, into the current field and
those after it. -/
def splitFrom (delimiter : Char) : Nat → Field → List Char → Except RecordError (List String)
  | _, field, [] => field.value?.map ([·])
  | column, .start, c :: rest =>
    if c = delimiter then (splitFrom delimiter (column + 1) .start rest).map ("" :: ·)
    else if c = '"' then splitFrom delimiter (column + 1) (.quoted column []) rest
    else if isPaddingChar c then splitFrom delimiter (column + 1) .start rest
    else splitFrom delimiter (column + 1) (.bare [c]) rest
  | column, .bare reversed, c :: rest =>
    if c = delimiter then do
      let value ← (Field.bare reversed).value?
      let values ← splitFrom delimiter (column + 1) .start rest
      return value :: values
    else splitFrom delimiter (column + 1) (.bare (c :: reversed)) rest
  | column, .quoted opened reversed, [c] =>
    if c = '"' then splitFrom delimiter (column + 1) (.closed reversed) []
    else splitFrom delimiter (column + 1) (.quoted opened (c :: reversed)) []
  | column, .quoted opened reversed, c :: next :: rest =>
    if c = '"' then
      if next = '"' then splitFrom delimiter (column + 2) (.quoted opened (c :: reversed)) rest
      else splitFrom delimiter (column + 1) (.closed reversed) (next :: rest)
    else splitFrom delimiter (column + 1) (.quoted opened (c :: reversed)) (next :: rest)
  | column, .closed reversed, c :: rest =>
    if c = delimiter then
      (splitFrom delimiter (column + 1) .start rest).map (String.ofList reversed.reverse :: ·)
    else if isPaddingChar c then splitFrom delimiter (column + 1) (.closed reversed) rest
    else .error (.textAfterQuote c column)

def splitFields (delimiter : Char) (record : String) : Except RecordError (List String) :=
  splitFrom delimiter 1 .start record.toList

/-- Decodes the bytes of a record and splits it; the delimiter is the character of its byte. -/
def decodeRecord (delimiter : UInt8) (record : List UInt8) : Except RecordError (List String) :=
  match Text.Utf8.decode? record with
  | none => .error .invalidUtf8
  | some text => splitFields (Char.ofNat delimiter.toNat) text

end Rollup.Table
