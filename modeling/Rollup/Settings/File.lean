import Rollup.Settings.Basic
import Rollup.Text.Utf8
import Rollup.Toml.Document

/-! Settings files.  A file only needs the settings that it changes, names that mean nothing are
passed over, and a value of the wrong kind spoils the file.  The delimiter is checked as soon as
the file is read. -/

namespace Rollup.Settings

open Toml (Value Fields)

def text? : Value → Option String
  | .text value => some value
  | _ => none

def character? (value : Value) : Option Char :=
  match (text? value).map String.toList with
  | some [c] => some c
  | _ => none

def boolean? : Value → Option Bool
  | .scalar (.boolean value) => some value
  | _ => none

def natural? : Value → Option Nat
  | .scalar (.integer value) =>
    if 0 ≤ value ∧ value.toNat < Decimal.wordBound then some value.toNat else none
  | _ => none

def texts? : Value → Option (List String)
  | .list items => items.mapM text?
  | _ => none

def setting {α : Type} (fields : Fields) (name : String) (default : α)
    (read? : Value → Option α) : Option α :=
  match fields.lookup name with
  | some value => read? value
  | none => some default

def ofFields? (fields : Fields) : Option Settings := do
  let usual : Settings := {}
  let input ← setting fields "input" usual.input? (fun value => (text? value).map some)
  let delimiter ← setting fields "delimiter" usual.delimiter character?
  let hasHeader ← setting fields "has_header" usual.hasHeader boolean?
  let filter ← setting fields "filter" usual.filter? (fun value => (text? value).map some)
  let groupBy ← setting fields "group_by" usual.groupBy texts?
  let aggregations ← setting fields "aggregations" usual.aggregations texts?
  let topCount ← setting fields "top_n" usual.topCount natural?
  let metric ← setting fields "top_n_metric" usual.metric text?
  return ⟨input, delimiter, hasHeader, filter, groupBy, aggregations, topCount, metric⟩

theorem ofFields?_nil : ofFields? [] = some {} := rfl

def notText : String := "stream did not contain valid UTF-8"

/-- The settings in a file that was read, or could not be read for some cause, when its fields are
told by a reader for such files. -/
def loadBy (fieldsOf? : String → Option Fields) (path : String)
    (content : Except String (List UInt8)) : Except SettingsError Settings :=
  match content with
  | .error cause => .error (.unreadable path cause)
  | .ok bytes =>
    match Text.Utf8.decode? bytes with
    | none => .error (.unreadable path notText)
    | some text =>
      match (fieldsOf? text).bind ofFields? with
      | none => .error (.unparsable path)
      | some settings => settings.delimiterByte.map fun _ => settings

def load (path : String) (content : Except String (List UInt8)) :
    Except SettingsError Settings :=
  loadBy Toml.fields? path content

end Rollup.Settings
