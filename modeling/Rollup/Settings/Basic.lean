import Rollup.Text.Pieces

/-! The settings of a run, and what is asked of a delimiter: one ASCII character that is neither
the quote nor a line break. -/

namespace Rollup

structure Settings where
  input? : Option String := none
  delimiter : Char := ','
  hasHeader : Bool := true
  filter? : Option String := none
  groupBy : List String := []
  aggregations : List String := []
  topCount : Nat := 10
  metric : String := "count"
  deriving DecidableEq, Repr

inductive SettingsError where
  | unreadable (path cause : String)
  | unparsable (path : String)
  | invalidDelimiter (value : String)
  | reservedDelimiter (delimiter : Char)
  | missing (field : String)
  deriving DecidableEq, Repr

/-- The message of an error.  The message about a file that cannot be parsed names only the
file. -/
def SettingsError.message : SettingsError → String
  | .unreadable path cause => "Failed to read configuration file '" ++ path ++ "': " ++ cause
  | .unparsable path => "Failed to parse configuration file '" ++ path ++ "'"
  | .invalidDelimiter value => "Delimiter must be a single character, got '" ++ value ++ "'"
  | .reservedDelimiter delimiter =>
    "Delimiter '" ++ String.singleton delimiter ++ "' cannot be a quote or line break"
  | .missing field => "Missing required configuration: " ++ field

def SettingsError.cause? : SettingsError → Option String
  | .unreadable _ cause => some cause
  | .unparsable _ | .invalidDelimiter _ | .reservedDelimiter _ | .missing _ => none

namespace Settings

def isReserved (c : Char) : Bool := c = '"' || c = '\n' || c = '\r'

def delimiterByte (settings : Settings) : Except SettingsError UInt8 :=
  let c := settings.delimiter
  if 0x80 ≤ c.toNat then .error (.invalidDelimiter (String.singleton c))
  else if isReserved c then .error (.reservedDelimiter c)
  else .ok (UInt8.ofNat c.toNat)

theorem toNat_delimiterByte {settings : Settings} {byte : UInt8}
    (accepted : settings.delimiterByte = .ok byte) : byte.toNat = settings.delimiter.toNat := by
  unfold delimiterByte at accepted
  dsimp only at accepted
  split at accepted
  · cases accepted
  case isFalse ascii =>
    split at accepted
    · cases accepted
    · cases accepted
      simp only [UInt8.toNat_ofNat']
      omega

def aggregationList (settings : Settings) : String := Text.joined "," settings.aggregations

def inputPath (settings : Settings) : Except SettingsError String :=
  match settings.input? with
  | some path => .ok path
  | none => .error (.missing "input")

/-- Reads a delimiter as it is given on a command line: one character, or a name for the tab. -/
def parseDelimiter (value : String) : Except SettingsError Char :=
  if value = "\\t" ∨ Text.sameIgnoringCase value "tab" then .ok '\t'
  else
    match value.toList with
    | [c] => .ok c
    | _ => .error (.invalidDelimiter value)

end Settings

end Rollup
