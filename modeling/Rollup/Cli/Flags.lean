import Rollup.Decimal.Digits
import Rollup.Settings.Basic

/-! The flags of the command line.  A flag has its value in the next argument or after an equals
sign, may be given once, and is known by its whole name only.  Arguments are read from left to
right: the first one that does not fit rejects the line, and a request for help or for the
version ends the reading. -/

namespace Rollup.Cli

structure Flags where
  input? : Option String := none
  filter? : Option String := none
  groupBy? : Option String := none
  aggregations? : Option String := none
  topCount? : Option Nat := none
  metric? : Option String := none
  output? : Option String := none
  report? : Option String := none
  delimiter? : Option String := none
  header? : Option Bool := none
  config? : Option String := none
  debug : Bool := false
  deriving DecidableEq, Repr

/-- What a line of arguments asks for. -/
inductive Request where
  | run (flags : Flags)
  | help
  | version
  | rejected
  deriving DecidableEq, Repr

def once {α : Type} (old? : Option α) (value? : Option α) : Option (Option α) :=
  match old?, value? with
  | none, some value => some (some value)
  | _, _ => none

def path? (value : String) : Option String := if value = "" then none else some value

def natural? (value : String) : Option Nat :=
  let digits :=
    match value.toList with
    | '+' :: digits => digits
    | digits => digits
  if digits ≠ [] ∧ digits.all Decimal.isDigit ∧ Decimal.valueOf digits < Decimal.wordBound then
    some (Decimal.valueOf digits)
  else none

def boolean? (value : String) : Option Bool :=
  if value = "true" then some true
  else if value = "false" then some false
  else none

namespace Flags

def set? (flags : Flags) (name value : String) : Option Flags :=
  if name = "input" then
    (once flags.input? (path? value)).map ({ flags with input? := · })
  else if name = "filter" then
    (once flags.filter? (some value)).map ({ flags with filter? := · })
  else if name = "group-by" then
    (once flags.groupBy? (some value)).map ({ flags with groupBy? := · })
  else if name = "agg" then
    (once flags.aggregations? (some value)).map ({ flags with aggregations? := · })
  else if name = "top-n" then
    (once flags.topCount? (natural? value)).map ({ flags with topCount? := · })
  else if name = "top-n-metric" then
    (once flags.metric? (some value)).map ({ flags with metric? := · })
  else if name = "output" then
    (once flags.output? (path? value)).map ({ flags with output? := · })
  else if name = "report" then
    (once flags.report? (path? value)).map ({ flags with report? := · })
  else if name = "delimiter" then
    (once flags.delimiter? (some value)).map ({ flags with delimiter? := · })
  else if name = "header" then
    (once flags.header? (boolean? value)).map ({ flags with header? := · })
  else if name = "config" then
    (once flags.config? (path? value)).map ({ flags with config? := · })
  else none

end Flags

inductive Argument where
  | long (name : String) (attached? : Option String)
  | short (letter : Char)
  | endOfFlags
  | plain
  deriving DecidableEq, Repr

def Argument.ofText (argument : String) : Argument :=
  match argument.toList with
  | ['-', '-'] => .endOfFlags
  | '-' :: '-' :: rest =>
    let name := String.ofList (rest.takeWhile (· ≠ '='))
    match rest.dropWhile (· ≠ '=') with
    | _ :: value => .long name (some (String.ofList value))
    | [] => .long name none
  | '-' :: letter :: _ => .short letter
  | _ => .plain

/-- Reads the rest of the arguments after those that set the flags so far. -/
def readArguments (flags : Flags) : List String → Request
  | [] => .run flags
  | argument :: rest =>
    match Argument.ofText argument with
    | .endOfFlags => if rest = [] then .run flags else .rejected
    | .plain => .rejected
    | .short letter =>
      if letter = 'h' then .help
      else if letter = 'V' then .version
      else .rejected
    | .long name (some value) =>
      match flags.set? name value with
      | some set => readArguments set rest
      | none => .rejected
    | .long name none =>
      if name = "help" then .help
      else if name = "version" then .version
      else if name = "debug" then
        if flags.debug then .rejected else readArguments { flags with debug := true } rest
      else
        match rest with
        | [] => .rejected
        | value :: rest =>
          match Argument.ofText value with
          | .plain =>
            match flags.set? name value with
            | some set => readArguments set rest
            | none => .rejected
          | _ => .rejected

def Request.ofArguments (arguments : List String) : Request := readArguments {} arguments

namespace Flags

/-- The settings that flags leave after they have changed those of a file or the defaults: the
delimiter is decoded, then checked, and an input must be named. -/
def resolve (flags : Flags) (base : Settings) : Except SettingsError Settings := do
  let named : Settings :=
    { base with
      input? := flags.input?.or base.input?
      filter? := flags.filter?.or base.filter?
      groupBy := flags.groupBy?.elim base.groupBy Text.listItems
      aggregations := flags.aggregations?.elim base.aggregations Text.listItems
      topCount := flags.topCount?.getD base.topCount
      metric := flags.metric?.getD base.metric }
  let delimiter ← flags.delimiter?.elim (.ok base.delimiter) Settings.parseDelimiter
  let settings :=
    { named with delimiter := delimiter, hasHeader := flags.header?.getD base.hasHeader }
  let _ ← settings.delimiterByte
  let _ ← settings.inputPath
  return settings

end Flags

end Rollup.Cli
