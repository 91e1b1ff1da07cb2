import Rollup.Cli.Command

/-! The program: carries out the command's task on the files of the system. -/

namespace Rollup.Main

open Cli

def causeOf (error : IO.Error) : String :=
  match error with
  | .noFileOrDirectory _ code details => numbered code details
  | .inappropriateType _ code details => numbered code details
  | .permissionDenied _ code details => numbered code details
  | .invalidArgument _ code details => numbered code details
  | .alreadyExists _ code details => numbered code details
  | .resourceExhausted _ code details => numbered code details
  | .noSuchThing _ code details => numbered code details
  | .otherError code details => numbered code details
  | .hardwareFault code details => numbered code details
  | .resourceBusy code details => numbered code details
  | .unsupportedOperation code details => numbered code details
  | other => toString other
where
  numbered (code : UInt32) (details : String) : String :=
    details ++ " (os error " ++ Decimal.natural code.toNat ++ ")"

def readFile (path : String) : IO Reading := do
  try
    let bytes ← IO.FS.readBinFile path
    return .content (Table.Source.ofBytes bytes.data.toList)
  catch error =>
    let cause := causeOf error
    return if cause = isDirectory then .directory else .failure cause

def writeFile (path text : String) : IO (Option String) := do
  try
    IO.FS.writeFile path text
    return none
  catch error => return some (causeOf error)

def perform : Task → IO UInt32
  | .stop code error? => do
    if let some error := error? then IO.eprintln error
    return UInt32.ofNat code
  | .print text next => do
    IO.print text
    perform next
  | .read path next => do
    let reading ← readFile path
    perform (next reading)
  | .write path text next => do
    let failure? ← writeFile path text
    perform (next failure?)

end Rollup.Main

def main (arguments : List String) : IO UInt32 :=
  Rollup.Main.perform (Rollup.Cli.command arguments)
