import Rollup.Table.Source

/-! What a program asks of its surroundings, step by step: to print a text, to read a file, or to
write one, and at last to stop with an exit code and perhaps an error text.  What follows a
reading or a writing depends on its answer. -/

namespace Rollup.Cli

inductive Reading where
  | content (source : Table.Source)
  | directory
  | failure (cause : String)

inductive Task where
  | stop (code : Nat) (error? : Option String)
  | print (text : String) (next : Task)
  | read (path : String) (next : Reading → Task)
  | write (path text : String) (next : Option String → Task)

def isDirectory : String := "Is a directory (os error 21)"

/-- All bytes of a file, or the first cause why there are none. -/
def bytesOf : Table.Source → Except String (List UInt8)
  | [] => .ok []
  | .bytes chunk :: rest => (bytesOf rest).map (chunk ++ ·)
  | .interruption :: rest => bytesOf rest
  | .failure cause :: _ => .error cause

theorem bytesOf_ofBytes (bytes : List UInt8) :
    bytesOf (Table.Source.ofBytes bytes) = .ok bytes := by
  simp [bytesOf, Table.Source.ofBytes, Except.map]

def Reading.bytes : Reading → Except String (List UInt8)
  | .content source => bytesOf source
  | .directory => .error isDirectory
  | .failure cause => .error cause

end Rollup.Cli
