import Rollup.Cli.Task
import Rollup.Text.Pieces
import Rollup.Text.Utf8

/-! Files as a value, and what a task does with them.  A file has a path of names, and the
directories are those that files lie in.  Paths lead from the directory that the task runs in, or
from the root. A file beyond that directory has a path that begins with the steps up to it or with
the root; by which names the directory itself is reached is not known, so a path that comes back to
it by name is a path of its own. -/

namespace Rollup.Cli

structure File where
  path : List String
  bytes : List UInt8
  deriving DecidableEq, Repr

structure Directory where
  files : List File

/-- Where a path leads.  A last name that is too long is told apart from one on the way. -/
inductive Place where
  | file (file : File)
  | directory
  | free (path : List String)
  | absent
  | blocked
  | tooLong
  | tooLongAtEnd

namespace Directory

def file? (directory : Directory) (path : List String) : Option File :=
  directory.files.find? (·.path = path)

/-- The first name of a path from the root; no other name has a separator. -/
def root : String := "/"

def isAbove (path : List String) : Bool := path.all (· = "..")

def holds (directory : Directory) (path : List String) : Bool :=
  isAbove path || path == [root] ||
    directory.files.any fun file => path.length < file.path.length && path.isPrefixOf file.path

def parent (path : List String) : List String :=
  if isAbove path then path ++ [".."]
  else if path = [root] then path
  else path.dropLast

def namesOf (path : String) : List String :=
  ((Text.pieces '/' path.toList).map String.ofList).filter (· ≠ "")

def nameLimit : Nat := 255

def isOverlong (name : String) : Bool := nameLimit < name.utf8ByteSize

def pastOverlong (rest : List String) : Place :=
  if rest = [] then .tooLongAtEnd else .tooLong

/-- Follows names from a directory that is there.  A single point stays and two go up. -/
def follow (directory : Directory) (reached : List String) : List String → Place
  | [] => .directory
  | name :: rest =>
    if name = "." then follow directory reached rest
    else if name = ".." then follow directory (parent reached) rest
    else if isOverlong name then pastOverlong rest
    else
      let next := reached ++ [name]
      match directory.file? next with
      | some file => if rest = [] then .file file else .blocked
      | none =>
        if directory.holds next then follow directory next rest
        else if rest = [] then .free next
        else .absent

def startsWithSeparator (path : String) : Bool := path.toList.head? = some '/'

def endsWithSeparator (path : String) : Bool := path.toList.getLast? = some '/'

def pathLimit : Nat := 4096

def locate (directory : Directory) (path : String) : Place :=
  if path = "" then .absent
  else if pathLimit ≤ path.utf8ByteSize then .tooLong
  else directory.follow (if startsWithSeparator path then [root] else []) (namesOf path)

def notFound : String := "No such file or directory (os error 2)"

def notADirectory : String := "Not a directory (os error 20)"

def nameTooLong : String := "File name too long (os error 36)"

def hasNul : String := "file name contained an unexpected NUL byte"

def containsNul (path : String) : Bool := path.toList.any (·.toNat = 0)

def read (directory : Directory) (path : String) : Reading :=
  if containsNul path then .failure hasNul
  else
    match directory.locate path with
    | .file file =>
      if endsWithSeparator path then .failure notADirectory
      else .content (Table.Source.ofBytes file.bytes)
    | .directory => .directory
    | .free _ | .absent => .failure notFound
    | .blocked => .failure notADirectory
    | .tooLong | .tooLongAtEnd => .failure nameTooLong

def put (file : File) : List File → List File
  | [] => [file]
  | first :: rest => if first.path = file.path then file :: rest else first :: put file rest

/-- Writes a file, or tells why that fails. -/
def write (directory : Directory) (path : String) (bytes : List UInt8) :
    Except String Directory :=
  let unlessDirectory (answer : Except String Directory) : Except String Directory :=
    if endsWithSeparator path then .error isDirectory else answer
  let keep (names : List String) : Except String Directory :=
    unlessDirectory (.ok ⟨put ⟨names, bytes⟩ directory.files⟩)
  if containsNul path then .error hasNul
  else
    match directory.locate path with
    | .file file => keep file.path
    | .directory => .error isDirectory
    | .free names => keep names
    | .absent => .error notFound
    | .blocked => .error notADirectory
    | .tooLong => .error nameTooLong
    | .tooLongAtEnd => unlessDirectory (.error nameTooLong)

def isInside (path : List String) : Bool := path.head? ≠ some ".." && path.head? ≠ some root

/-- The files in the directory that are new or changed since an earlier state. -/
def changesSince (before after : Directory) : List File :=
  after.files.filter fun file =>
    isInside file.path && (before.file? file.path).map (·.bytes) ≠ some file.bytes

end Directory

structure Done where
  code : Nat
  error? : Option String
  printed : String
  directory : Directory

def Task.runIn (directory : Directory) (printed : String) : Task → Done
  | .stop code error? => ⟨code, error?, printed, directory⟩
  | .print text next => next.runIn directory (printed ++ text)
  | .read path next => (next (directory.read path)).runIn directory printed
  | .write path text next =>
    match directory.write path (Text.Utf8.encode text) with
    | .ok after => (next none).runIn after printed
    | .error cause => (next (some cause)).runIn directory printed

end Rollup.Cli
