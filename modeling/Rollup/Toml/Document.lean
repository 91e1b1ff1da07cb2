import Rollup.Toml.Quoted
import Rollup.Toml.Table

/-! Whole settings files.  A file is a sequence of lines: a key with its value, a header in one
or two pairs of brackets, or nothing, each with an optional comment.  Lists and tables between
braces may span lines, hold comments and end in a comma; only the parts of a key stay on one
line.  Every call of the reader of values spends one unit of fuel, which the length of the file
bounds, and both nesting and the number of parts in a key are limited. -/

namespace Rollup.Toml

/-- Lists and tables between braces may be nested this deep, and a key may have so many parts. -/
def nestingLimit : Nat := 80

def skipSpaces (cs : List Char) : List Char := cs.dropWhile isSpace

def skipComment? : List Char → Option (List Char)
  | '#' :: rest =>
    let after := rest.dropWhile isPlain
    if after = [] ∨ (afterBreak? after).isSome then some after else none
  | cs => some cs

def skipTrivia? : Nat → List Char → Option (List Char)
  | 0, _ => none
  | fuel + 1, cs => do
    let rest ← skipComment? (skipSpaces cs)
    match afterBreak? rest with
    | some next => skipTrivia? fuel next
    | none => return rest

def isBareKeyChar (c : Char) : Bool := c.isAlphanum || c = '_' || c = '-'

def keyPart? (cs : List Char) : Option (String × List Char) :=
  match quotedLine? cs with
  | some (text, rest) => some (String.ofList text, rest)
  | none =>
    let bare := cs.takeWhile isBareKeyChar
    if bare = [] then none else some (String.ofList bare, cs.dropWhile isBareKeyChar)

def keyWithin? : Nat → List Char → Option (List String × String × List Char)
  | 0, _ => none
  | parts + 1, cs => do
    let (part, rest) ← keyPart? (skipSpaces cs)
    match skipSpaces rest with
    | '.' :: more =>
      let (path, name, after) ← keyWithin? parts more
      return (part :: path, name, after)
    | after => return ([], part, after)

def key? (cs : List Char) : Option (List String × String × List Char) :=
  keyWithin? nestingLimit cs

mutual

def value? : Nat → Nat → List Char → Option (Value × List Char)
  | 0, _, _ => none
  | fuel + 1, depth, cs =>
    match cs with
    | '[' :: rest =>
      if depth < nestingLimit then do
        let inside ← skipTrivia? (rest.length + 1) rest
        let (items, after) ← items? fuel (depth + 1) inside
        return (.list items, after)
      else none
    | '\x7b' :: rest =>
      if depth < nestingLimit then do
        let inside ← skipTrivia? (rest.length + 1) rest
        let (table, after) ← entries? fuel (depth + 1) ⟨.braces, []⟩ inside
        return (.table .braces table.fields, after)
      else none
    | _ =>
      match quoted? cs with
      | some (text, rest) => some (.text (String.ofList text), rest)
      | none =>
        let (run, rest) := takeRun cs
        (Scalar.ofText? run).map fun scalar => (.scalar scalar, rest)

def items? : Nat → Nat → List Char → Option (List Value × List Char)
  | 0, _, _ => none
  | fuel + 1, depth, cs =>
    match cs with
    | ']' :: rest => some ([], rest)
    | _ => do
      let (item, rest) ← value? fuel depth cs
      let rest ← skipTrivia? (rest.length + 1) rest
      match rest with
      | ',' :: more =>
        let next ← skipTrivia? (more.length + 1) more
        let (items, after) ← items? fuel depth next
        return (item :: items, after)
      | ']' :: after => return ([item], after)
      | _ => none

def entries? : Nat → Nat → Table → List Char → Option (Table × List Char)
  | 0, _, _, _ => none
  | fuel + 1, depth, table, cs =>
    match cs with
    | '\x7d' :: rest => some (table, rest)
    | _ => do
      let (path, name, rest) ← key? cs
      let rest ← skipTrivia? (rest.length + 1) rest
      match rest with
      | '=' :: rest =>
        let start ← skipTrivia? (rest.length + 1) rest
        let (value, rest) ← value? fuel depth start
        let table ← table.add path name value
        let rest ← skipTrivia? (rest.length + 1) rest
        match rest with
        | ',' :: more =>
          let next ← skipTrivia? (more.length + 1) more
          entries? fuel depth table next
        | '\x7d' :: after => return (table, after)
        | _ => none
      | _ => none

end

/-- The file so far: its tables, and the path of the table that the lines now fill. -/
structure Progress where
  root : Table := ⟨.header, []⟩
  current : List String := []

def endOfLine? (cs : List Char) : Option (List Char) := do
  let rest ← skipComment? (skipSpaces cs)
  if rest = [] then return [] else afterBreak? rest

def header? (progress : Progress) (cs : List Char) : Option (Progress × List Char) :=
  match cs with
  | '[' :: '[' :: rest => do
    let (path, name, rest) ← key? rest
    match rest with
    | ']' :: ']' :: after =>
      let root ← progress.root.openNext path name
      return (⟨root, path ++ [name]⟩, after)
    | _ => none
  | '[' :: rest => do
    let (path, name, rest) ← key? rest
    match rest with
    | ']' :: after =>
      let root ← progress.root.openTable path name
      return (⟨root, path ++ [name]⟩, after)
    | _ => none
  | _ => none

def entry? (progress : Progress) (cs : List Char) : Option (Progress × List Char) := do
  let (path, name, rest) ← key? cs
  match rest with
  | '=' :: rest =>
    let start := skipSpaces rest
    let (value, after) ← value? (2 * start.length + 2) 0 start
    let root ← progress.root.within .header (Table.add path name value) progress.current
    return ({ progress with root := root }, after)
  | _ => none

def lines? : Nat → Progress → List Char → Option Progress
  | 0, _, _ => none
  | fuel + 1, progress, cs => do
    let start ← skipTrivia? (cs.length + 1) cs
    match start with
    | [] => return progress
    | first :: _ =>
      let (next, rest) ← if first = '[' then header? progress start else entry? progress start
      let rest ← endOfLine? rest
      lines? fuel next rest

def byteOrderMark : Char := '\uFEFF'

/-- The fields of a whole file, which may start with a byte order mark. -/
def fields? (text : String) : Option Fields :=
  let cs := text.toList
  let body := if cs.head? = some byteOrderMark then cs.drop 1 else cs
  (lines? (body.length + 1) {} body).map (·.root.fields)

end Rollup.Toml
