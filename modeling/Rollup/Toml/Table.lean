import Rollup.Named
import Rollup.Toml.Scalar

/-! The values of a settings file and the tables that its lines build.  A table remembers how it
came about: by a header of its own, on the way to a deeper header, by a dotted key, or between
braces.  That decides what may still be added: a table between braces is complete, a header may
name a table once, and a dotted key may only enter tables that dotted keys made or that no
header has named yet. -/

namespace Rollup.Toml

inductive Origin where
  | header
  | implied
  | dotted
  | braces
  deriving DecidableEq, Repr

/-- A value: several tables under one name stand in a list of their own kind. -/
inductive Value where
  | text (value : String)
  | scalar (value : Scalar)
  | list (items : List Value)
  | table (origin : Origin) (fields : List (String × Value))
  | tables (items : List (List (String × Value)))

abbrev Fields := List (String × Value)

structure Table where
  origin : Origin
  fields : Fields

def Table.find? (table : Table) (name : String) : Option Value := table.fields.lookup name

def Table.with (table : Table) (name : String) (value : Value) : Table :=
  { table with fields := Named.put name value table.fields }

/-- The way in which a path is followed: by a header or by a dotted key. -/
inductive Way where
  | header
  | dotted
  deriving DecidableEq, Repr

def Way.fresh : Way → Origin
  | .header => .implied
  | .dotted => .dotted

def Way.mayEnter (way : Way) (origin : Origin) : Bool :=
  match way, origin with
  | _, .braces => false
  | .dotted, .header => false
  | _, _ => true

/-- Changes the table at the end of a path, making the tables on the way that are not there.  In
a list of tables the last one is meant. -/
def Table.within (way : Way) (change : Table → Option Table) :
    List String → Table → Option Table
  | [], table => change table
  | name :: path, table =>
    match table.find? name with
    | none => do
      let child ← within way change path ⟨way.fresh, []⟩
      return table.with name (.table child.origin child.fields)
    | some (.table origin fields) =>
      if way.mayEnter origin then do
        let child ← within way change path ⟨origin, fields⟩
        return table.with name (.table child.origin child.fields)
      else none
    | some (.tables items) =>
      match items.getLast? with
      | some fields => do
        let child ← within way change path ⟨.header, fields⟩
        return table.with name (.tables (items.dropLast ++ [child.fields]))
      | none => none
    | some _ => none

/-- Adds a value under a dotted key.  A plain key goes into a table that dotted keys did not
make, and a dotted one into a table that they did. -/
def Table.add (path : List String) (name : String) (value : Value) (table : Table) :
    Option Table :=
  table.within .dotted
    (fun inner =>
      if (inner.origin = .dotted) = (path = []) then none
      else if (inner.find? name).isSome then none
      else some (inner.with name value))
    path

def Table.openTable (path : List String) (name : String) (root : Table) : Option Table :=
  root.within .header
    (fun parent =>
      match parent.find? name with
      | none => some (parent.with name (.table .header []))
      | some (.table .implied fields) => some (parent.with name (.table .header fields))
      | some _ => none)
    path

def Table.openNext (path : List String) (name : String) (root : Table) : Option Table :=
  root.within .header
    (fun parent =>
      match parent.find? name with
      | none => some (parent.with name (.tables [[]]))
      | some (.tables items) => some (parent.with name (.tables (items ++ [[]])))
      | some _ => none)
    path

end Rollup.Toml
