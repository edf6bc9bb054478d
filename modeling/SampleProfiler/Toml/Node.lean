import SampleProfiler.Datum

/-!
# `SampleProfiler.Toml.Node` — the tree that a TOML document describes

A document is a tree of tables. Three kinds of statement build it: a key with a value, a table header and
the header of a repeated table. Whether a table may be opened again depends on how it came to be, so every
table keeps its `Origin`.

## Contents
- **`Node`**, **`Table`** and **`Origin`**.
- **`Table.visit`** — walks down a path, making tables that are not there, and applies a function at its
  end. Walking is refused through a value, through an inline table, and, for the path of a dotted key,
  through a table that has a header of its own. `Table.update` is the same without a finding.
- **`Table.assign`** — puts a value under a dotted key; no key is ever assigned twice.
- **`Node.datum`** — the untyped value of a node.
-/

namespace SampleProfiler.Toml

/-- How a table came to be: by a header of its own (as the root and the elements of repeated tables do), by
    a longer header, by a dotted key, or as a value between braces. -/
inductive Origin where
  | stated
  | implied
  | dotted
  | inline
deriving DecidableEq

/-- A value, a table, or a repeated table with its elements in order. -/
inductive Node where
  | truth (value : Bool)
  | integer (value : Int)
  | real (value : Float)
  | text (value : String)
  | moment (text : String)
  | list (elements : List Node)
  | table (origin : Origin) (entries : List (String × Node))
  | tables (elements : List (List (String × Node)))

/-- The entries of a table in the order in which they were made. -/
abbrev Table := List (String × Node)

/-! ## Walking and assigning -/

namespace Table

/-- The node under a key. -/
def find? (t : Table) (key : String) : Option Node :=
  t.lookup key

/-- The table with the node under `key` replaced; its place among the entries stays. -/
def replace (t : Table) (key : String) (node : Node) : Table :=
  t.map fun entry => if entry.1 = key then (key, node) else entry

/-- The table without the entry under `key`. -/
def erase (t : Table) (key : String) : Table :=
  t.filter fun entry => entry.1 ≠ key

/-- Walks down `path` and applies `act` to the table at its end, given how that table came to be; gives
    back what `act` found there and the whole table after it. Tables that are not there yet are made on the
    way, as `dotted` ones for the path of a dotted key and as `implied` ones for that of a header. The last
    element of a repeated table stands for the whole. -/
def visit {α : Type} (forKey : Bool) (act : Origin → Table → Option (α × Table)) :
    List String → Origin → Table → Option (α × Table)
  | [], origin, t => act origin t
  | key :: path, _, t =>
    match t.find? key with
    | none =>
      let origin := if forKey then .dotted else .implied
      (visit forKey act path origin []).map fun (found, child) =>
        (found, t ++ [(key, .table origin child)])
    | some (.table origin child) =>
      if origin = .inline ∨ (forKey ∧ origin = .stated) then none
      else
        (visit forKey act path origin child).map fun (found, child) =>
          (found, t.replace key (.table origin child))
    | some (.tables elements) =>
      match elements.getLast? with
      | none => none
      | some child =>
        (visit forKey act path .stated child).map fun (found, child) =>
          (found, t.replace key (.tables (elements.dropLast ++ [child])))
    | some _ => none

/-- Changes the table at the end of a path. -/
def update (t : Table) (forKey : Bool) (act : Origin → Table → Option Table) (path : List String) :
    Option Table :=
  (visit forKey (fun origin t => (act origin t).map fun t => ((), t)) path .stated t).map Prod.snd

/-- Puts a value under the dotted key `path.key`. The table at the end of a path has to have been made by
    dotted keys, and the key must be new in it. -/
def assign (path : List String) (key : String) (node : Node) (t : Table) : Option Table :=
  t.update true
    (fun origin t =>
      if (path ≠ [] ∧ origin ≠ .dotted) ∨ (t.find? key).isSome then none else some (t ++ [(key, node)]))
    path

end Table

/-! ## The untyped value of a node -/

mutual

/-- The untyped value of a node. A date or a time is a map of one entry, its text. -/
def Node.datum : Node → Datum
  | .truth b => .truth b
  | .integer n => .integer n
  | .real x => .real x
  | .text s => .text s
  | .moment s => .map [("datetime", .text s)]
  | .list elements => .list (elementData elements)
  | .table _ entries => .map (entryData entries)
  | .tables elements => .list (tableData elements)

/-- The untyped values of the elements of a list. -/
def elementData : List Node → List Datum
  | [] => []
  | node :: rest => node.datum :: elementData rest

/-- The untyped values of the entries of a table. -/
def entryData : List (String × Node) → List (String × Datum)
  | [] => []
  | (key, node) :: rest => (key, node.datum) :: entryData rest

/-- The untyped values of the elements of a repeated table. -/
def tableData : List (List (String × Node)) → List Datum
  | [] => []
  | entries :: rest => .map (entryData entries) :: tableData rest

end

end SampleProfiler.Toml
