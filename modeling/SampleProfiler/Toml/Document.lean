import SampleProfiler.Toml.Number

/-!
# `SampleProfiler.Toml.Document` — reading TOML 1.0

A document is read in two stages: its text into a list of statements, and the statements into the root
table. Nothing of a document is used unless all of it is good.

## Contents
- **Values.** `value?`; arrays and inline tables may be nested below the nesting limit.
- **Statements.** `Statement` and `statements?`.
- **The root table.** `Builder`, one step `Builder.add?` per statement, and `Table.ofStatements?`.
- **`parse?`** — the root table of a text, whose leading byte order mark is skipped.
-/

namespace SampleProfiler.Toml

/-! ## Values -/

/-- The elements of an array up to its closing bracket. -/
def elements? (element : Reader Node) : Nat → Reader (List Node)
  | 0, _ => none
  | fuel + 1, cs =>
    match trivia false cs with
    | ']' :: rest => some ([], rest)
    | cs =>
      match element cs with
      | none => none
      | some (node, rest) =>
        match trivia false rest with
        | ',' :: rest => (elements? element fuel rest).map fun (nodes, rest) => (node :: nodes, rest)
        | ']' :: rest => some ([node], rest)
        | _ => none

/-- The entries of an inline table up to its closing brace, added to `t`. -/
def inlineEntries? (element : Reader Node) : Nat → Table → Reader Table
  | 0, _, _ => none
  | fuel + 1, t, cs =>
    match key? cs with
    | some ((path, key), '=' :: rest) =>
      match element (blank rest) with
      | none => none
      | some (node, rest) =>
        match t.assign path key node with
        | none => none
        | some t =>
          match blank rest with
          | ',' :: rest => inlineEntries? element fuel t rest
          | '\x7d' :: rest => some (t, rest)
          | _ => none
    | _ => none

/-- A value with at most `depth` levels of arrays and inline tables in it. -/
def value? : Nat → Reader Node
  | depth, cs =>
    match cs with
    | '[' :: rest =>
      match depth with
      | 0 => none
      | depth + 1 =>
        (elements? (value? depth) (rest.length + 1) rest).map fun (nodes, rest) => (.list nodes, rest)
    | '\x7b' :: rest =>
      match depth with
      | 0 => none
      | depth + 1 =>
        match blank rest with
        | '\x7d' :: rest => some (.table .inline [], rest)
        | rest =>
          (inlineEntries? (value? depth) (rest.length + 1) [] rest).map fun (t, rest) =>
            (.table .inline t, rest)
    | 't' :: 'r' :: 'u' :: 'e' :: rest => some (.truth true, rest)
    | 'f' :: 'a' :: 'l' :: 's' :: 'e' :: rest => some (.truth false, rest)
    | c :: _ =>
      if c == '"' || c == '\'' then (string? cs).map fun (s, rest) => (.text s, rest)
      else
        match moment? cs with
        | some result => some result
        | none => number? cs
    | [] => none

/-! ## Statements -/

/-- A statement of a document. The last part of its key stands apart from the path before it. -/
inductive Statement where
  /-- A key with a value. -/
  | assign (path : List String) (key : String) (value : Node)
  /-- The header of a table. -/
  | table (path : List String) (key : String)
  /-- The header of one element of a repeated table. -/
  | element (path : List String) (key : String)

/-- One statement, up to the end of its line. -/
def statement? : Reader Statement
  | '[' :: '[' :: rest =>
    match key? rest with
    | some ((path, key), ']' :: ']' :: rest) => (lineEnd? rest).map fun rest => (.element path key, rest)
    | _ => none
  | '[' :: rest =>
    match key? rest with
    | some ((path, key), ']' :: rest) => (lineEnd? rest).map fun rest => (.table path key, rest)
    | _ => none
  | cs =>
    match key? cs with
    | some ((path, key), '=' :: rest) =>
      match value? (nestingLimit - 1) (blank rest) with
      | some (node, rest) => (lineEnd? rest).map fun rest => (.assign path key node, rest)
      | none => none
    | _ => none

/-- All statements of a text. Every round takes at least one character, so the length of the text is fuel
    enough. -/
def statements? : Nat → List Char → Option (List Statement)
  | 0, _ => none
  | fuel + 1, cs =>
    match blank cs with
    | [] => some []
    | '\n' :: rest => statements? fuel rest
    | '\r' :: '\n' :: rest => statements? fuel rest
    | '#' :: rest => (lineEnd? ('#' :: rest)).bind (statements? fuel)
    | cs =>
      match statement? cs with
      | none => none
      | some (s, rest) => (statements? fuel rest).map (s :: ·)

/-! ## The root table -/

/-- Where the table that is being filled will go. -/
inductive Target where
  | root
  | table (path : List String) (key : String)
  | element (path : List String) (key : String)

/-- The root table so far, and the table under the last header, which is being filled apart from it. -/
structure Builder where
  root : Table
  target : Target
  current : Table

namespace Builder

/-- Before the first statement. -/
def start : Builder := ⟨[], .root, []⟩

/-- Puts the table that was being filled into its place: at the end of its parent, or as the last element
    of a repeated table. -/
def settle? (b : Builder) : Option Table :=
  match b.target with
  | .root => some b.current
  | .table path key =>
    b.root.update false (fun _ parent => some (parent ++ [(key, .table .stated b.current)])) path
  | .element path key =>
    b.root.update false
      (fun _ parent =>
        match parent.find? key with
        | some (.tables elements) => some (parent.replace key (.tables (elements ++ [b.current])))
        | _ => none)
      path

/-- Opens the table of a header: takes the entries that longer headers implied for it out of its parent.
    Any other table or value under the same name makes the header a duplicate. -/
def openTable? (root : Table) (path : List String) (key : String) : Option (Table × Table) :=
  root.visit false
    (fun _ parent =>
      match parent.find? key with
      | none => some ([], parent)
      | some (.table .implied entries) => some (entries, parent.erase key)
      | some _ => none)
    path .stated

/-- Opens one more element of a repeated table, whose place is that of its first element. -/
def openElement? (root : Table) (path : List String) (key : String) : Option Table :=
  root.update false
    (fun _ parent =>
      match parent.find? key with
      | none => some (parent ++ [(key, .tables [])])
      | some (.tables _) => some parent
      | some _ => none)
    path

/-- Adds one statement. -/
def add? (b : Builder) : Statement → Option Builder
  | .assign path key node =>
    (b.current.assign path key node).map fun current => { b with current := current }
  | .table path key =>
    b.settle?.bind fun root =>
      (openTable? root path key).map fun (entries, root) => ⟨root, .table path key, entries⟩
  | .element path key =>
    b.settle?.bind fun root =>
      (openElement? root path key).map fun root => ⟨root, .element path key, []⟩

end Builder

/-- The root table that the statements describe, if they do not contradict each other. -/
def Table.ofStatements? (statements : List Statement) : Option Table :=
  (statements.foldlM Builder.add? Builder.start).bind Builder.settle?

/-- The root table of a document. -/
def parse? (text : String) : Option Table :=
  let cs :=
    match text.toList with
    | '\ufeff' :: rest => rest
    | cs => cs
  (statements? (cs.length + 1) cs).bind Table.ofStatements?

end SampleProfiler.Toml
