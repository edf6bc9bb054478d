import SampleProfiler.Abort

/-!
# `SampleProfiler.Toml.Printer` — writing TOML

A flat record is written as one `key = value` line per field. Integers are decimal and have to fit in 64
bits with a sign. A text is written in the plainest of the four string notations that can hold it: between
double quotes if nothing in it needs an escape, else literally between single quotes, else as a block.

## Contents
- **`Style`** — the four string notations, and `Style.of`, the choice among them.
- **`text`**, the text in that notation; counting its quotes can abort.
- **`Plain`**, the values of a record, and **`document`**, the text of a whole record.
-/

namespace SampleProfiler.Toml

/-! ## Texts -/

/-- The longest run of the character `q` in a text. -/
def longestRun (q : Char) (cs : List Char) : Nat :=
  (cs.foldl (fun (best, run) c => if c == q then (max best (run + 1), run + 1) else (best, 0)) (0, 0)).1

/-- True for a control character that only an escape can express. -/
def isControl (c : Char) : Bool :=
  (c.toNat < 0x20 && c != '\t' && c != '\n') || c.toNat == 0x7f

/-- The four ways to write a text: between quotes or as a block that may span lines, with or without
    escapes. -/
inductive Style where
  | basic
  | literal
  | basicBlock
  | literalBlock
deriving DecidableEq

/-- The plainest style that can hold the text: the first of the four that needs no escape, or else one with
    escapes, which is a block if the text spans lines. -/
def Style.of (cs : List Char) : Style :=
  let lines := cs.contains '\n'
  let controls := cs.any isControl
  let backslash := cs.contains '\\'
  let doubles := longestRun '"' cs
  let singles := longestRun '\'' cs
  if !controls && !backslash && doubles == 0 && !lines then .basic
  else if !controls && singles == 0 && !lines then .literal
  else if !controls && !backslash && doubles ≤ 2 then .basicBlock
  else if !controls && singles ≤ 2 then .literalBlock
  else if lines then .basicBlock
  else .basic

/-- What stands at both ends of a text. -/
def Style.delimiter : Style → String
  | basic => "\""
  | literal => "'"
  | basicBlock => "\"\"\""
  | literalBlock => "'''"

/-- The number of double quotes in a row that need no escape. -/
def Style.bareQuotes : Style → Nat
  | basicBlock => 2
  | _ => 0

/-- A code point in four hexadecimal digits. -/
def fourHex (n : Nat) : List Char :=
  let ds := (Nat.toDigits 16 n).map Char.toUpper
  List.replicate (4 - ds.length) '0' ++ ds

/-- The characters of a text with escapes; `run` counts the double quotes just before. -/
def escaped (style : Style) (run : Nat) : List Char → List Char
  | [] => []
  | c :: rest =>
    match c with
    | '"' =>
      if run + 1 ≤ style.bareQuotes then '"' :: escaped style (run + 1) rest
      else '\\' :: '"' :: escaped style 0 rest
    | '\x08' => '\\' :: 'b' :: escaped style 0 rest
    | '\t' => '\\' :: 't' :: escaped style 0 rest
    | '\x0c' => '\\' :: 'f' :: escaped style 0 rest
    | '\r' => '\\' :: 'r' :: escaped style 0 rest
    | '\\' => '\\' :: '\\' :: escaped style 0 rest
    | '\n' =>
      if style = .basicBlock then '\n' :: escaped style 0 rest else '\\' :: 'n' :: escaped style 0 rest
    | c =>
      if isControl c then '\\' :: 'u' :: (fourHex c.toNat ++ escaped style 0 rest)
      else c :: escaped style 0 rest

/-- The longest run of quotes that the choice of a style can count. -/
def runLimit : Nat := 255

/-- A text in its plainest style. A text that spans lines starts on a line of its own. -/
def styled (cs : List Char) : String :=
  let style := Style.of cs
  let body :=
    match style with
    | .basic | .basicBlock => escaped style 0 cs
    | .literal | .literalBlock => cs
  let opening := if cs.contains '\n' then "\n" else ""
  style.delimiter ++ opening ++ String.ofList body ++ style.delimiter

/-- A text in its plainest style, unless a run of quotes in it is too long to be counted. -/
def text (s : String) : Except Abort String :=
  let cs := s.toList
  if runLimit < longestRun '"' cs ∨ runLimit < longestRun '\'' cs then .error .countOverflow
  else .ok (styled cs)

/-! ## Integers and records -/

/-- A value of a flat record. -/
inductive Plain where
  | text (value : String)
  | integer (value : Int)

/-- True if a value has a place in a document: an integer has to fit in 64 bits with a sign. -/
def Plain.fits : Plain → Bool
  | .text _ => true
  | .integer n => -9223372036854775808 ≤ n && n ≤ 9223372036854775807

/-- The text of a value. -/
def Plain.print : Plain → Except Abort String
  | .text s => Toml.text s
  | .integer n => .ok (toString n)

/-- Why a record is not written. -/
inductive WriteFault where
  /-- One of its integers does not fit. -/
  | outOfRange
  | aborted (cause : Abort)
deriving DecidableEq

/-- One `key = value` line per field. -/
def lines : List (String × Plain) → Except Abort String
  | [] => .ok ""
  | (key, value) :: rest =>
    value.print.bind fun v => (lines rest).map fun others => key ++ " = " ++ v ++ "\n" ++ others

/-- The document of a record. All values are checked before the first one is written. -/
def document (fields : List (String × Plain)) : Except WriteFault String :=
  if fields.all fun (_, value) => value.fits then (lines fields).mapError .aborted
  else .error .outOfRange

end SampleProfiler.Toml
