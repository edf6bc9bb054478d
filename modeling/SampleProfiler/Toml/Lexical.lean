/-!
# `SampleProfiler.Toml.Lexical` — blanks, comments, strings and keys

The readers of this module take a list of characters and give back what they read together with the rest;
`none` means that the text is no TOML. Strings come in four notations, between double or single quotes and
on one line or on several; keys are bare words or one-line strings, joined by dots.

## Contents
- **Blanks and comments.** `blank`, `comment`, `lineEnd?`, and `trivia`, which crosses lines.
- **Strings.** `basic?`, `basicBlock?`, `literal?`, `literalBlock?`, and `string?`, which tells them apart.
- **Keys.** `simpleKey?` and `key?`; a key of eighty parts or more is refused.
-/

namespace SampleProfiler.Toml

/-- A reader of some prefix of a text. -/
abbrev Reader (α : Type) := List Char → Option (α × List Char)

/-! ## Blanks and comments -/

/-- The two characters that stand between words on a line. -/
def isBlank (c : Char) : Bool :=
  c == ' ' || c == '\t'

/-- True for the characters that a comment may hold: anything but controls. -/
def isVisible (c : Char) : Bool :=
  c == '\t' || (0x20 ≤ c.toNat && c.toNat != 0x7f)

/-- What follows the blanks at the start. -/
def blank (cs : List Char) : List Char :=
  cs.dropWhile isBlank

/-- What follows the comment at the start, if there is one. -/
def comment (cs : List Char) : List Char :=
  match cs with
  | '#' :: rest => rest.dropWhile isVisible
  | cs => cs

/-- What follows the end of the line: blanks, perhaps a comment, and a line break or the end of the text. -/
def lineEnd? (cs : List Char) : Option (List Char) :=
  match comment (blank cs) with
  | [] => some []
  | '\n' :: rest => some rest
  | '\r' :: '\n' :: rest => some rest
  | _ => none

/-- What follows any blanks, line breaks and comments; `inside` says that a comment is open. -/
def trivia (inside : Bool) : List Char → List Char
  | [] => []
  | '\n' :: rest => trivia false rest
  | '\r' :: '\n' :: rest => trivia false rest
  | c :: rest =>
    if inside then
      if isVisible c then trivia true rest else c :: rest
    else if isBlank c then trivia false rest
    else if c == '#' then trivia true rest
    else c :: rest

/-! ## Strings -/

/-- The value of a hexadecimal digit. -/
def hexValue (c : Char) : Nat :=
  if c.isDigit then c.toNat - '0'.toNat
  else if 'a' ≤ c && c ≤ 'f' then c.toNat - 'a'.toNat + 10
  else c.toNat - 'A'.toNat + 10

/-- True for a hexadecimal digit of either case. -/
def isHexDigit (c : Char) : Bool :=
  c.isDigit || ('a' ≤ c && c ≤ 'f') || ('A' ≤ c && c ≤ 'F')

/-- The character with the code point that the digits spell; surrogates and numbers beyond the last code
    point are no characters. -/
def codePoint? (ds : List Char) : Option Char :=
  let n := ds.foldl (fun n c => 16 * n + hexValue c) 0
  if ds.all isHexDigit && (n < 0xd800 || (0xdfff < n && n ≤ 0x10ffff)) then some (Char.ofNat n) else none

/-- The character that a letter after a backslash stands for. -/
def escape? : Char → Option Char
  | 'b' => some '\x08'
  | 't' => some '\t'
  | 'n' => some '\n'
  | 'f' => some '\x0c'
  | 'r' => some '\r'
  | '"' => some '"'
  | '\\' => some '\\'
  | _ => none

/-- The rest of a one-line string with escapes, after its opening quote. -/
def basic? (read : List Char) : Reader String
  | [] => none
  | '"' :: rest => some (String.ofList read.reverse, rest)
  | '\\' :: 'u' :: a :: b :: c :: d :: rest =>
    match codePoint? [a, b, c, d] with
    | some x => basic? (x :: read) rest
    | none => none
  | '\\' :: 'U' :: a :: b :: c :: d :: e :: f :: g :: h :: rest =>
    match codePoint? [a, b, c, d, e, f, g, h] with
    | some x => basic? (x :: read) rest
    | none => none
  | '\\' :: c :: rest =>
    match escape? c with
    | some x => basic? (x :: read) rest
    | none => none
  | c :: rest => if isVisible c then basic? (c :: read) rest else none

/-- What the reader of a block is doing: reading text, or skipping what a backslash at the end of a line
    takes with it, up to the line break or after it. -/
inductive Skip where
  | nothing
  | toBreak
  | blanks
deriving DecidableEq

/-- The rest of a block with escapes, after its opening quotes. Up to two quotes may stand before the
    closing ones, and a backslash at the end of a line joins it to the next text. -/
def basicBlock? (skip : Skip) (read : List Char) : Reader String
  | [] => none
  | '\n' :: rest =>
    if skip = .nothing then basicBlock? .nothing ('\n' :: read) rest else basicBlock? .blanks read rest
  | '\r' :: '\n' :: rest =>
    if skip = .nothing then basicBlock? .nothing ('\n' :: read) rest else basicBlock? .blanks read rest
  | ' ' :: rest =>
    if skip = .nothing then basicBlock? .nothing (' ' :: read) rest else basicBlock? skip read rest
  | '\t' :: rest =>
    if skip = .nothing then basicBlock? .nothing ('\t' :: read) rest else basicBlock? skip read rest
  | c :: rest =>
    if skip = .toBreak then none
    else
      match c, rest with
      | '"', '"' :: '"' :: '"' :: '"' :: rest => some (String.ofList ('"' :: '"' :: read).reverse, rest)
      | '"', '"' :: '"' :: '"' :: rest => some (String.ofList ('"' :: read).reverse, rest)
      | '"', '"' :: '"' :: rest => some (String.ofList read.reverse, rest)
      | '\\', 'u' :: a :: b :: c :: d :: rest =>
        match codePoint? [a, b, c, d] with
        | some x => basicBlock? .nothing (x :: read) rest
        | none => none
      | '\\', 'U' :: a :: b :: c :: d :: e :: f :: g :: h :: rest =>
        match codePoint? [a, b, c, d, e, f, g, h] with
        | some x => basicBlock? .nothing (x :: read) rest
        | none => none
      | '\\', '\n' :: rest => basicBlock? .blanks read rest
      | '\\', '\r' :: '\n' :: rest => basicBlock? .blanks read rest
      | '\\', c :: rest =>
        if isBlank c then basicBlock? .toBreak read rest
        else
          match escape? c with
          | some x => basicBlock? .nothing (x :: read) rest
          | none => none
      | c, rest => if isVisible c then basicBlock? .nothing (c :: read) rest else none

/-- The rest of a one-line string without escapes, after its opening quote. -/
def literal? (read : List Char) : Reader String
  | [] => none
  | '\'' :: rest => some (String.ofList read.reverse, rest)
  | c :: rest => if isVisible c then literal? (c :: read) rest else none

/-- The rest of a block without escapes, after its opening quotes. -/
def literalBlock? (read : List Char) : Reader String
  | [] => none
  | '\'' :: '\'' :: '\'' :: '\'' :: '\'' :: rest => some (String.ofList ('\'' :: '\'' :: read).reverse, rest)
  | '\'' :: '\'' :: '\'' :: '\'' :: rest => some (String.ofList ('\'' :: read).reverse, rest)
  | '\'' :: '\'' :: '\'' :: rest => some (String.ofList read.reverse, rest)
  | '\n' :: rest => literalBlock? ('\n' :: read) rest
  | '\r' :: '\n' :: rest => literalBlock? ('\n' :: read) rest
  | c :: rest => if isVisible c then literalBlock? (c :: read) rest else none

/-- The text after the line break that may open a block. -/
def afterBreak : List Char → List Char
  | '\n' :: rest => rest
  | '\r' :: '\n' :: rest => rest
  | cs => cs

/-- A string in any of the four notations. -/
def string? : Reader String
  | '"' :: '"' :: '"' :: rest => basicBlock? .nothing [] (afterBreak rest)
  | '"' :: rest => basic? [] rest
  | '\'' :: '\'' :: '\'' :: rest => literalBlock? [] (afterBreak rest)
  | '\'' :: rest => literal? [] rest
  | _ => none

/-! ## Keys -/

/-- True for the characters of a bare key. -/
def isBare (c : Char) : Bool :=
  c.isAlphanum || c == '_' || c == '-'

/-- A bare key or a one-line string. -/
def simpleKey? : Reader String
  | '"' :: rest => basic? [] rest
  | '\'' :: rest => literal? [] rest
  | cs =>
    let word := cs.takeWhile isBare
    if word.isEmpty then none else some (String.ofList word, cs.dropWhile isBare)

/-- Simple keys joined by dots, with blanks around each; at most `fuel` of them. -/
def keyParts? : Nat → Reader (List String)
  | 0, _ => none
  | fuel + 1, cs =>
    match simpleKey? (blank cs) with
    | none => none
    | some (part, rest) =>
      match blank rest with
      | '.' :: rest => (keyParts? fuel rest).map fun (parts, rest) => (part :: parts, rest)
      | rest => some ([part], rest)

/-- The number of parts from which on a key is refused, and of nested values likewise. -/
def nestingLimit : Nat := 80

/-- A dotted key: the path before its last part, and that part. -/
def key? : Reader (List String × String) := fun cs =>
  match keyParts? (nestingLimit - 1) cs with
  | none => none
  | some (parts, rest) => parts.getLast?.map fun last => ((parts.dropLast, last), rest)

end SampleProfiler.Toml
