import SampleProfiler.CommandLine.Options

/-!
# `SampleProfiler.CommandLine.Reader` — reading a command line

An option is written in full after two dashes or as a letter after one. Its value follows in the same word,
after an equals sign or right behind the letter, or is the next word. A value that stands in a word of its
own is checked only when the next option arrives or the command line ends, so that an unknown word after it
is reported first.

## Contents
- **Values.** `store`, which reads the value of an option into the options.
- **State.** `State`, `State.enter` (an option with its value), and `State.settle` (the one that waits).
- **Words.** `State.longWord`, `State.shortWord`, `State.word`, and `Options.ofWords`, the whole line.
-/

namespace SampleProfiler.CommandLine

/-! ## Values -/

/-- Reads a whole number for an option. -/
def wholeValue (a : Argument) (value : String) : Except UsageFault Nat :=
  match Decimal.whole? value with
  | .ok n => .ok n
  | .error fault => .error (.invalidValue a value fault.message)

/-- Reads a floating-point number for an option. -/
def realValue (a : Argument) (value : String) : Except UsageFault Float :=
  match Decimal.real? value with
  | .ok x => .ok x
  | .error fault => .error (.invalidValue a value fault.message)

/-- Reads the value of an option into the options. -/
def store (o : Options) (value : String) : (a : Argument) → Except UsageFault Options
  | .threads => (wholeValue .threads value).map fun n => { o with threads := n }
  | .samples => (wholeValue .samples value).map fun n => { o with samples := n }
  | .operations => (wholeValue .operations value).map fun n => { o with operations := n }
  | .errorRate => (realValue .errorRate value).map fun x => { o with errorRate := x }
  | .bufferCapacity =>
    (wholeValue .bufferCapacity value).map fun n =>
      { o with overrides := { o.overrides with capacity := some n } }
  | .maxProfiles =>
    (wholeValue .maxProfiles value).map fun n =>
      { o with overrides := { o.overrides with bound := some n } }
  | .config => if value.isEmpty then .error (.valueMissing .config) else .ok { o with config := some value }
  | .top => (wholeValue .top value).map fun n => { o with top := n }
  | .debug => .ok { o with debug := true }
  | .help => .error .helpWanted
  | .version => .error .versionWanted

/-! ## State -/

/-- The options so far, those that were given, the one that waits with the value it got, and whether only
    plain words may follow. -/
structure State where
  options : Options := {}
  given : List Argument := []
  waiting : Option (Argument × Option String) := none
  plain : Bool := false

namespace State

/-- Enters an option with its value; a switch has the empty value. An option must not be given twice. -/
def enter (s : State) (a : Argument) (value : Option String) : Except UsageFault State :=
  match value with
  | none => .error (.valueMissing a)
  | some value =>
    if s.given.contains a then .error (.repeated a)
    else (store s.options value a).map fun o => { s with options := o, given := a :: s.given }

/-- Enters the option that waits. -/
def settle (s : State) : Except UsageFault State :=
  match s.waiting with
  | none => .ok s
  | some (a, value) => { s with waiting := none }.enter a value

/-- Enters an option after the one that waits. -/
def add (s : State) (a : Argument) (value : String) : Except UsageFault State :=
  s.settle.bind fun s => s.enter a (some value)

/-- Lets an option wait for its value. -/
def await (s : State) (a : Argument) : Except UsageFault State :=
  s.settle.map fun s => { s with waiting := some (a, none) }

/-! ## Words -/

/-- A word after two dashes: a name, perhaps with a value after the first equals sign. -/
def longWord (s : State) (cs : List Char) : Except UsageFault State :=
  let name := String.ofList (cs.takeWhile (· != '='))
  let attached? :=
    match cs.dropWhile (· != '=') with
    | _ :: value => some (String.ofList value)
    | [] => none
  match Argument.ofLong? name, attached? with
  | none, _ => .error (.unknown ("--" ++ name))
  | some a, some value => if a.takesValue then s.add a value else .error (.unexpectedValue a value)
  | some a, none => if a.takesValue then s.await a else s.add a ""

/-- The letters of a word after one dash. The first one that takes a value takes the rest of the word. -/
def shortWord (s : State) : List Char → Except UsageFault State
  | [] => .ok s
  | letter :: rest =>
    match Argument.ofShort? letter with
    | none => .error (.unknown (String.ofList ['-', letter]))
    | some a =>
      if a.takesValue then
        match rest with
        | [] => s.await a
        | '=' :: value => s.add a (String.ofList value)
        | value => s.add a (String.ofList value)
      else (s.add a "").bind fun s => shortWord s rest

/-- A word that is no option: the value of the option that waits for one, or unknown. -/
def value (s : State) (text : String) : Except UsageFault State :=
  match s.waiting with
  | some (a, none) => if s.plain then .error (.unknown text) else .ok { s with waiting := some (a, some text) }
  | _ => .error (.unknown text)

/-- Takes one word. After two dashes alone there are only plain words. -/
def word (s : State) (text : String) : Except UsageFault State :=
  if s.plain then s.value text
  else
    match text.toList with
    | ['-', '-'] => .ok { s with plain := true }
    | '-' :: '-' :: cs => s.longWord cs
    | ['-'] => s.value text
    | '-' :: cs => s.shortWord cs
    | _ => s.value text

end State

/-- Reads a whole command line. -/
def Options.ofWords (words : List String) : Except UsageFault Options :=
  (words.foldlM State.word {}).bind fun s => s.settle.map State.options

end SampleProfiler.CommandLine
