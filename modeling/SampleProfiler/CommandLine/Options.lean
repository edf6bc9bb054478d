import SampleProfiler.Decimal.Reader
import SampleProfiler.Settings
import SampleProfiler.Text.Terminal

/-!
# `SampleProfiler.CommandLine.Options` — the options of the program

Which options there are, what a command line without any of them means, and what can be wrong with one.

## Contents
- **`Argument`** — an option, with its names, and `Argument.shown`, how messages name it.
- **`Options`** — the values of all options; its default is the empty command line.
- **`UsageFault`** — why a command line is refused, or answered by a text of its own; with its message.
- **`help`** and **`version`** — those texts.
-/

namespace SampleProfiler.CommandLine

/-! ## Arguments -/

/-- An option of the program. -/
inductive Argument where
  | threads
  | samples
  | operations
  | errorRate
  | bufferCapacity
  | maxProfiles
  | config
  | top
  | debug
  | help
  | version
deriving DecidableEq

namespace Argument

/-- All options, in the order in which the help text lists them. -/
def all : List Argument :=
  [threads, samples, operations, errorRate, bufferCapacity, maxProfiles, config, top, debug, help, version]

/-- The name after two dashes. -/
def long : Argument → String
  | threads => "threads"
  | samples => "samples"
  | operations => "operations"
  | errorRate => "error-rate"
  | bufferCapacity => "buffer-capacity"
  | maxProfiles => "max-profiles"
  | config => "config"
  | top => "top"
  | debug => "debug"
  | help => "help"
  | version => "version"

/-- The letter after one dash, if the option has one. -/
def short? : Argument → Option Char
  | threads => some 't'
  | samples => some 'n'
  | operations => some 'o'
  | config => some 'c'
  | help => some 'h'
  | version => some 'V'
  | _ => none

/-- What the value stands for, if the option takes one. -/
def value? : Argument → Option String
  | threads | samples | operations | bufferCapacity | maxProfiles | top => some "N"
  | errorRate => some "RATE"
  | config => some "FILE"
  | debug | help | version => none

/-- True if the option takes a value. -/
def takesValue (a : Argument) : Bool :=
  a.value?.isSome

/-- How messages name the option. -/
def shown (a : Argument) : String :=
  match a.value? with
  | some value => "--" ++ a.long ++ " <" ++ value ++ ">"
  | none => "--" ++ a.long

/-- The option with a given long name. -/
def ofLong? (name : String) : Option Argument :=
  all.find? fun a => a.long == name

/-- The option with a given letter. -/
def ofShort? (letter : Char) : Option Argument :=
  all.find? fun a => a.short? == some letter

end Argument

/-! ## Options -/

/-- The values of all options. -/
structure Options where
  threads : Nat := 4
  samples : Nat := 10000
  operations : Nat := 16
  errorRate : Float := 0.05
  overrides : Overrides := {}
  config : Option String := none
  top : Nat := 10
  debug : Bool := false

/-! ## Faults -/

/-- Why a command line is not carried out: it is refused, or it asks for a text. -/
inductive UsageFault where
  | unknown (argument : String)
  | valueMissing (argument : Argument)
  | repeated (argument : Argument)
  | invalidValue (argument : Argument) (value reason : String)
  | unexpectedValue (argument : Argument) (value : String)
  | helpWanted
  | versionWanted

/-- The version text. -/
def version : String := "perfbatch 0.1.0\n"

/-- The help text. -/
def help : String :=
  "Drive per-thread sample buffers into a shared aggregator and report the profiles\n\n"
    ++ "Usage: perfbatch [OPTIONS]\n\n"
    ++ "Options:\n"
    ++ "  -t, --threads <N>          Number of producer threads, each with its own buffer [default: 4]\n"
    ++ "  -n, --samples <N>          Samples recorded by each thread [default: 10000]\n"
    ++ "  -o, --operations <N>       Distinct operation names shared by all threads [default: 16]\n"
    ++ "      --error-rate <RATE>    Fraction of samples recorded as failures (0.0 to 1.0) [default: 0.05]\n"
    ++ "      --buffer-capacity <N>  Samples per thread buffer (overrides the config file)\n"
    ++ "      --max-profiles <N>     Maximum tracked operations before LRU eviction (overrides the config file)\n"
    ++ "  -c, --config <FILE>        TOML file with buffer_capacity / max_profiles\n"
    ++ "      --top <N>              Number of profiles to print, slowest total time first [default: 10]\n"
    ++ "      --debug                Enable debug tracing output to stderr\n"
    ++ "  -h, --help                 Print help\n"
    ++ "  -V, --version              Print version\n"

/-- The first line of a text. -/
def firstLine (text : String) : String :=
  let line := text.toList.takeWhile (· != '\n')
  String.ofList (if line.getLast? == some '\r' then line.dropLast else line)

/-- The text of a fault on a medium. One that refuses the command line is a single line, in which the words
    that were given appear as a terminal shows them. -/
def UsageFault.message (medium : Text.Medium) : UsageFault → String
  | helpWanted => help
  | versionWanted => version
  | unknown argument => firstLine ("error: unexpected argument '" ++ Text.shown medium argument ++ "' found")
  | valueMissing a => "error: a value is required for '" ++ a.shown ++ "' but none was supplied"
  | repeated a => "error: the argument '" ++ a.shown ++ "' cannot be used multiple times"
  | invalidValue a value reason =>
    firstLine ("error: invalid value '" ++ Text.shown medium value ++ "' for '" ++ a.shown ++ "': " ++ reason)
  | unexpectedValue a value =>
    firstLine
      ("error: unexpected value '" ++ Text.shown medium value ++ "' for '" ++ a.shown
        ++ "' found; no more were expected")

end SampleProfiler.CommandLine
