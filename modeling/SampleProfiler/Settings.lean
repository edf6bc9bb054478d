import SampleProfiler.Fault
import SampleProfiler.Record
import SampleProfiler.Text.Labelled
import SampleProfiler.Toml.Document
import SampleProfiler.Toml.Printer

/-!
# `SampleProfiler.Settings` — how large buffers and the registry are

Settings are read once, when buffers and a registry are made. A document may leave settings out; they keep
their defaults. Both numbers have to be positive.

## Contents
- **`Settings`**, the defaults, `defect?` (the first thing wrong) and `checked`.
- **Documents.** `document` writes settings as TOML, `ofDocument` reads them.
- **`Overrides`** — settings that were given elsewhere and win over those of a document.
-/

namespace SampleProfiler

/-- The number of samples a buffer holds, and the number of profiles a registry tracks. -/
structure Settings where
  capacity : Nat := 256
  bound : Nat := 10000
deriving DecidableEq, Inhabited

namespace Settings

/-- The first thing that is wrong with the settings. -/
def defect? (s : Settings) : Option Defect :=
  if s.capacity = 0 then some .zeroCapacity
  else if s.bound = 0 then some .zeroBound
  else none

/-- The settings, if nothing is wrong with them. -/
def checked (s : Settings) : Except Fault Settings :=
  match s.defect? with
  | some defect => .error (.invalid defect)
  | none => .ok s

/-- The settings shown by their fields. -/
def described (s : Settings) : String :=
  Text.labelled "CollectorConfig"
    [("buffer_capacity", toString s.capacity), ("max_profiles", toString s.bound)]

/-! ## Documents -/

/-- The settings that a document may hold. -/
def fields : List Field :=
  [⟨"buffer_capacity", .size⟩, ⟨"max_profiles", .size⟩]

/-- The settings as a TOML document. -/
def document (s : Settings) : Except Toml.WriteFault String :=
  Toml.document [("buffer_capacity", .integer s.capacity), ("max_profiles", .integer s.bound)]

/-- Reads the settings among the entries of a table and keeps the defaults of those that are not there. -/
def ofEntries (entries : List (String × Datum)) : Except Mismatch Settings :=
  (Draft.fill fields entries (.none fields)).map fun (capacity, bound, ()) =>
    let defaults : Settings := {}
    { capacity := Option.getD (α := Nat) capacity defaults.capacity
      bound := Option.getD (α := Nat) bound defaults.bound }

/-- Reads and checks a TOML document. -/
def ofDocument (text : String) : Except Fault Settings :=
  match Toml.parse? text with
  | none => .error (.document .malformed)
  | some table =>
    match ofEntries (Toml.entryData table) with
    | .error mismatch => .error (.document (.field mismatch))
    | .ok s => s.checked

end Settings

/-! ## Overrides -/

/-- Settings that were given outside the document. -/
structure Overrides where
  capacity : Option Nat := none
  bound : Option Nat := none
deriving DecidableEq, Inhabited

/-- The settings with the given ones replaced. -/
def Overrides.over (o : Overrides) (s : Settings) : Settings :=
  { capacity := o.capacity.getD s.capacity, bound := o.bound.getD s.bound }

end SampleProfiler
