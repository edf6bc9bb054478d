/-!
# `SampleProfiler.Text.Labelled` — a value by its fields

Diagnostics show a value of several parts as its title and, between braces, each part after its label.
-/

namespace SampleProfiler.Text

/-- The title, then the fields in order, on one line. -/
def labelled (title : String) (fields : List (String × String)) : String :=
  title ++ " \x7b " ++ ", ".intercalate (fields.map fun (label, value) => label ++ ": " ++ value) ++ " \x7d"

end SampleProfiler.Text
