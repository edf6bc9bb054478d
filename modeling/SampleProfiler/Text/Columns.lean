/-!
# `SampleProfiler.Text.Columns` — text in columns of a set width

A cell is filled up with blanks to the width of its column, counted in characters. A cell that is wider
than its column is kept whole, so no column ever cuts a value off.
-/

namespace SampleProfiler.Text

/-- A text of `n` blanks. -/
def blanks (n : Nat) : String :=
  String.ofList (List.replicate n ' ')

/-- The text at the left of a column of the given width. -/
def flushLeft (width : Nat) (text : String) : String :=
  text ++ blanks (width - text.length)

/-- The text at the right of a column of the given width. -/
def flushRight (width : Nat) (text : String) : String :=
  blanks (width - text.length) ++ text

/-- A column has its width, or that of a text that is wider. -/
theorem length_flushRight (width : Nat) (text : String) : (flushRight width text).length = max width text.length := by
  simp only [flushRight, blanks, String.length_append, String.length_ofList, List.length_replicate]
  omega

/-- A column has its width, or that of a text that is wider. -/
theorem length_flushLeft (width : Nat) (text : String) : (flushLeft width text).length = max width text.length := by
  simp only [flushLeft, blanks, String.length_append, String.length_ofList, List.length_replicate]
  omega

end SampleProfiler.Text
