import SampleProfiler.Text.Unprintable

/-!
# `SampleProfiler.Text.Quoted` — text between double quotes

Diagnostics show text between double quotes, on one line, with everything invisible spelled out: the common
controls by a letter, a quote and a backslash after a backslash, and any other unprintable character by its
code point in hexadecimal.
-/

namespace SampleProfiler.Text

/-- The spelling of one character inside quoted text. -/
def spelled (c : Char) : String :=
  match c with
  | '\x00' => "\\0"
  | '\t' => "\\t"
  | '\r' => "\\r"
  | '\n' => "\\n"
  | '"' => "\\\""
  | '\\' => "\\\\"
  | c =>
    if isUnprintable c then
      "\\u\x7b" ++ String.ofList (Nat.toDigits 16 c.toNat) ++ "\x7d"
    else c.toString

/-- The text between double quotes. -/
def quoted (text : String) : String :=
  "\"" ++ String.join (text.toList.map spelled) ++ "\""

end SampleProfiler.Text
