/-!
# `SampleProfiler.Text.Terminal` — what a terminal shows of a text

A terminal obeys control sequences and does not show them. A sequence starts with an escape character, and
the next characters say of which kind it is and so where it ends: some kinds end with their first letter,
others go on until a terminator. Layout controls (tabs, line ends and form feeds) are shown; no other
control is.

A layout control in the middle of a short sequence is shown too, and so is the text after it. In a text
that is at hand as a whole, it ends the sequence. On a stream it only suspends the sequence, which goes on
with the next character that is not shown.

## Contents
- **`Medium`** — a whole text, or a stream.
- **`Mode`** — what a text is in the middle of, and `Mode.next`, the mode after one more character.
- **`Mode.shows`** — whether a character is shown.
- **`shown`** — a text without all that is not shown; `shown_eq_self` says that plain text stays as it is.
-/

namespace SampleProfiler.Text

/-! ## Characters -/

/-- True for a control character of ASCII. -/
def isControl (c : Char) : Bool :=
  c.toNat < 0x20 || c.toNat == 0x7f

/-- True for a control that lays out text. -/
def isLayout (c : Char) : Bool :=
  c == '\t' || c == '\n' || c == '\x0c' || c == '\r'

/-- True if the code point of `c` is one of `first … last`. -/
def within (first last : Nat) (c : Char) : Bool :=
  first ≤ c.toNat && c.toNat ≤ last

/-- True if a byte after the first one of a character's encoding is the one-byte string terminator. -/
def holdsTerminator (c : Char) : Bool :=
  (String.utf8EncodeChar c).tail.contains 0x9c

/-! ## Modes -/

/-- How a text comes to be shown. -/
inductive Medium where
  | whole
  | stream
deriving DecidableEq

/-- What a text is in the middle of. -/
inductive Mode where
  /-- No sequence. -/
  | plain
  /-- A sequence of which only the escape character is there. -/
  | escape
  /-- A sequence of an unnamed kind, which ends with a letter or digit. -/
  | short
  /-- A control sequence, which ends with a letter. -/
  | control
  /-- An operating system command, which ends with a bell. -/
  | command
  /-- The start of a device control string. -/
  | device
  /-- The parameters of a device control string. -/
  | deviceParameters
  /-- What stands between the parameters of a device control string and its payload. -/
  | deviceMiddle
  /-- A payload, which ends with a terminator. -/
  | payload
  /-- A sequence that waits while text is shown. -/
  | suspended (held : Mode)
deriving DecidableEq

namespace Mode

/-- The mode after a layout control inside a sequence. -/
def interrupted (medium : Medium) (m : Mode) : Mode :=
  match medium with
  | .whole => plain
  | .stream => suspended m

/-- The mode after a character other than a layout control that follows an escape character. -/
def opened (c : Char) : Mode :=
  match c with
  | '[' => control
  | ']' => command
  | 'P' => device
  | 'X' | '^' | '_' => payload
  | c =>
    if within 0x30 0x7e c then plain
    else if within 0x20 0x2f c then short
    else escape

/-- The mode of a suspended sequence after one more character. A control that is not shown resumes it, and a
    character beyond ASCII drops it. -/
def afterWait (held : Mode) (c : Char) : Mode :=
  if isControl c && !isLayout c then held
  else if c.toNat < 0x80 then suspended held
  else plain

/-- The mode after one more character. An escape character opens a sequence even inside of another one, and
    a cancelling or substituting control ends any. -/
def next (medium : Medium) (m : Mode) (c : Char) : Mode :=
  if c == '\x1b' then escape
  else if c == '\x18' || c == '\x1a' then plain
  else
    match m with
    | plain => plain
    | escape => if isLayout c then interrupted medium escape else opened c
    | short =>
      if isLayout c then interrupted medium short
      else if within 0x30 0x7e c then plain
      else short
    | control =>
      if isLayout c then interrupted medium control
      else if within 0x40 0x7e c then plain
      else control
    | command => if c == '\x07' then plain else command
    | device =>
      if within 0x20 0x2f c then deviceMiddle
      else if within 0x30 0x3f c then deviceParameters
      else if within 0x40 0x7e c then payload
      else device
    | deviceParameters =>
      if within 0x20 0x2f c then deviceMiddle
      else if within 0x3c 0x7e c then payload
      else deviceParameters
    | deviceMiddle => if within 0x30 0x7e c then payload else deviceMiddle
    | payload => if holdsTerminator c then plain else payload
    | suspended held => held.afterWait c

/-- True if a character is shown. A layout control shows up even in the middle of a short sequence. -/
def shows (m : Mode) (c : Char) : Bool :=
  match m with
  | plain | suspended _ => !isControl c || isLayout c
  | escape | short | control => isLayout c
  | _ => false

/-- The characters that are shown. -/
def visible (medium : Medium) (m : Mode) : List Char → List Char
  | [] => []
  | c :: rest =>
    if m.shows c then c :: (m.next medium c).visible medium rest else (m.next medium c).visible medium rest

end Mode

/-! ## Texts -/

/-- A text without all that a terminal does not show. -/
def shown (medium : Medium) (text : String) : String :=
  String.ofList (Mode.plain.visible medium text.toList)

theorem Mode.next_plain (medium : Medium) {c : Char} (h : isControl c = false) :
    plain.next medium c = plain := by
  have he : c ≠ '\x1b' := fun h' => by simp [h', isControl] at h
  simp [next, he]

theorem Mode.visible_plain (medium : Medium) {cs : List Char} (h : ∀ c ∈ cs, isControl c = false) :
    plain.visible medium cs = cs := by
  induction cs with
  | nil => rfl
  | cons c rest ih =>
    have hc := h c List.mem_cons_self
    simp [visible, shows, hc, next_plain medium hc, ih fun d hd => h d (List.mem_cons_of_mem c hd)]

/-- A text without controls is shown as it is. -/
theorem shown_eq_self (medium : Medium) {text : String} (h : ∀ c ∈ text.toList, isControl c = false) :
    shown medium text = text := by
  simp [shown, Mode.visible_plain medium h]

end SampleProfiler.Text
