import Mathlib
import SampleProfiler.Load.Report
import SampleProfiler.Proofs.Numerals

/-!
# `SampleProfiler.Proofs.Rows` — reading a report back

The table of a report is text for people, but nothing in it is lost. Cells that are too wide for their columns are kept
whole, names may have blanks in them, and still every row has one line, and its figures are the last five words of it,
because there is a blank between two columns and none within a figure.

That `String.toNat?` and `String.toInt?` read numbers back is proved in `Nat.toNat?_repr` and `Int.toInt?_repr`. No module
of Mathlib brings these along, only all of it does, so all of it is imported here.

## Contents
- **Lines and words.** `Text.pieces` and `Text.words`; `pieces_join` reads lines back, `words_append` cuts at a blank.
- **Columns.** Padding adds no words and no line breaks.
- **Rows.** `cells`, the texts of a row; `Reading`, what they say, and `reading?`, read off a row from the right.
- **Reports.** `pieces_render`, the lines of a report, and `render_readable`.
-/

namespace SampleProfiler

namespace Text

/-! ## Lines and words -/

/-- What stands before, between and behind the occurrences of a character. -/
def pieces (separator : Char) (text : String) : List String :=
  (text.split separator).toList.map String.Slice.copy

/-- The words of a text: what stands between its blanks, if anything does. -/
def words (text : String) : List String :=
  (pieces ' ' text).filter (· ≠ "")

theorem pieces_eq (c : Char) (text : String) : pieces c text = (text.toList.splitOn c).map String.ofList :=
  String.toList_split_char

/-- A separator cuts a text in two. -/
theorem pieces_append (c : Char) (before after : String) :
    pieces c (before ++ String.singleton c ++ after) = pieces c before ++ pieces c after := by
  have hcons : (before ++ String.singleton c ++ after).toList = before.toList ++ c :: after.toList := by simp
  rw [pieces_eq, pieces_eq, pieces_eq, hcons, List.splitOn_append_cons_self, List.map_append]

theorem pieces_of_notMem {c : Char} {text : String} (h : c ∉ text.toList) : pieces c text = [text] := by
  rw [pieces_eq, List.splitOn_eq_singleton h, List.map_singleton, String.ofList_toList]

/-- **Lines are read back** if none of them has a line break of its own. -/
theorem pieces_join {lines : List String} (h : ∀ line ∈ lines, '\n' ∉ line.toList) :
    pieces '\n' (String.join (lines.map (· ++ "\n"))) = lines ++ [""] := by
  induction lines with
  | nil => exact pieces_of_notMem (by decide)
  | cons line rest ih =>
      have hline := pieces_of_notMem (h line List.mem_cons_self)
      have hrest := ih fun l hl => h l (List.mem_cons_of_mem line hl)
      have hjoin : String.join ((line :: rest).map (· ++ "\n"))
          = line ++ String.singleton '\n' ++ String.join (rest.map (· ++ "\n")) := by
        rw [List.map_cons, String.join_cons]
        rfl
      rw [hjoin, pieces_append, hline, hrest]
      rfl

/-- A blank cuts a text in two. -/
theorem words_append (before after : String) : words (before ++ " " ++ after) = words before ++ words after := by
  have hpieces := pieces_append ' ' before after
  rw [words, words, words, ← List.filter_append, ← hpieces]
  rfl

theorem words_empty : words "" = [] := by
  rw [words, pieces_of_notMem (by decide)]
  rfl

/-- A numeral is one word. -/
theorem Numeral.words_eq {text : String} (h : Numeral text) : words text = [text] := by
  rw [words, pieces_of_notMem (h.notMem (by decide)), List.filter_singleton]
  simp [h.ne_empty]

/-! ## Columns -/

theorem blanks_succ (n : Nat) : blanks (n + 1) = " " ++ blanks n := by
  rw [blanks, List.replicate_succ, String.ofList_cons]
  rfl

theorem words_blanks_append (n : Nat) (text : String) : words (blanks n ++ text) = words text := by
  induction n with
  | zero => exact congrArg words String.empty_append
  | succ n ih =>
      have hcut := words_append "" (blanks n ++ text)
      rw [words_empty, List.nil_append, ih, String.empty_append, ← String.append_assoc] at hcut
      rw [blanks_succ]
      exact hcut

/-- Padding at the left adds no words. -/
theorem words_flushRight (width : Nat) (text : String) : words (flushRight width text) = words text :=
  words_blanks_append _ text

/-- Padding at the right adds no words. -/
theorem words_flushLeft (width : Nat) (text : String) : words (flushLeft width text) = words text := by
  unfold flushLeft
  cases width - text.length with
  | zero => exact congrArg words String.append_empty
  | succ n =>
      have hblanks : words (blanks n) = [] := by
        have h := words_blanks_append n ""
        rwa [String.append_empty, words_empty] at h
      rw [blanks_succ, ← String.append_assoc, words_append, hblanks, List.append_nil]

/-- Cells with blanks between them have their words one after the other. -/
theorem words_intercalate (cells : List String) : words (" ".intercalate cells) = cells.flatMap words := by
  induction cells with
  | nil => exact words_empty
  | cons cell rest ih =>
      cases rest with
      | nil => simp
      | cons next more =>
          rw [String.intercalate_cons_cons, words_append, ih]
          exact List.flatMap_cons.symm

theorem mem_flushRight {width : Nat} {text : String} {c : Char} (hc : c ≠ ' ') :
    c ∈ (flushRight width text).toList ↔ c ∈ text.toList := by
  simp [flushRight, blanks, hc]

theorem mem_flushLeft {width : Nat} {text : String} {c : Char} (hc : c ≠ ' ') :
    c ∈ (flushLeft width text).toList ↔ c ∈ text.toList := by
  simp [flushLeft, blanks, hc]

end Text

namespace Load.Report

/-! ## Rows -/

/-- The least duration that a row shows: none, if there was no call. -/
def leastShown (p : Profile) : Int :=
  if p.calls = 0 then 0 else p.least.toInt

/-- The texts in a row behind the name. -/
def cells (p : Profile) : List String :=
  [toString p.calls, Decimal.fixed 2 p.errorRate, toString (leastShown p), toString p.mean.toInt,
    toString p.greatest.toInt]

/-- The columns of the table by their widths. -/
def columns : List Nat := [24, 10, 8, 12, 12, 12]

/-- What a row says of an operation. -/
structure Reading where
  calls : Nat
  errors : String
  least : Int
  mean : Int
  greatest : Int
deriving DecidableEq

/-- Reads a row from its right end. -/
def reading? (row : String) : Option Reading :=
  match (Text.words row).reverse with
  | greatest :: mean :: least :: errors :: calls :: _ => do
    let calls ← calls.toNat?
    let least ← least.toInt?
    let mean ← mean.toInt?
    let greatest ← greatest.toInt?
    return { calls, errors, least, mean, greatest }
  | _ => none

theorem row_eq (p : Profile) :
    row p = " ".intercalate
      [Text.flushLeft 24 p.name, Text.flushRight 10 (toString p.calls),
        Text.flushRight 8 (Decimal.fixed 2 p.errorRate), Text.flushRight 12 (toString (leastShown p)),
        Text.flushRight 12 (toString p.mean.toInt), Text.flushRight 12 (toString p.greatest.toInt)] := by
  have hleast : (if p.isEmpty then 0 else p.least.toInt) = leastShown p := by
    simp [Profile.isEmpty, leastShown]
  rw [row, line, hleast]

theorem numeral_of_mem_cells {p : Profile} {cell : String} (h : cell ∈ cells p) : Text.Numeral cell := by
  simp only [cells, List.mem_cons, List.not_mem_nil, or_false] at h
  rcases h with rfl | rfl | rfl | rfl | rfl
  · exact Text.numeral_nat p.calls
  · exact Decimal.numeral_fixed 2 p.errorRate
  · exact Text.numeral_int (leastShown p)
  · exact Text.numeral_int p.mean.toInt
  · exact Text.numeral_int p.greatest.toInt

/-- **A row in words**: those of the name, then one for each figure. -/
theorem words_row (p : Profile) : Text.words (row p) = Text.words p.name ++ cells p := by
  have hcells : (cells p).flatMap Text.words = cells p := by
    rw [List.flatMap_congr fun cell hcell => (numeral_of_mem_cells hcell).words_eq, List.flatMap_singleton']
  rw [row_eq, Text.words_intercalate, ← hcells]
  simp only [List.flatMap_cons, List.flatMap_nil, Text.words_flushLeft, Text.words_flushRight, cells]

/-- **A row is read back**, whatever the name is. -/
theorem reading?_row (p : Profile) :
    reading? (row p) = some
      { calls := p.calls, errors := Decimal.fixed 2 p.errorRate, least := leastShown p, mean := p.mean.toInt,
        greatest := p.greatest.toInt } := by
  have hreverse : (Text.words (row p)).reverse
      = toString p.greatest.toInt :: toString p.mean.toInt :: toString (leastShown p)
        :: Decimal.fixed 2 p.errorRate :: toString p.calls :: (Text.words p.name).reverse := by
    rw [words_row, List.reverse_append]
    rfl
  have hcalls : (toString p.calls).toNat? = some p.calls := Nat.toNat?_repr p.calls
  have hint : ∀ z : Int, (toString z).toInt? = some z := Int.toInt?_repr
  rw [reading?, hreverse]
  simp only [hcalls, hint, Option.bind_eq_bind, Option.bind_some, Option.pure_def]

/-- The texts of a row with the widths of their columns. -/
def placements (p : Profile) : List (Nat × String) :=
  columns.zip (p.name :: cells p)

/-- A row is as long as its columns, each of them widened to its cell, and the blanks between them. -/
theorem length_row (p : Profile) :
    (row p).length = ((placements p).map fun cell => max cell.1 cell.2.length).sum + 5 := by
  rw [row_eq]
  simp only [String.intercalate_cons_cons, String.intercalate_singleton, String.length_append,
    Text.length_flushLeft, Text.length_flushRight, placements, columns, cells, List.zip_cons_cons, List.zip_nil_left,
    List.map_cons, List.map_nil, List.sum_cons, List.sum_nil]
  have hblank : " ".length = 1 := rfl
  omega

/-- Columns that are widened to their cells keep their widths exactly if every cell fits. -/
theorem sum_le_sum_max (placed : List (Nat × String)) :
    (placed.map Prod.fst).sum ≤ (placed.map fun cell => max cell.1 cell.2.length).sum ∧
      ((placed.map fun cell => max cell.1 cell.2.length).sum = (placed.map Prod.fst).sum ↔
        ∀ cell ∈ placed, cell.2.length ≤ cell.1) := by
  induction placed with
  | nil => simp
  | cons cell rest ih =>
      obtain ⟨hle, hfits⟩ := ih
      rw [List.forall_mem_cons, ← hfits, List.map_cons, List.map_cons, List.sum_cons, List.sum_cons]
      omega

/-- **A row is never narrower than the table**, and wider only for a cell that does not fit its column. -/
theorem width_le_length_row (p : Profile) :
    width ≤ (row p).length ∧ ((row p).length = width ↔ ∀ cell ∈ placements p, cell.2.length ≤ cell.1) := by
  obtain ⟨hle, hfits⟩ := sum_le_sum_max (placements p)
  have hwidth : ((placements p).map Prod.fst).sum + 5 = width := rfl
  rw [length_row, ← hfits]
  omega

/-! ## Reports -/

section OneLine

variable {text more label value : String}

theorem notMem_append (htext : '\n' ∉ text.toList) (hmore : '\n' ∉ more.toList) : '\n' ∉ (text ++ more).toList := by
  rw [String.toList_append, List.mem_append]
  exact not_or.mpr ⟨htext, hmore⟩

theorem notMem_figure (hlabel : '\n' ∉ label.toList) (hvalue : '\n' ∉ value.toList) :
    '\n' ∉ (figure label value).toList := by
  have hcolon : '\n' ∉ (label ++ ":").toList := notMem_append hlabel (by decide)
  exact notMem_append ((Text.mem_flushLeft (by decide)).not.mpr hcolon) hvalue

/-- Cells without line breaks make up a line without one. -/
theorem notMem_line {name calls errors least mean greatest : String}
    (h : ∀ cell ∈ [name, calls, errors, least, mean, greatest], '\n' ∉ cell.toList) :
    '\n' ∉ (line name calls errors least mean greatest).toList := by
  simp only [List.forall_mem_cons] at h
  obtain ⟨hname, hcalls, herrors, hleast, hmean, hgreatest, _⟩ := h
  have hblank : '\n' ∉ " ".toList := by decide
  have hleft : '\n' ∉ (Text.flushLeft 24 name).toList := (Text.mem_flushLeft (by decide)).not.mpr hname
  have hright : ∀ {width : Nat} {cell : String}, '\n' ∉ cell.toList → '\n' ∉ (Text.flushRight width cell).toList :=
    fun hcell => (Text.mem_flushRight (by decide)).not.mpr hcell
  simp only [line, String.intercalate_cons_cons, String.intercalate_singleton]
  exact notMem_append (notMem_append hleft hblank) <|
    notMem_append (notMem_append (hright hcalls) hblank) <|
    notMem_append (notMem_append (hright herrors) hblank) <|
    notMem_append (notMem_append (hright hleast) hblank) <|
    notMem_append (notMem_append (hright hmean) hblank) (hright hgreatest)

end OneLine

/-- No line of the head has a line break of its own. -/
theorem notMem_of_mem_head (r : Report) : ∀ text ∈ r.head, '\n' ∉ text.toList := by
  have hnat : ∀ n : Nat, '\n' ∉ (toString n).toList := fun n => (Text.numeral_nat n).notMem (by decide)
  have hfixed : ∀ places x, '\n' ∉ (Decimal.fixed places x).toList := fun places x =>
    (Decimal.numeral_fixed places x).notMem (by decide)
  simp only [head, List.forall_mem_cons]
  refine ⟨by simp, notMem_figure (by simp) (hnat _), notMem_figure (by simp) (hnat _),
    notMem_figure (by simp) (hfixed _ _), notMem_figure (by simp) (hnat _), notMem_figure (by simp) (hnat _),
    notMem_figure (by simp) (hnat _), notMem_figure (by simp) (notMem_append (hfixed _ _) (by simp)),
    notMem_figure (by simp) (notMem_append (hfixed _ _) (by simp)), by simp, notMem_line (by simp), ?_, ?_⟩
  · intro hmem
    rw [String.toList_ofList] at hmem
    exact absurd (List.eq_of_mem_replicate hmem) (by decide)
  · simp

theorem notMem_row {p : Profile} (h : '\n' ∉ p.name.toList) : '\n' ∉ (row p).toList := by
  have hcells : ∀ cell ∈ cells p, '\n' ∉ cell.toList := fun cell hcell =>
    (numeral_of_mem_cells hcell).notMem (by decide)
  have hrow : row p = line p.name (toString p.calls) (Decimal.fixed 2 p.errorRate) (toString (leastShown p))
      (toString p.mean.toInt) (toString p.greatest.toInt) := row_eq p
  rw [hrow]
  apply notMem_line
  rw [List.forall_mem_cons]
  exact ⟨h, hcells⟩

/-- **A report is read back line by line**, if no name breaks its row. -/
theorem pieces_render {r : Report} (hnames : ∀ p ∈ r.profiles, '\n' ∉ p.name.toList) (top : Nat) :
    Text.pieces '\n' (r.render top) = r.head ++ (r.profiles.take top).map row ++ [""] := by
  rw [render, lines, Text.pieces_join]
  intro text htext
  rcases List.mem_append.mp htext with hhead | hrow
  · exact r.notMem_of_mem_head text hhead
  · obtain ⟨p, hp, rfl⟩ := List.mem_map.mp hrow
    exact notMem_row (hnames p (List.mem_of_mem_take hp))

/-- More rows are added at the end. -/
theorem render_eq_append (r : Report) {a b : Nat} (h : a ≤ b) : ∃ rest, r.render b = r.render a ++ rest := by
  obtain ⟨later, hlater⟩ := List.take_prefix_take_left h (l := r.profiles)
  have hrows : (r.profiles.take b).map row = (r.profiles.take a).map row ++ later.map row := by
    rw [← hlater, List.map_append]
  refine ⟨String.join ((later.map row).map (· ++ "\n")), ?_⟩
  rw [render, lines, hrows, ← List.append_assoc, List.map_append, String.join_append]
  rfl

/-- **Reports are complete and can be read back.** A report whose names have no line breaks is twelve lines and one for
    each of the first `top` profiles, in the order of the report; a report with fewer rows is where one with more rows
    begins. Cut at its blanks, a row has the words of the name, whatever these are, and then one word for each figure,
    from which all of them are read back: the counts and durations exactly, with no least duration before the first
    call, and the share of failures to the nearest hundredth. A row fills the width of the table, and is longer only if
    a cell does not fit its column. -/
theorem render_readable {r : Report} (hnames : ∀ p ∈ r.profiles, '\n' ∉ p.name.toList) :
    (∀ top,
      let text := r.head ++ (r.profiles.take top).map row
      Text.pieces '\n' (r.render top) = text ++ [""] ∧ text.length = 12 + min top r.profiles.length) ∧
    (∀ a b, a ≤ b → ∃ rest, r.render b = r.render a ++ rest) ∧
    ∀ p : Profile,
      Text.words (row p) = Text.words p.name ++
        [toString p.calls, Decimal.fixed 2 p.errorRate, toString (if p.calls = 0 then 0 else p.least.toInt),
          toString p.mean.toInt, toString p.greatest.toInt] ∧
      reading? (row p) = some
        { calls := p.calls, errors := Decimal.fixed 2 p.errorRate,
          least := if p.calls = 0 then 0 else p.least.toInt, mean := p.mean.toInt, greatest := p.greatest.toInt } ∧
      (∀ q, (Decimal.exact p.errorRate).value? = some q →
        ∃ shown, Decimal.Writes 2 (Decimal.fixed 2 p.errorRate) shown ∧ |shown - q| ≤ 1 / 200) ∧
      83 ≤ (row p).length ∧
      ((row p).length = 83 ↔ ∀ cell ∈ placements p, cell.2.length ≤ cell.1) := by
  refine ⟨?_, fun a b h => r.render_eq_append h, ?_⟩
  · intro top text
    refine ⟨pieces_render hnames top, ?_⟩
    have hhead : r.head.length = 12 := rfl
    rw [List.length_append, hhead, List.length_map, List.length_take]
  · intro p
    obtain ⟨hwide, hfits⟩ := width_le_length_row p
    refine ⟨words_row p, reading?_row p, ?_, hwide, hfits⟩
    intro q hq
    obtain ⟨shown, hshown, herror⟩ := Decimal.writes_fixed hq 2
    norm_num at herror
    exact ⟨shown, hshown, herror⟩

/-- A name with blanks and a number in it, a negative duration and one of nineteen digits, and after them a profile
    without a name or a call. -/
theorem render_readable_wide :
    let page : Profile :=
      { name := "get page 12", calls := 3, errors := 1, total := .clamp 60, least := .clamp (-5), greatest := .greatest,
        mean := .clamp 20 }
    let r : Report := { elapsed := ⟨1, 0⟩, totals := ⟨2, 3, 1, 0⟩, forced := 0, profiles := [page, .empty ""] }
    (∀ p ∈ r.profiles, '\n' ∉ p.name.toList) ∧
    Text.pieces '\n' (r.render 1) = r.head ++ [row page] ++ [""] ∧
    reading? (row page)
      = some { calls := 3, errors := "33.33", least := -5, mean := 20, greatest := 9223372036854775807 } ∧
    reading? (row (.empty "")) = some { calls := 0, errors := "0.00", least := 0, mean := 0, greatest := 0 } ∧
    83 < (row page).length ∧ (row (.empty "")).length = 83 := by
  intro page r
  have hnames : ∀ p ∈ r.profiles, '\n' ∉ p.name.toList := by simp [r, page, Profile.empty]
  have hpage : Decimal.fixed 2 page.errorRate = "33.33" := by decide +kernel
  have hnone : Decimal.fixed 2 (Profile.empty "").errorRate = "0.00" := by decide +kernel
  obtain ⟨hlines, _, hrows⟩ := render_readable hnames
  obtain ⟨_, hread, _, hwide, hexact⟩ := hrows page
  obtain ⟨_, hempty, _, _, hfits⟩ := hrows (.empty "")
  rw [hpage] at hread
  rw [hnone] at hempty
  refine ⟨hnames, (hlines 1).1, hread, hempty, lt_of_le_of_ne hwide ?_, hfits.mpr ?_⟩
  · intro hlength
    exact absurd (hexact.mp hlength.symm) (by decide +kernel)
  · decide +kernel

end Load.Report

end SampleProfiler
