import SampleProfiler.Proofs.Tables
import SampleProfiler.Toml.Printer

/-!
# `SampleProfiler.Proofs.Documents` — integers in documents

A flat record of integers is written as one line for each field, and the reader of documents is a reader for all of
TOML: whatever it tries on such a line, dates and times before numbers, it has to come out at the integer that was
written. The lemmas follow the reader from the digits to the root table, each saying what one of its functions makes
of a printed text and what it leaves for the next.

## Contents
- **Digits.** `AtLineEnd`, what may follow a number; `decimalRun?_toDigits`.
- **Values.** Digits before the end of a line are no date and no time; `value?_toDigits`.
- **Lines.** `line`, and `statement?_append`, what a line says.
- **Documents.** `Spells`, the texts of a list of integers, and `parse?_of_spells`.
- **Printing.** What the printer writes is such a text: `document_plain`.
-/

namespace SampleProfiler.Toml

/-! ## Digits -/

/-- The end of a line: a line break, or the end of the text. -/
inductive AtLineEnd : List Char → Prop where
  | text : AtLineEnd []
  | line (rest : List Char) : AtLineEnd ('\n' :: rest)

variable {rest : List Char}

theorem AtLineEnd.ne_cons (hrest : AtLineEnd rest) {c : Char} (hc : c ≠ '\n') (more : List Char) : rest ≠ c :: more := by
  rintro rfl
  cases hrest
  exact hc rfl

theorem isDigit_of_mem_toDigits {n : Nat} {c : Char} (hc : c ∈ Nat.toDigits 10 n) : c.isDigit = true :=
  Nat.isDigit_of_mem_toDigits (by decide) (by decide) hc

theorem ofDigits_toDigits (n : Nat) : Decimal.ofDigits (Nat.toDigits 10 n) = n := by
  have hread := @Nat.ofDigitChars_ten_toDigits n
  rwa [Nat.ofDigitChars_eq_foldl] at hread

/-- Only zero is written with a zero in front. -/
theorem toDigits_eq_cons {n : Nat} (hn : 0 < n) : ∃ c ds, Nat.toDigits 10 n = c :: ds ∧ c ≠ '0' := by
  induction n using Nat.strongRecOn with
  | ind n ih =>
      rcases Nat.lt_or_ge n 10 with hlt | hge
      · refine ⟨n.digitChar, [], Nat.toDigits_of_lt_base hlt, ?_⟩
        rw [Ne, Nat.digitChar_eq_zero]
        exact Nat.ne_of_gt hn
      · -- the last digit is written behind those of the tenth part
        obtain ⟨c, ds, hds, hc⟩ := ih (n / 10) (by omega) (by omega)
        refine ⟨c, ds ++ [(n % 10).digitChar], ?_, hc⟩
        rw [Nat.toDigits_of_base_le (by decide) hge, hds]
        rfl

theorem digitTail?_append {ds : List Char} (hds : ∀ c ∈ ds, c.isDigit = true) (hrest : AtLineEnd rest)
    (read : List Char) : digitTail? Char.isDigit read (ds ++ rest) = some (read.reverse ++ ds, rest) := by
  -- each digit moves over to those already read
  induction ds generalizing read with
  | nil =>
      rw [List.append_nil]
      cases hrest <;> rfl
  | cons c ds ih =>
      have hc := hds c List.mem_cons_self
      have hmore := ih (fun d hd => hds d (List.mem_cons_of_mem c hd)) (c :: read)
      rw [List.reverse_cons, List.append_assoc] at hmore
      rw [List.cons_append]
      unfold digitTail?
      split
      · next heq => exact absurd heq (List.cons_ne_nil _ _)
      · next heq =>
          -- an underscore is no digit
          rw [(List.cons.inj heq).1] at hc
          exact absurd hc (by decide)
      · next heq =>
          obtain ⟨rfl, rfl⟩ := List.cons.inj heq
          rw [if_pos hc]
          exact hmore

/-- **A printed number is one run of digits**, zero as a lone zero. -/
theorem decimalRun?_toDigits (n : Nat) (hrest : AtLineEnd rest) :
    decimalRun? (Nat.toDigits 10 n ++ rest) = some (Nat.toDigits 10 n, rest) := by
  rcases Nat.eq_zero_or_pos n with rfl | hn
  · -- a lone zero is not gone on from, whatever follows
    rfl
  · obtain ⟨c, ds, hds, hc⟩ := toDigits_eq_cons hn
    have hdigit : ∀ d ∈ c :: ds, d.isDigit = true := by
      intro d hd
      rw [← hds] at hd
      exact isDigit_of_mem_toDigits hd
    have htail := digitTail?_append (fun d hd => hdigit d (List.mem_cons_of_mem c hd)) hrest [c]
    rw [hds, List.cons_append]
    unfold decimalRun?
    split
    · next heq => exact absurd (List.cons.inj heq).1 hc
    · show (if c.isDigit then digitTail? Char.isDigit [c] (ds ++ rest) else none) = _
      rw [if_pos (hdigit c List.mem_cons_self), htail]
      rfl

/-! ## Values -/

section FirstDigit

variable {c : Char}

/-- Characters differ if one is of a kind that the other is not of. -/
theorem ne_of_kind {d : Char} {kind : Char → Bool} (hc : kind c = true) (hd : kind d = false) : c ≠ d := by
  rintro rfl
  rw [hc] at hd
  exact absurd hd (by decide)

theorem unsignedNumber?_of_isDigit (negative : Bool) (hc : c.isDigit = true) :
    unsignedNumber? negative (c :: rest) =
      match decimalRun? (c :: rest) with
      | none => none
      | some (ds, rest) => numberTail? negative ds rest := by
  -- a digit does not start `inf` or `nan`
  have hi : c ≠ 'i' := ne_of_kind hc (by decide)
  have hn : c ≠ 'n' := ne_of_kind hc (by decide)
  unfold unsignedNumber?
  split
  · next heq => exact absurd (List.cons.inj heq).1 hi
  · next heq => exact absurd (List.cons.inj heq).1 hn
  · rfl

theorem number?_of_isDigit (hc : c.isDigit = true) (hzero : c ≠ '0') :
    number? (c :: rest) = unsignedNumber? false (c :: rest) := by
  -- a digit is no sign, and only a zero could open the mark of a base
  have hminus : c ≠ '-' := ne_of_kind hc (by decide)
  have hplus : c ≠ '+' := ne_of_kind hc (by decide)
  unfold number?
  split <;> simp_all

theorem value?_of_isDigit (depth : Nat) (hc : c.isDigit = true) :
    value? depth (c :: rest) =
      match moment? (c :: rest) with
      | some result => some result
      | none => number? (c :: rest) := by
  -- a digit opens no array, no inline table, no truth value and no string
  have hlist : c ≠ '[' := ne_of_kind hc (by decide)
  have htable : c ≠ '\x7b' := ne_of_kind hc (by decide)
  have htrue : c ≠ 't' := ne_of_kind hc (by decide)
  have hfalse : c ≠ 'f' := ne_of_kind hc (by decide)
  have hbasic : c ≠ '"' := ne_of_kind hc (by decide)
  have hliteral : c ≠ '\'' := ne_of_kind hc (by decide)
  unfold value?
  split
  · next heq => exact absurd (List.cons.inj heq).1 hlist
  · next heq => exact absurd (List.cons.inj heq).1 htable
  · next heq => exact absurd (List.cons.inj heq).1 htrue
  · next heq => exact absurd (List.cons.inj heq).1 hfalse
  · next heq =>
      obtain ⟨rfl, rfl⟩ := List.cons.inj heq
      refine (if_neg (by simp [hbasic, hliteral])).trans ?_
      rfl
  · next heq => exact absurd heq (List.cons_ne_nil _ _)

end FirstDigit

/-- A date stands on four digits and a dash. -/
theorem dropWhile_isDigit_of_date? {cs after : List Char} (h : date? cs = some after) :
    ∃ more, cs.dropWhile Char.isDigit = '-' :: more := by
  unfold date? at h
  split at h
  · next a b c d more =>
      split at h
      · next hdigits =>
          refine ⟨more, ?_⟩
          simp only [List.all_cons, List.all_nil, Bool.and_true, Bool.and_eq_true] at hdigits
          simp [hdigits]
      · exact absurd h (by simp)
  · exact absurd h (by simp)

theorem twoDigits?_eq_some {low high n : Nat} {cs after : List Char} (h : twoDigits? low high cs = some (n, after)) :
    ∃ a b, cs = a :: b :: after ∧ a.isDigit = true ∧ b.isDigit = true := by
  unfold twoDigits? at h
  split at h
  · next a b more =>
      dsimp only at h
      split at h
      · next hall =>
          simp only [Bool.and_eq_true] at hall
          cases h
          exact ⟨a, b, rfl, hall.1.1.1, hall.1.1.2⟩
      · exact absurd h (by simp)
  · exact absurd h (by simp)

/-- A time of day stands on two digits and a colon. -/
theorem dropWhile_isDigit_of_time? {cs after : List Char} (h : time? cs = some after) :
    ∃ more, cs.dropWhile Char.isDigit = ':' :: more := by
  unfold time? at h
  split at h
  · next hour more hhour =>
      obtain ⟨a, b, rfl, ha, hb⟩ := twoDigits?_eq_some hhour
      refine ⟨more, ?_⟩
      simp [ha, hb]
  · exact absurd h (by simp)

theorem dropWhile_isDigit_toDigits (n : Nat) (hrest : AtLineEnd rest) :
    (Nat.toDigits 10 n ++ rest).dropWhile Char.isDigit = rest := by
  rw [List.dropWhile_append_of_pos fun c hc => isDigit_of_mem_toDigits hc]
  cases hrest <;> rfl

/-- Digits up to the end of a line are no date and no time. -/
theorem moment?_toDigits (n : Nat) (hrest : AtLineEnd rest) : moment? (Nat.toDigits 10 n ++ rest) = none := by
  have hdrop := dropWhile_isDigit_toDigits n hrest
  unfold moment?
  -- either would have to go on behind its first digits, where the line ends
  cases hdate : date? (Nat.toDigits 10 n ++ rest) with
  | some after =>
      obtain ⟨more, hmore⟩ := dropWhile_isDigit_of_date? hdate
      exact absurd (hdrop.symm.trans hmore) (hrest.ne_cons (by decide) more)
  | none =>
      cases htime : time? (Nat.toDigits 10 n ++ rest) with
      | some after =>
          obtain ⟨more, hmore⟩ := dropWhile_isDigit_of_time? htime
          exact absurd (hdrop.symm.trans hmore) (hrest.ne_cons (by decide) more)
      | none => rfl

/-- Digits up to the end of a line have no fraction and no exponent. -/
theorem numberTail?_of_atLineEnd (negative : Bool) (ds : List Char) (hrest : AtLineEnd rest) :
    numberTail? negative ds rest = (integerOf? negative (Decimal.ofDigits ds)).map fun node => (node, rest) := by
  cases hrest <;> rfl

theorem number?_toDigits {n : Nat} (hn : n ≤ 9223372036854775807) (hrest : AtLineEnd rest) :
    number? (Nat.toDigits 10 n ++ rest) = some (.integer n, rest) := by
  have hfits : integerOf? false (Decimal.ofDigits (Nat.toDigits 10 n)) = some (.integer n) := by
    rw [ofDigits_toDigits]
    exact if_pos (Nat.lt_succ_of_le hn)
  rcases Nat.eq_zero_or_pos n with rfl | hpos
  · -- a zero before the end of a line is not the mark of another base
    cases hrest <;> rfl
  · obtain ⟨c, ds, hds, hzero⟩ := toDigits_eq_cons hpos
    have hc : c.isDigit = true := isDigit_of_mem_toDigits (hds ▸ List.mem_cons_self)
    have hrun := decimalRun?_toDigits n hrest
    have htail := numberTail?_of_atLineEnd false (Nat.toDigits 10 n) hrest
    rw [hfits] at htail
    rw [hds, List.cons_append] at hrun ⊢
    rw [hds] at htail
    rw [number?_of_isDigit hc hzero, unsignedNumber?_of_isDigit false hc, hrun]
    exact htail

/-- **A printed integer is read back**, and nothing of what follows it. -/
theorem value?_toDigits (depth : Nat) {n : Nat} (hn : n ≤ 9223372036854775807) (hrest : AtLineEnd rest) :
    value? depth (Nat.toDigits 10 n ++ rest) = some (.integer n, rest) := by
  have hmoment := moment?_toDigits n hrest
  have hnumber := number?_toDigits hn hrest
  cases hds : Nat.toDigits 10 n with
  | nil => exact absurd hds Nat.toDigits_ne_nil
  | cons c ds =>
      have hc : c.isDigit = true := isDigit_of_mem_toDigits (hds ▸ List.mem_cons_self)
      rw [hds, List.cons_append] at hmoment hnumber
      rw [List.cons_append, value?_of_isDigit depth hc, hmoment, hnumber]

/-! ## Lines -/

/-- An entry that is written on a line: a bare key, and an integer that fits. -/
structure Writable (entry : String × Nat) : Prop where
  nonempty : entry.1.toList ≠ []
  bare : ∀ c ∈ entry.1.toList, isBare c = true
  fits : entry.2 ≤ 9223372036854775807

/-- The line of an entry. -/
def line (entry : String × Nat) : List Char :=
  entry.1.toList ++ ' ' :: '=' :: ' ' :: Nat.toDigits 10 entry.2

/-- What the line of an entry says. -/
def assignment (entry : String × Nat) : Statement :=
  .assign [] entry.1 (.integer entry.2)

variable {entry : String × Nat}

/-- The first character of a key. -/
theorem Writable.key_eq_cons (h : Writable entry) :
    ∃ c cs, entry.1 = String.ofList (c :: cs) ∧ ∀ d ∈ c :: cs, isBare d = true := by
  cases hkey : entry.1.toList with
  | nil => exact absurd hkey h.nonempty
  | cons c cs =>
      have hbare := h.bare
      rw [hkey] at hbare
      refine ⟨c, cs, ?_, hbare⟩
      rw [← hkey, String.ofList_toList]

section FirstLetter

variable {c : Char} {cs : List Char}

theorem blank_of_isBare (hc : isBare c = true) (rest : List Char) : blank (c :: rest) = c :: rest := by
  have hspace : c ≠ ' ' := ne_of_kind hc (by decide)
  have htab : c ≠ '\t' := ne_of_kind hc (by decide)
  simp [blank, isBlank, hspace, htab]

/-- A bare key ends at a blank. -/
theorem simpleKey?_append (hbare : ∀ d ∈ c :: cs, isBare d = true) (rest : List Char) :
    simpleKey? (c :: (cs ++ ' ' :: rest)) = some (String.ofList (c :: cs), ' ' :: rest) := by
  have hc : isBare c = true := hbare c List.mem_cons_self
  have hbasic : c ≠ '"' := ne_of_kind hc (by decide)
  have hliteral : c ≠ '\'' := ne_of_kind hc (by decide)
  have htake : (c :: (cs ++ ' ' :: rest)).takeWhile isBare = c :: cs := by
    rw [← List.cons_append, List.takeWhile_append_of_pos hbare]
    exact List.append_nil _
  have hdrop : (c :: (cs ++ ' ' :: rest)).dropWhile isBare = ' ' :: rest := by
    rw [← List.cons_append, List.dropWhile_append_of_pos hbare]
    rfl
  unfold simpleKey?
  split
  · next heq => exact absurd (List.cons.inj heq).1 hbasic
  · next heq => exact absurd (List.cons.inj heq).1 hliteral
  · rw [htake, hdrop]
    rfl

/-- A bare key before an equals sign is all of the key. -/
theorem key?_append (hbare : ∀ d ∈ c :: cs, isBare d = true) (rest : List Char) :
    key? (c :: (cs ++ ' ' :: '=' :: rest)) = some (([], String.ofList (c :: cs)), '=' :: rest) := by
  -- the key has a single part, and the equals sign is no dot that another one could follow
  have hparts : keyParts? (nestingLimit - 1) (c :: (cs ++ ' ' :: '=' :: rest))
      = some ([String.ofList (c :: cs)], '=' :: rest) := by
    show keyParts? (78 + 1) _ = _
    rw [keyParts?, blank_of_isBare (hbare c List.mem_cons_self), simpleKey?_append hbare]
    rfl
  rw [key?, hparts]
  rfl

/-- A key, an equals sign and a value are an assignment up to the end of the line. -/
theorem statement?_of_value? {path : List String} {key : String} {node : Node} {after : List Char} (hc : c ≠ '[')
    (hkey : key? (c :: cs) = some ((path, key), '=' :: after))
    (hvalue : value? (nestingLimit - 1) (blank after) = some (node, rest)) :
    statement? (c :: cs) = (lineEnd? rest).map fun rest => (.assign path key node, rest) := by
  unfold statement?
  split
  · next heq => exact absurd (List.cons.inj heq).1 hc
  · next heq => exact absurd (List.cons.inj heq).1 hc
  · split
    · next heq =>
        rw [hkey] at heq
        cases heq
        rw [hvalue]
    · next hnot => exact absurd hkey (hnot path key after)

/-- **A line with an integer is an assignment** to its key. -/
theorem statement?_append (hbare : ∀ d ∈ c :: cs, isBare d = true) {n : Nat} (hn : n ≤ 9223372036854775807)
    (hrest : AtLineEnd rest) :
    statement? (c :: (cs ++ ' ' :: '=' :: ' ' :: (Nat.toDigits 10 n ++ rest)))
      = (lineEnd? rest).map fun after => (.assign [] (String.ofList (c :: cs)) (.integer n), after) := by
  have hopen : c ≠ '[' := ne_of_kind (hbare c List.mem_cons_self) (by decide)
  have hblank : blank (' ' :: (Nat.toDigits 10 n ++ rest)) = Nat.toDigits 10 n ++ rest := by
    cases hds : Nat.toDigits 10 n with
    | nil => exact absurd hds Nat.toDigits_ne_nil
    | cons d ds =>
        have hdigit : d.isDigit = true := isDigit_of_mem_toDigits (hds ▸ List.mem_cons_self)
        have hd : isBare d = true := by simp [isBare, Char.isAlphanum, hdigit]
        show blank (d :: (ds ++ rest)) = _
        exact blank_of_isBare hd _
  apply statement?_of_value? hopen (key?_append hbare _)
  rw [hblank]
  exact value?_toDigits _ hn hrest

end FirstLetter

/-! ## Documents -/

/-- The texts with one line for each entry. The last line may end with the text. -/
inductive Spells : List (String × Nat) → List Char → Prop where
  | nothing : Spells [] []
  | last (entry : String × Nat) : Spells [entry] (line entry)
  | next (entry : String × Nat) {entries : List (String × Nat)} {cs : List Char} :
      Spells entries cs → Spells (entry :: entries) (line entry ++ '\n' :: cs)

variable {entries : List (String × Nat)} {cs : List Char}

/-- One line of a document, and the lines that follow. -/
theorem Writable.statements?_line (h : Writable entry) (hrest : AtLineEnd rest) (fuel : Nat) :
    statements? (fuel + 1) (line entry ++ rest)
      = (lineEnd? rest).bind fun after => (statements? fuel after).map (assignment entry :: ·) := by
  obtain ⟨c, cs, hkey, hbare⟩ := h.key_eq_cons
  have hc : isBare c = true := hbare c List.mem_cons_self
  have hline : line entry ++ rest = c :: (cs ++ ' ' :: '=' :: ' ' :: (Nat.toDigits 10 entry.2 ++ rest)) := by
    rw [line, hkey, String.toList_ofList]
    simp
  have hstatement := statement?_append hbare h.fits hrest
  have hfeed : c ≠ '\n' := ne_of_kind hc (by decide)
  have hreturn : c ≠ '\r' := ne_of_kind hc (by decide)
  have hcomment : c ≠ '#' := ne_of_kind hc (by decide)
  -- the line is not empty, and it is no comment
  rw [hline, statements?, blank_of_isBare hc]
  split
  · next heq => exact absurd heq (List.cons_ne_nil _ _)
  · next heq => exact absurd (List.cons.inj heq).1 hfeed
  · next heq => exact absurd (List.cons.inj heq).1 hreturn
  · next heq => exact absurd (List.cons.inj heq).1 hcomment
  · rw [hstatement, ← hkey]
    cases lineEnd? rest <;> rfl

/-- A document does not start with a byte order mark. -/
theorem Spells.ne_mark (h : Spells entries cs) (hall : ∀ entry ∈ entries, Writable entry) (rest : List Char) :
    cs ≠ '\ufeff' :: rest := by
  have hline : ∀ entry after, Writable entry → line entry ++ after ≠ '\ufeff' :: rest := by
    intro entry after hentry heq
    obtain ⟨c, more, hkey, hbare⟩ := hentry.key_eq_cons
    have hmark : c ≠ '\ufeff' := ne_of_kind (hbare c List.mem_cons_self) (by decide)
    rw [line, hkey, String.toList_ofList] at heq
    exact hmark (List.cons.inj heq).1
  cases h with
  | nothing => exact (List.cons_ne_nil _ _).symm
  | last entry =>
      rw [← List.append_nil (line entry)]
      exact hline entry [] (hall entry List.mem_cons_self)
  | next entry _ => exact hline entry _ (hall entry List.mem_cons_self)

/-- **The statements of a document** are the assignments of its entries. -/
theorem statements?_of_spells (h : Spells entries cs) (hall : ∀ entry ∈ entries, Writable entry) {fuel : Nat}
    (hfuel : cs.length < fuel) : statements? fuel cs = some (entries.map assignment) := by
  induction h generalizing fuel with
  | nothing =>
      obtain ⟨fuel, rfl⟩ := Nat.exists_eq_add_one.mpr hfuel
      rfl
  | last entry =>
      -- one round for the line, and one for the end of the text
      obtain ⟨fuel, rfl⟩ : ∃ more, fuel = more + 1 + 1 := by
        refine ⟨fuel - 2, ?_⟩
        rw [line, List.length_append, List.length_cons] at hfuel
        omega
      have hline := (hall entry List.mem_cons_self).statements?_line .text (fuel + 1)
      rw [List.append_nil] at hline
      exact hline
  | next entry _ ih =>
      -- the line takes a character at least, so there is fuel for the rest
      obtain ⟨fuel, rfl⟩ := Nat.exists_eq_add_one.mpr (Nat.zero_lt_of_lt hfuel)
      rw [(hall entry List.mem_cons_self).statements?_line (.line _) fuel]
      show (statements? fuel _).map _ = _
      rw [ih (fun e he => hall e (List.mem_cons_of_mem _ he)) (by simp at hfuel; omega)]
      rfl

/-- The table of entries. -/
def integers (entries : List (String × Nat)) : Table :=
  entries.map fun entry => (entry.1, .integer entry.2)

/-- Assignments to new keys add their entries to the table that is being filled. -/
theorem foldlM_assignment (t : Table) (hnodup : (entries.map Prod.fst).Nodup)
    (hnew : ∀ key ∈ entries.map Prod.fst, t.find? key = none) :
    (entries.map assignment).foldlM Builder.add? ⟨[], .root, t⟩ = some ⟨[], .root, t ++ integers entries⟩ := by
  -- by induction over the entries; those that were added join the table that the others have to be new in
  induction entries generalizing t with
  | nil =>
      show some _ = some (Builder.mk [] .root (t ++ []))
      rw [List.append_nil]
  | cons entry entries ih =>
      rw [List.map_cons, List.nodup_cons] at hnodup
      have hnone : t.find? entry.1 = none := hnew entry.1 List.mem_cons_self
      have hadd : Builder.add? ⟨[], .root, t⟩ (assignment entry)
          = some ⟨[], .root, t ++ [(entry.1, .integer entry.2)]⟩ := by
        simp [assignment, Builder.add?, Table.assign, Table.update, Table.visit, hnone]
      rw [List.map_cons, List.foldlM_cons, hadd]
      refine (ih _ hnodup.2 ?_).trans ?_
      · intro key hkey
        have hne : key ≠ entry.1 := fun heq => hnodup.1 (heq ▸ hkey)
        rw [Table.find?_append_of_none (hnew key (List.mem_cons_of_mem _ hkey))]
        exact Table.find?_cons_of_ne hne
      · rw [List.append_assoc]
        rfl

/-- **A document of integers is read as the table of its entries.** -/
theorem parse?_of_spells {text : String} (h : Spells entries text.toList) (hall : ∀ entry ∈ entries, Writable entry)
    (hnodup : (entries.map Prod.fst).Nodup) : parse? text = some (integers entries) := by
  have hstatements := statements?_of_spells h hall (Nat.lt_add_one _)
  have htable : Table.ofStatements? (entries.map assignment) = some (integers entries) := by
    rw [Table.ofStatements?, Builder.start, foldlM_assignment [] hnodup fun _ _ => rfl]
    rfl
  unfold parse?
  dsimp only
  split
  · next heq => exact absurd heq (h.ne_mark hall _)
  · rw [hstatements]
    exact htable

/-! ## Printing -/

/-- Entries as the fields of a record. -/
def plain (entries : List (String × Nat)) : List (String × Plain) :=
  entries.map fun entry => (entry.1, .integer entry.2)

theorem lines_plain (entries : List (String × Nat)) :
    ∃ text, lines (plain entries) = .ok text ∧ Spells entries text.toList := by
  induction entries with
  | nil => exact ⟨"", rfl, .nothing⟩
  | cons entry entries ih =>
      obtain ⟨others, hothers, hspells⟩ := ih
      have hshown : toString (entry.2 : Int) = String.ofList (Nat.toDigits 10 entry.2) :=
        Nat.toString_eq_ofList_toDigits
      refine ⟨entry.1 ++ " = " ++ toString (entry.2 : Int) ++ "\n" ++ others, ?_, ?_⟩
      · show (Plain.print (.integer entry.2)).bind _ = _
        rw [show lines (List.map _ entries) = .ok others from hothers]
        rfl
      · have htext : (entry.1 ++ " = " ++ toString (entry.2 : Int) ++ "\n" ++ others).toList
            = line entry ++ '\n' :: others.toList := by
          simp [line, hshown]
        rw [htext]
        exact .next entry hspells

theorem fits_integer_iff (n : Nat) : (Plain.integer n).fits = true ↔ n ≤ 9223372036854775807 := by
  simp only [Plain.fits, Bool.and_eq_true, decide_eq_true_eq]
  omega

theorem all_fits_plain_iff :
    ((plain entries).all fun field => field.2.fits) = true ↔ ∀ entry ∈ entries, entry.2 ≤ 9223372036854775807 := by
  rw [plain, List.all_map, List.all_eq_true]
  exact forall₂_congr fun entry _ => fits_integer_iff entry.2

/-- **A record of integers is printed if all of them fit**, on one line for each. -/
theorem document_plain (hfits : ∀ entry ∈ entries, entry.2 ≤ 9223372036854775807) :
    ∃ text, document (plain entries) = .ok text ∧ Spells entries text.toList := by
  obtain ⟨text, htext, hspells⟩ := lines_plain entries
  have hdocument : document (plain entries) = (lines (plain entries)).mapError .aborted :=
    if_pos (all_fits_plain_iff.mpr hfits)
  refine ⟨text, ?_, hspells⟩
  rw [hdocument, htext]
  rfl

/-- Nothing is printed of a record with an integer that does not fit. -/
theorem document_plain_outOfRange (hover : ∃ entry ∈ entries, 9223372036854775807 < entry.2) :
    document (plain entries) = .error .outOfRange := by
  refine if_neg fun hall => ?_
  obtain ⟨entry, hentry, hlt⟩ := hover
  exact absurd (all_fits_plain_iff.mp hall entry hentry) (Nat.not_le_of_lt hlt)

end SampleProfiler.Toml
