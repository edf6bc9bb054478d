import Mathlib.Algebra.Order.Field.Basic
import Mathlib.Algebra.Order.Field.Power
import Mathlib.Tactic.FieldSimp
import Mathlib.Tactic.Linarith
import Mathlib.Tactic.Ring
import SampleProfiler.Decimal.Fixed
import SampleProfiler.Proofs.Probability

/-!
# `SampleProfiler.Proofs.Numerals` — numbers as text

What a reader of a report gets from the text of a number. No number is written with a gap in it, so a text cut at its
blanks gives the numbers whole (`Text.Numeral`). Integers are written in full. Fixed decimal places are rounded once,
so what is written is the nearest number that has so many places (`Decimal.writes_fixed`).

## Contents
- **Numerals.** `Text.Numeral`, of natural numbers and integers.
- **Rounding.** `roundEven_error`: half a unit at most.
- **Placing the point.** `placed_eq`, and `Writes`, the number that a text with decimal places stands for.
- **Fixed places.** `writes_fixed` and `numeral_fixed`.
-/

namespace SampleProfiler

namespace Text

/-! ## Numerals -/

/-- The characters that numbers are written with: digits, signs, points, and the letters of `inf` and `NaN`. -/
def isNumeric (c : Char) : Bool :=
  c.isAlphanum || c == '-' || c == '.'

/-- A text as numbers are written: it is not empty, and nothing in it could be taken for a gap. -/
structure Numeral (text : String) : Prop where
  ne_empty : text ≠ ""
  numeric : ∀ c ∈ text.toList, isNumeric c = true

theorem Numeral.notMem {text : String} (h : Numeral text) {c : Char} (hc : isNumeric c = false) :
    c ∉ text.toList := by
  intro hmem
  rw [h.numeric c hmem] at hc
  exact absurd hc (by decide)

theorem isNumeric_of_isDigit {c : Char} (h : c.isDigit = true) : isNumeric c = true := by
  simp [isNumeric, Char.isAlphanum, h]

/-- A sign may stand before a numeral. -/
theorem Numeral.signed {text : String} (h : Numeral text) (negative : Bool) :
    Numeral ((if negative then "-" else "") ++ text) := by
  cases negative with
  | false => simpa using h
  | true =>
      refine ⟨by simp [h.ne_empty], ?_⟩
      intro c hc
      rw [String.toList_append] at hc
      rcases List.mem_append.mp hc with hc | hc
      · have hminus : c = '-' := by simpa using hc
        rw [hminus]
        rfl
      · exact h.numeric c hc

theorem numeral_nat (n : ℕ) : Numeral (toString n) where
  ne_empty := by
    intro h
    have hlength : 0 < (toString n).length := Nat.length_repr_pos
    rw [h] at hlength
    exact absurd hlength (by decide)
  numeric := by
    intro c hc
    have hdigit : c ∈ Nat.toDigits 10 n := by
      rw [← Nat.toList_repr]
      exact hc
    exact isNumeric_of_isDigit (Nat.isDigit_of_mem_toDigits (by decide) (by decide) hdigit)

theorem numeral_int (z : ℤ) : Numeral (toString z) := by
  have hrepr : toString z = z.repr := rfl
  rw [hrepr, Int.repr_eq_if]
  split
  · exact numeral_nat z.toNat
  · exact (numeral_nat (-z).toNat).signed true

end Text

namespace Decimal

/-! ## Rounding -/

/-- A rounded quotient is at most half a unit off. -/
theorem roundEven_error (num : ℕ) {den : ℕ} (hden : 0 < den) : |(roundEven num den : ℚ) - num / den| ≤ 1 / 2 := by
  have hsplit : den * (num / den) + num % den = num := Nat.div_add_mod num den
  have hrest : num % den < den := Nat.mod_lt num hden
  have hnatural : 2 * num ≤ 2 * (den * roundEven num den) + den ∧
      2 * (den * roundEven num den) ≤ 2 * num + den := by
    unfold roundEven
    dsimp only
    split
    · omega
    · split
      · rw [Nat.mul_add, Nat.mul_one]
        omega
      · -- a tie is as far from the one neighbour as from the other
        rcases Nat.mod_two_eq_zero_or_one (num / den) with heven | hodd
        · rw [heven, Nat.add_zero]
          omega
        · rw [hodd, Nat.mul_add, Nat.mul_one]
          omega
  have hcast : (0 : ℚ) < den := by exact_mod_cast hden
  have hbelow : 2 * (num : ℚ) ≤ 2 * (den * roundEven num den) + den := by exact_mod_cast hnatural.1
  have habove : 2 * ((den : ℚ) * roundEven num den) ≤ 2 * num + den := by exact_mod_cast hnatural.2
  rw [abs_le, neg_le_sub_iff_le_add, sub_le_iff_le_add]
  constructor
  · rw [div_le_iff₀ hcast]
    linarith
  · rw [← sub_le_iff_le_add', le_div_iff₀ hcast]
    linarith

/-- The quotient that stands for a mantissa and a power of two. -/
theorem scaled_eq (mantissa : ℕ) (exponent : ℤ) :
    0 < (scaled mantissa exponent).2 ∧
      ((scaled mantissa exponent).1 : ℚ) / (scaled mantissa exponent).2 = mantissa * 2 ^ exponent := by
  refine ⟨Nat.pow_pos (by decide), ?_⟩
  have hnum : ((scaled mantissa exponent).1 : ℚ) = mantissa * 2 ^ exponent.toNat := by
    simp [scaled, twoTo]
  have hden : ((scaled mantissa exponent).2 : ℚ) = 2 ^ (-exponent).toNat := by
    simp [scaled, twoTo]
  rw [hnum, hden, mul_div_assoc, ← zpow_natCast, ← zpow_natCast, ← zpow_sub₀ two_ne_zero]
  congr 2
  omega

/-! ## Placing the point -/

/-- The digits before the point and those behind it. -/
theorem placed_eq (n places : ℕ) :
    ∃ whole fraction : List Char, whole ≠ [] ∧ fraction.length = places ∧
      (∀ c ∈ whole ++ fraction, c.isDigit = true) ∧
      placed n places = String.ofList whole ++ (if places = 0 then "" else "." ++ String.ofList fraction) ∧
      Nat.ofDigitChars 10 whole 0 * 10 ^ places + Nat.ofDigitChars 10 fraction 0 = n := by
  -- zeros in front make sure that there is a digit before the point
  let ds := List.replicate (places + 1 - (digits n).length) '0' ++ digits n
  have hlength : places + 1 ≤ ds.length := by
    rw [List.length_append, List.length_replicate]
    omega
  have hdigit : ∀ c ∈ ds, c.isDigit = true := by
    intro c hc
    rcases List.mem_append.mp hc with hc | hc
    · rw [(List.mem_replicate.mp hc).2]
      rfl
    · exact Nat.isDigit_of_mem_toDigits (by decide) (by decide) hc
  have hvalue : Nat.ofDigitChars 10 ds 0 = n := by
    rw [Nat.ofDigitChars_append, Nat.ofDigitChars_replicate_zero, Nat.mul_zero]
    exact Nat.ofDigitChars_ten_toDigits
  let whole := ds.take (ds.length - places)
  let fraction := ds.drop (ds.length - places)
  have hfraction : fraction.length = places := by
    rw [List.length_drop]
    omega
  refine ⟨whole, fraction, ?_, hfraction, ?_, ?_, ?_⟩
  · apply List.ne_nil_of_length_pos
    rw [List.length_take]
    omega
  · rw [List.take_append_drop]
    exact hdigit
  · unfold placed
    by_cases hplaces : places = 0
    · rw [if_pos hplaces, if_pos hplaces, String.append_empty]
    · rw [if_neg hplaces, if_neg hplaces, ← String.append_assoc]
  · -- the digits behind the point are read on top of those before it
    have hread : Nat.ofDigitChars 10 (whole ++ fraction) 0 = n := by
      rw [List.take_append_drop]
      exact hvalue
    rw [Nat.ofDigitChars_append, Nat.ofDigitChars_eq_ofDigitChars_zero, hfraction, Nat.mul_comm] at hread
    exact hread

theorem numeral_placed (n places : ℕ) : Text.Numeral (placed n places) := by
  obtain ⟨whole, fraction, hwhole, _, hdigits, hplaced, _⟩ := placed_eq n places
  rw [hplaced]
  refine ⟨by simp [hwhole], ?_⟩
  intro c hc
  have hmem : c ∈ whole ++ fraction ∨ c = '.' := by
    rw [List.mem_append]
    by_cases hplaces : places = 0
    · have hin : c ∈ whole := by simpa [hplaces] using hc
      exact Or.inl (Or.inl hin)
    · have hin : c ∈ whole ∨ c = '.' ∨ c ∈ fraction := by simpa [hplaces] using hc
      exact or_right_comm.mp (or_assoc.mpr hin)
  rcases hmem with hdigit | rfl
  · exact Text.isNumeric_of_isDigit (hdigits c hdigit)
  · rfl

/-- A text that writes a number with `places` decimal places: a sign if need be, at least one digit, and a point with so
    many digits behind it. -/
inductive Writes (places : ℕ) : String → ℚ → Prop where
  | digits (negative : Bool) (whole fraction : List Char) (hwhole : whole ≠ []) (hfraction : fraction.length = places)
      (hdigits : ∀ c ∈ whole ++ fraction, c.isDigit = true) :
      Writes places
        ((if negative then "-" else "") ++
          (String.ofList whole ++ (if places = 0 then "" else "." ++ String.ofList fraction)))
        ((if negative then -1 else 1) *
          (Nat.ofDigitChars 10 whole 0 + Nat.ofDigitChars 10 fraction 0 / 10 ^ places))

/-- A point set into a whole number divides it by a power of ten. -/
theorem writes_placed (negative : Bool) (n places : ℕ) :
    Writes places ((if negative then "-" else "") ++ placed n places)
      ((if negative then -1 else 1) * (n / 10 ^ places)) := by
  obtain ⟨whole, fraction, hwhole, hfraction, hdigits, hplaced, hvalue⟩ := placed_eq n places
  have hquotient : (n : ℚ) / 10 ^ places
      = Nat.ofDigitChars 10 whole 0 + Nat.ofDigitChars 10 fraction 0 / 10 ^ places := by
    rw [← hvalue]
    push_cast
    field_simp
  rw [hplaced, hquotient]
  exact .digits negative whole fraction hwhole hfraction hdigits

/-! ## Fixed places -/

/-- The exact value of a finite number is rounded once. -/
theorem fixed_of_finite {x : Float} {negative : Bool} {mantissa : ℕ} {exponent : ℤ}
    (h : exact x = .finite negative mantissa exponent) (places : ℕ) :
    fixed places x = (if negative then "-" else "") ++
      placed (roundEven ((scaled mantissa exponent).1 * tenTo places) (scaled mantissa exponent).2) places := by
  unfold fixed
  rw [h]

/-- **Fixed places are the nearest ones**: what is written differs from the number by half of the last place at most. -/
theorem writes_fixed {x : Float} {q : ℚ} (hq : (exact x).value? = some q) (places : ℕ) :
    ∃ shown, Writes places (fixed places x) shown ∧ |shown - q| ≤ 1 / 2 / 10 ^ places := by
  cases hx : exact x with
  | nan =>
      rw [hx] at hq
      cases hq
  | infinite negative =>
      rw [hx] at hq
      cases hq
  | finite negative mantissa exponent =>
      obtain ⟨hpos, hvalue⟩ := scaled_eq mantissa exponent
      rw [fixed_of_finite hx]
      generalize (scaled mantissa exponent).1 = num at hvalue ⊢
      generalize (scaled mantissa exponent).2 = den at hpos hvalue ⊢
      refine ⟨_, writes_placed negative (roundEven (num * tenTo places) den) places, ?_⟩
      have hsigned : q = (if negative then -1 else 1) * ((num : ℚ) / den) := by
        rw [hx] at hq
        rw [hvalue]
        exact (Option.some.inj hq).symm
      have hsign : |(if negative then -1 else 1 : ℚ)| = 1 := by
        cases negative <;> simp
      have hten : (0 : ℚ) < 10 ^ places := by positivity
      have herror := roundEven_error (num * tenTo places) hpos
      have hscaled : ((num * tenTo places : ℕ) : ℚ) / den = num / den * 10 ^ places := by
        simp [tenTo, mul_div_right_comm]
      rw [hscaled] at herror
      generalize roundEven (num * tenTo places) den = n at herror ⊢
      calc |(if negative then -1 else 1) * ((n : ℚ) / 10 ^ places) - q|
          = |(n : ℚ) / 10 ^ places - num / den| := by
            rw [hsigned, ← mul_sub, abs_mul, hsign, one_mul]
        _ = |(n : ℚ) - num / den * 10 ^ places| / 10 ^ places := by
            rw [eq_div_iff hten.ne', ← abs_of_pos hten, ← abs_mul, abs_of_pos hten, sub_mul,
              div_mul_cancel₀ _ hten.ne']
        _ ≤ 1 / 2 / 10 ^ places := div_le_div_of_nonneg_right herror hten.le

/-- A text with fixed places has no gaps, whatever number it is of. -/
theorem numeral_fixed (places : ℕ) (x : Float) : Text.Numeral (fixed places x) := by
  have hnan : Text.Numeral "NaN" := ⟨by decide, by simp [Text.isNumeric]⟩
  have hinfinite : Text.Numeral "inf" := ⟨by decide, by simp [Text.isNumeric]⟩
  cases hx : exact x with
  | nan =>
      unfold fixed
      rw [hx]
      exact hnan
  | infinite negative =>
      have htext : fixed places x = (if negative then "-" else "") ++ "inf" := by
        unfold fixed
        rw [hx]
        cases negative <;> rfl
      rw [htext]
      exact hinfinite.signed negative
  | finite negative mantissa exponent =>
      rw [fixed_of_finite hx]
      exact (numeral_placed _ places).signed negative

end Decimal

end SampleProfiler
