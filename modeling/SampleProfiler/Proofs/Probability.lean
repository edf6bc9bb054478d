import Mathlib.Algebra.Order.Field.Basic
import Mathlib.Algebra.Order.Field.Power
import Mathlib.Tactic.Linarith
import Mathlib.Tactic.NormNum
import SampleProfiler.Decimal.Binary
import SampleProfiler.Load.Plan

/-!
# `SampleProfiler.Proofs.Probability` — rates that are probabilities

A plan asks of its rate of failures that it compares as at least zero and at most one. Comparisons of floating-point
numbers look at signs, exponents and mantissas. This module takes them to the rational numbers: the rates that pass
are those whose exact value lies between zero and one, both ends and the negative zero included, and nothing else
does, infinities and NaN least of all.

## Contents
- **Values.** `Exact.value?`, the rational number that a floating-point number stands for.
- **Unpacking.** `exact_eq_ofUnpacked`: the exact value is what the bits are unpacked to; `canonical_of_unpack`.
- **Comparing with one.** `mul_zpow_le_one_iff` for the values, `compare_one_iff` for the unpacked numbers.
- **Probabilities.** `isProbability_iff`.
-/

namespace SampleProfiler

open Float.Model

namespace Decimal

/-! ## Values -/

/-- The rational number that a floating-point number stands for. -/
def Exact.value? : Exact → Option ℚ
  | .finite negative mantissa exponent => some ((if negative then -1 else 1) * (mantissa * 2 ^ exponent))
  | _ => none

/-! ## Unpacking -/

/-- True for the sign of a negative number. -/
def isNegative : UnpackedFloat.Sign → Bool
  | .negative => true
  | .positive => false

/-- An unpacked number as its exact value. -/
def ofUnpacked : UnpackedFloat → Exact
  | .notANumber => .nan
  | .infinity sign => .infinite (isNegative sign)
  | .zero sign => .finite (isNegative sign) 0 (-1074)
  | .finite sign mantissa exponent _ => .finite (isNegative sign) mantissa exponent

section Fields

variable (bits : BitVec 64)

theorem toNat_unpackExponent :
    (@UnpackedFloat.unpackExponent .binary64 bits).toNat = bits.toNat / 2 ^ 52 % 2 ^ 11 := by
  rw [← Nat.shiftRight_eq_div_pow]
  exact BitVec.extractLsb_toNat 62 52 bits

theorem toNat_unpackMantissa :
    (@UnpackedFloat.unpackMantissa .binary64 bits).toNat = bits.toNat % 2 ^ 52 :=
  BitVec.extractLsb_toNat 51 0 bits

theorem isNegative_unpackSign :
    isNegative (.ofBitVec (@UnpackedFloat.unpackSign .binary64 bits)) = (bits.toNat / 2 ^ 63 == 1) := by
  have hsign : (@UnpackedFloat.unpackSign .binary64 bits).toNat = bits.toNat / 2 ^ 63 := by
    have hextract : (@UnpackedFloat.unpackSign .binary64 bits).toNat = bits.toNat >>> 63 % 2 :=
      BitVec.extractLsb_toNat 63 63 bits
    have hlt := bits.isLt
    rw [hextract, Nat.shiftRight_eq_div_pow]
    omega
  have hone : ∀ sign : BitVec 1, isNegative (.ofBitVec sign) = (sign.toNat == 1) := by decide
  rw [hone, hsign]

/-- A normal number has an implicit leading bit. -/
theorem toNat_append_mantissa (mantissa : BitVec 52) : (1#1 ++ mantissa).toNat = 2 ^ 52 + mantissa.toNat := by
  rw [BitVec.toNat_append, ← Nat.shiftLeft_add_eq_or_of_lt mantissa.isLt]
  rfl

end Fields

/-- **The exact value** of a number is what its bits are unpacked to. -/
theorem exact_eq_ofUnpacked (x : Float) : exact x = ofUnpacked x.toModel.unpack := by
  let bits : BitVec 64 := x.toBits.toBitVec
  let exponent := @UnpackedFloat.unpackExponent .binary64 bits
  let mantissa := @UnpackedFloat.unpackMantissa .binary64 bits
  have hexponent : exponent.toNat = bits.toNat / 2 ^ 52 % 2 ^ 11 := toNat_unpackExponent bits
  have hmantissa : mantissa.toNat = bits.toNat % 2 ^ 52 := toNat_unpackMantissa bits
  have hexact : exact x =
      if exponent.toNat = 2047 then
        if mantissa.toNat = 0 then .infinite (bits.toNat / 2 ^ 63 == 1) else .nan
      else if exponent.toNat = 0 then .finite (bits.toNat / 2 ^ 63 == 1) mantissa.toNat (-1074)
      else .finite (bits.toNat / 2 ^ 63 == 1) (2 ^ 52 + mantissa.toNat) (exponent.toNat - 1075) := by
    rw [hexponent, hmantissa]
    rfl
  rw [hexact, ← isNegative_unpackSign, ← toNat_append_mantissa]
  have htop : exponent.toNat = 2047 ↔ exponent = -1#11 := BitVec.toNat_inj (y := -1#11)
  have hbottom : exponent.toNat = 0 ↔ exponent = 0#11 := BitVec.toNat_inj (y := 0#11)
  have hzero : mantissa.toNat = 0 ↔ mantissa = 0#52 := BitVec.toNat_inj (y := 0#52)
  show _ = ofUnpacked (UnpackedFloat.unpack .binary64 bits)
  unfold UnpackedFloat.unpack
  by_cases hspecial : exponent = -1#11
  · rw [if_pos (htop.mpr hspecial), if_pos hspecial]
    by_cases hm : mantissa = 0#52
    · rw [if_pos (hzero.mpr hm), if_pos hm]
      rfl
    · rw [if_neg (hzero.not.mpr hm), if_neg hm]
      rfl
  · rw [if_neg (htop.not.mpr hspecial), if_neg hspecial]
    by_cases hsubnormal : exponent = 0#11
    · rw [if_pos (hbottom.mpr hsubnormal), if_pos hsubnormal]
      by_cases hm : mantissa = 0#52
      · rw [dif_pos hm, hzero.mpr hm]
        rfl
      · rw [dif_neg hm]
        show _ = Exact.finite _ mantissa.toNat ((exponent.toNat : ℤ) - 1075 + 1)
        rw [hbottom.mpr hsubnormal]
        rfl
    · rw [if_neg (hbottom.not.mpr hsubnormal), if_neg hsubnormal]
      rfl

/-- The mantissa of a finite number has its leading bit in a fixed place, unless the exponent is the least one. -/
theorem canonical_of_exact {x : Float} {negative : Bool} {mantissa : ℕ} {exponent : ℤ}
    (h : exact x = .finite negative mantissa exponent) :
    mantissa < 2 ^ 53 ∧ (exponent = -1074 ∨ 2 ^ 52 ≤ mantissa) := by
  have hfraction : x.toBits.toNat % twoTo 52 < 2 ^ 52 := Nat.mod_lt _ (by decide)
  have hleading : twoTo 52 = 2 ^ 52 := rfl
  unfold exact exactOfBits at h
  dsimp only at h
  split at h
  · split at h <;> cases h
  · split at h
    · cases h
      omega
    · cases h
      omega

/-! ## Comparing with one -/

/-- An unpacked number is at most one as soon as its exponent says so, and only at the exponent of one itself does
    the mantissa count. -/
theorem mul_zpow_le_one_iff {mantissa : ℕ} {exponent : ℤ} (hlt : mantissa < 2 ^ 53)
    (hcanonical : exponent = -1074 ∨ 2 ^ 52 ≤ mantissa) :
    (mantissa : ℚ) * 2 ^ exponent ≤ 1 ↔ exponent < -52 ∨ exponent = -52 ∧ mantissa ≤ 2 ^ 52 := by
  rcases lt_trichotomy exponent (-52) with hbelow | hone | habove
  · refine ⟨fun _ => Or.inl hbelow, fun _ => ?_⟩
    have hpow : (2 : ℚ) ^ exponent ≤ 2 ^ (-53 : ℤ) := zpow_le_zpow_right₀ one_le_two (by omega)
    have hcast : (mantissa : ℚ) ≤ 2 ^ 53 := by exact_mod_cast hlt.le
    calc (mantissa : ℚ) * 2 ^ exponent
        ≤ 2 ^ 53 * 2 ^ (-53 : ℤ) := mul_le_mul hcast hpow (by positivity) (by positivity)
      _ = 1 := by norm_num
  · have hcast : (mantissa : ℚ) ≤ 2 ^ 52 ↔ mantissa ≤ 2 ^ 52 := by exact_mod_cast Iff.rfl
    have hscale : (mantissa : ℚ) * 2 ^ exponent ≤ 1 ↔ (mantissa : ℚ) ≤ 2 ^ 52 := by
      rw [hone, zpow_neg, ← div_eq_mul_inv, div_le_one (by positivity)]
      norm_num
    rw [hscale, hcast]
    simp [hone]
  · refine ⟨fun hle => ?_, fun hno => by omega⟩
    have hleading : 2 ^ 52 ≤ mantissa := hcanonical.resolve_left (by omega)
    have hpow : (2 : ℚ) ^ (-51 : ℤ) ≤ 2 ^ exponent := zpow_le_zpow_right₀ one_le_two (by omega)
    have hcast : (2 : ℚ) ^ 52 ≤ mantissa := by exact_mod_cast hleading
    have htwo : (2 : ℚ) ^ 52 * 2 ^ (-51 : ℤ) ≤ mantissa * 2 ^ exponent :=
      mul_le_mul hcast hpow (by positivity) (by positivity)
    norm_num at htwo
    linarith

/-- How an unpacked positive number compares with one. -/
theorem compare_one_iff (exponent : ℤ) (mantissa : ℕ) :
    ((compare exponent (-52)).then (compare mantissa (2 ^ 52))).isLE = true ↔
      exponent < -52 ∨ exponent = -52 ∧ mantissa ≤ 2 ^ 52 := by
  rcases lt_trichotomy exponent (-52) with hbelow | hone | habove
  · simp [compare_lt_iff_lt.mpr hbelow, hbelow]
  · simp [hone, Nat.isLE_compare]
  · rw [compare_gt_iff_gt.mpr habove]
    simp
    omega

/-- One comparison of floating-point numbers, on the unpacked numbers. -/
theorem le_iff_compare (x y : Float) :
    x ≤ y ↔ (x.toModel.unpack.compare y.toModel.unpack).any Ordering.isLE = true := by
  show x.le y = true ↔ _
  unfold Float.le
  exact decide_eq_true_iff

end Decimal

/-! ## Probabilities -/

namespace Load.Plan

open Decimal

/-- **A rate is a probability** exactly if it stands for a rational number between zero and one. -/
theorem isProbability_iff (x : Float) :
    isProbability x = true ↔ ∃ q, (exact x).value? = some q ∧ 0 ≤ q ∧ q ≤ 1 := by
  have hzero : (0.0 : Float).toModel.unpack = .zero .positive := rfl
  have hone : (1.0 : Float).toModel.unpack = .finite .positive (2 ^ 52) (-52) (by decide) := rfl
  have hcanonical := @canonical_of_exact x
  unfold isProbability
  rw [Bool.and_eq_true, decide_eq_true_iff, decide_eq_true_iff, le_iff_compare, le_iff_compare, hzero, hone]
  rw [exact_eq_ofUnpacked] at hcanonical ⊢
  -- both comparisons are carried out case by case, and the value is written out
  cases hx : x.toModel.unpack with
  | notANumber =>
      show false = true ∧ false = true ↔ ∃ q : ℚ, none = some q ∧ 0 ≤ q ∧ q ≤ 1
      simp
  | infinity sign =>
      cases sign with
      | negative =>
          show false = true ∧ true = true ↔ ∃ q : ℚ, none = some q ∧ 0 ≤ q ∧ q ≤ 1
          simp
      | positive =>
          show true = true ∧ false = true ↔ ∃ q : ℚ, none = some q ∧ 0 ≤ q ∧ q ≤ 1
          simp
  | zero sign =>
      show true = true ∧ true = true ↔
        ∃ q : ℚ, some ((if isNegative sign then (-1 : ℚ) else 1) * (((0 : ℕ) : ℚ) * 2 ^ (-1074 : ℤ))) = some q ∧
          0 ≤ q ∧ q ≤ 1
      simp
  | finite sign mantissa exponent hpos =>
      have hnonzero : (0 : ℚ) < mantissa * 2 ^ exponent := by positivity
      cases sign with
      | negative =>
          show false = true ∧ true = true ↔
            ∃ q : ℚ, some (-1 * ((mantissa : ℚ) * 2 ^ exponent)) = some q ∧ 0 ≤ q ∧ q ≤ 1
          simp [hnonzero.not_ge]
      | positive =>
          rw [hx] at hcanonical
          obtain ⟨hlt, hleading⟩ := hcanonical rfl
          have hone := (compare_one_iff exponent mantissa).trans (mul_zpow_le_one_iff hlt hleading).symm
          show true = true ∧ ((compare exponent (-52)).then (compare mantissa (2 ^ 52))).isLE = true ↔
            ∃ q : ℚ, some (1 * ((mantissa : ℚ) * 2 ^ exponent)) = some q ∧ 0 ≤ q ∧ q ≤ 1
          simpa [hnonzero.le] using hone

end Load.Plan

end SampleProfiler
