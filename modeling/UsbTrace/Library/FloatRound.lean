import Mathlib.Data.Int.Log
import Mathlib.Data.Rat.Floor

/-!
# Rounding to a binary format

`roundTo rnd d q` keeps `d + 1` significant bits of a nonnegative number, the last of them as
`rnd` rounds to integers.  Whatever rounding that is, the result keeps the order of the numbers
(`roundTo_mono`) and the integers that fit the format (`roundTo_natCast`), so that a mean
computed from sums that fit stays between the least and the greatest of what it is taken over
(`roundTo_mean`).
-/

set_option autoImplicit false

namespace UsbTrace.Library

/-- A rounding to integers keeps the order, and keeps integers. -/
structure IntRounding (rnd : ℚ → ℤ) : Prop where
  mono : ∀ {a b : ℚ}, a ≤ b → rnd a ≤ rnd b
  intCast : ∀ n : ℤ, rnd n = n

/-- `d + 1` significant bits of a nonnegative number. -/
def roundTo (rnd : ℚ → ℤ) (d : ℕ) (q : ℚ) : ℚ :=
  if q = 0 then 0 else rnd (q / 2 ^ (Int.log 2 q - d)) * 2 ^ (Int.log 2 q - d)

variable {rnd : ℚ → ℤ} {d : ℕ}

theorem roundTo_zero (rnd : ℚ → ℤ) (d : ℕ) : roundTo rnd d 0 = 0 := if_pos rfl

theorem roundTo_of_pos {q : ℚ} (hq : 0 < q) :
    roundTo rnd d q = rnd (q / 2 ^ (Int.log 2 q - d)) * 2 ^ (Int.log 2 q - d) := if_neg hq.ne'

theorem two_zpow_pos (e : ℤ) : (0 : ℚ) < 2 ^ e := zpow_pos two_pos e

/-- A rounded number does not fall below the binade of the number. -/
theorem binade_le_roundTo (hrnd : IntRounding rnd) {q : ℚ} (hq : 0 < q) :
    2 ^ Int.log 2 q ≤ roundTo rnd d q := by
  have hlow : ((2 ^ d : ℤ) : ℚ) ≤ q / 2 ^ (Int.log 2 q - d) := by
    rw [le_div_iff₀ (two_zpow_pos _), Int.cast_pow, Int.cast_ofNat, ← zpow_natCast,
      ← zpow_add₀ two_ne_zero, add_sub_cancel]
    exact Int.zpow_log_le_self one_lt_two hq
  have hint : ((2 ^ d : ℤ) : ℚ) ≤ rnd (q / 2 ^ (Int.log 2 q - d)) := by
    rw [← hrnd.intCast (2 ^ d)]
    exact Int.cast_le.mpr (hrnd.mono hlow)
  rw [roundTo_of_pos hq]
  calc (2 : ℚ) ^ Int.log 2 q = ((2 ^ d : ℤ) : ℚ) * 2 ^ (Int.log 2 q - d) := by
        rw [Int.cast_pow, Int.cast_ofNat, ← zpow_natCast, ← zpow_add₀ two_ne_zero, add_sub_cancel]
    _ ≤ _ := mul_le_mul_of_nonneg_right hint (two_zpow_pos _).le

/-- And does not pass the next one. -/
theorem roundTo_le_binade (hrnd : IntRounding rnd) {q : ℚ} (hq : 0 < q) :
    roundTo rnd d q ≤ 2 ^ (Int.log 2 q + 1) := by
  have hsplit : (2 : ℚ) ^ (Int.log 2 q + 1) =
      ((2 ^ (d + 1) : ℤ) : ℚ) * 2 ^ (Int.log 2 q - d) := by
    rw [Int.cast_pow, Int.cast_ofNat, ← zpow_natCast, ← zpow_add₀ two_ne_zero]
    congr 1
    push_cast
    ring
  have hhigh : q / 2 ^ (Int.log 2 q - d) ≤ ((2 ^ (d + 1) : ℤ) : ℚ) := by
    rw [div_le_iff₀ (two_zpow_pos _), ← hsplit]
    exact (Int.lt_zpow_succ_log_self one_lt_two q).le
  have hint : (rnd (q / 2 ^ (Int.log 2 q - d)) : ℚ) ≤ ((2 ^ (d + 1) : ℤ) : ℚ) := by
    rw [← hrnd.intCast (2 ^ (d + 1))]
    exact Int.cast_le.mpr (hrnd.mono hhigh)
  rw [roundTo_of_pos hq, hsplit]
  exact mul_le_mul_of_nonneg_right hint (two_zpow_pos _).le

theorem roundTo_nonneg (hrnd : IntRounding rnd) {q : ℚ} (hq : 0 ≤ q) : 0 ≤ roundTo rnd d q := by
  rcases hq.eq_or_lt with rfl | hq
  · rw [roundTo_zero]
  · exact (two_zpow_pos _).le.trans (binade_le_roundTo hrnd hq)

/-- **Rounding keeps the order.** -/
theorem roundTo_mono (hrnd : IntRounding rnd) {x y : ℚ} (hx : 0 ≤ x) (hxy : x ≤ y) :
    roundTo rnd d x ≤ roundTo rnd d y := by
  rcases hx.eq_or_lt with rfl | hx
  · rw [roundTo_zero]
    exact roundTo_nonneg hrnd hxy
  have hy := hx.trans_le hxy
  rcases (Int.log_mono_right (b := 2) hx hxy).eq_or_lt with hlog | hlog
  · -- one binade: the integers keep the order
    rw [roundTo_of_pos hx, roundTo_of_pos hy, hlog]
    refine mul_le_mul_of_nonneg_right (Int.cast_le.mpr (hrnd.mono ?_)) (two_zpow_pos _).le
    exact div_le_div_of_nonneg_right hxy (two_zpow_pos _).le
  · calc roundTo rnd d x ≤ 2 ^ (Int.log 2 x + 1) := roundTo_le_binade hrnd hx
      _ ≤ 2 ^ Int.log 2 y := zpow_le_zpow_right₀ one_le_two hlog
      _ ≤ roundTo rnd d y := binade_le_roundTo hrnd hy

/-- **Integers that fit are kept.** -/
theorem roundTo_natCast (hrnd : IntRounding rnd) {n : ℕ} (h : n < 2 ^ (d + 1)) :
    roundTo rnd d n = n := by
  rcases Nat.eq_zero_or_pos n with rfl | hn
  · rw [Nat.cast_zero, roundTo_zero]
  have hlog : Nat.log 2 n ≤ d := Nat.lt_succ_iff.mp (Nat.log_lt_of_lt_pow hn.ne' h)
  have hscale : (n : ℚ) / 2 ^ (Int.log 2 (n : ℚ) - d) = ((n * 2 ^ (d - Nat.log 2 n) : ℤ) : ℚ) := by
    rw [Int.log_natCast, ← neg_sub, zpow_neg, div_inv_eq_mul, ← Nat.cast_sub hlog, zpow_natCast]
    push_cast
    rfl
  rw [roundTo_of_pos (Nat.cast_pos.mpr hn), hscale, hrnd.intCast, ← hscale,
    div_mul_cancel₀ _ (two_zpow_pos _).ne']

/-- **A mean stays between its extremes**, where the sum fits the format. -/
theorem roundTo_mean (hrnd : IntRounding rnd) {least most count sum : ℕ} (hleast : 0 < least)
    (hlow : count * least ≤ sum) (hhigh : sum ≤ count * most) (hcount : 0 < count)
    (hsum : sum < 2 ^ (d + 1)) (hmost : most < 2 ^ (d + 1)) :
    (least : ℚ) ≤ roundTo rnd d (roundTo rnd d sum / roundTo rnd d count) ∧
      roundTo rnd d (roundTo rnd d sum / roundTo rnd d count) ≤ most := by
  have hcountq : (0 : ℚ) < count := Nat.cast_pos.mpr hcount
  have hcountsum : count ≤ sum := (Nat.le_mul_of_pos_right count hleast).trans hlow
  rw [roundTo_natCast hrnd hsum, roundTo_natCast hrnd (hcountsum.trans_lt hsum)]
  have hlowq : (least : ℚ) ≤ sum / count := by
    rw [le_div_iff₀ hcountq, mul_comm]
    exact_mod_cast hlow
  have hhighq : (sum : ℚ) / count ≤ most := by
    rw [div_le_iff₀ hcountq, mul_comm]
    exact_mod_cast hhigh
  constructor
  · have hfits : least ≤ sum := (Nat.le_mul_of_pos_left least hcount).trans hlow
    rw [← roundTo_natCast hrnd (hfits.trans_lt hsum)]
    exact roundTo_mono hrnd (Nat.cast_nonneg _) hlowq
  · have hpos : (0 : ℚ) ≤ sum / count := div_nonneg (Nat.cast_nonneg _) hcountq.le
    calc roundTo rnd d (sum / count) ≤ roundTo rnd d most := roundTo_mono hrnd hpos hhighq
      _ = most := roundTo_natCast hrnd hmost

end UsbTrace.Library
