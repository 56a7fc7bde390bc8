import UsbTrace.Library.FloatRound
import UsbTrace.Model.Output

/-!
# Doubles keep the order of what they stand for

`toDouble` is `roundTo` with 53 significant bits, so it is monotone and keeps the integers
below `2 ^ 53`.
-/

set_option autoImplicit false

namespace UsbTrace.Interface

open UsbTrace.Model UsbTrace.Library

theorem roundEven_bounds (q : ℚ) : ⌊q⌋ ≤ roundEven q ∧ roundEven q ≤ ⌊q⌋ + 1 := by
  unfold roundEven
  split
  · omega
  · split
    · omega
    · split <;> omega

/-- Rounding to the nearest integer keeps the order and the integers. -/
theorem roundEven_rounding : IntRounding roundEven where
  mono {x y} hxy := by
    rcases (Int.floor_le_floor hxy).eq_or_lt with hfloor | hfloor
    · -- between two integers it is a matter of the fraction
      have hfrac : x - ⌊y⌋ ≤ y - ⌊y⌋ := sub_le_sub_right hxy _
      unfold roundEven
      rw [hfloor]
      by_cases hx : x - ⌊y⌋ < 1 / 2
      · rw [if_pos hx]
        split
        · exact le_rfl
        · split
          · omega
          · split <;> omega
      · have hy : ¬y - ⌊y⌋ < 1 / 2 := fun h => hx (hfrac.trans_lt h)
        rw [if_neg hx, if_neg hy]
        by_cases hx' : x - ⌊y⌋ > 1 / 2
        · rw [if_pos hx', if_pos (hx'.trans_le hfrac)]
        · rw [if_neg hx']
          by_cases hy' : y - ⌊y⌋ > 1 / 2
          · rw [if_pos hy']
            split <;> omega
          · rw [if_neg hy']
    · have hx := (roundEven_bounds x).2
      have hy := (roundEven_bounds y).1
      omega
  intCast n := by
    rw [roundEven, Int.floor_intCast, sub_self, if_pos (by norm_num)]

theorem toDouble_eq (q : ℚ) : toDouble q = roundTo roundEven 52 q := rfl

theorem toDouble_pos {q : ℚ} (hq : 0 < q) : 0 < toDouble q :=
  (two_zpow_pos _).trans_le (binade_le_roundTo roundEven_rounding hq)

theorem toDouble_mono {x y : ℚ} (hx : 0 ≤ x) (hxy : x ≤ y) : toDouble x ≤ toDouble y :=
  roundTo_mono roundEven_rounding hx hxy

theorem toDouble_natCast {n : ℕ} (h : n < 2 ^ 53) : toDouble n = n :=
  roundTo_natCast roundEven_rounding h

/-- A mean of sums that fit stays between its extremes. -/
theorem toDouble_mean {least most count sum : ℕ} (hleast : 0 < least)
    (hlow : count * least ≤ sum) (hhigh : sum ≤ count * most) (hcount : 0 < count)
    (hsum : sum < 2 ^ 53) (hmost : most < 2 ^ 53) :
    (least : ℚ) ≤ toDouble (toDouble sum / toDouble count) ∧
      toDouble (toDouble sum / toDouble count) ≤ most :=
  roundTo_mean roundEven_rounding hleast hlow hhigh hcount hsum hmost

/-- A longer interval is a lower rate. -/
theorem fpsOf_anti {a b : UInt32} (ha : a ≠ 0) (hab : a ≤ b) : fpsOf b ≤ fpsOf a := by
  have hpos : 0 < a.toNat := Nat.pos_of_ne_zero fun h => ha (UInt32.toNat_inj.mp h)
  have hle : a.toNat ≤ b.toNat := UInt32.le_iff_toNat_le.mp hab
  have hb : b ≠ 0 := by
    rintro rfl
    exact absurd hle hpos.not_ge
  rw [fpsOf, if_pos hb, fpsOf, if_pos ha]
  refine toDouble_mono (div_nonneg (by norm_num) (Nat.cast_nonneg _)) ?_
  exact div_le_div_of_nonneg_left (by norm_num) (Nat.cast_pos.mpr hpos) (Nat.cast_le.mpr hle)

end UsbTrace.Interface
