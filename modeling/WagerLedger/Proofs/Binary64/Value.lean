import Mathlib.Algebra.Order.Field.Power
import WagerLedger.Number.Binary64.Arithmetic
import WagerLedger.Proofs.Decimal.Faithful

/-! # The number that a double stands for

A finite double is an integer of at most 53 bits over a power of two; without a bound on the
exponent these numbers are the grid that results are rounded to. Tests and order of doubles
read through their numbers. -/
namespace WagerLedger

theorem twoTo_cast (k : Nat) : (twoTo k : ℚ) = 2 ^ k := by simp [twoTo]

namespace Binary64

def toRat (x : Binary64) : ℚ := x.toRat?.getD 0

/-- A number with a significand of at most 53 bits and no place past the last one. -/
def OnGrid (y : ℚ) : Prop :=
  ∃ (c : ℤ) (e : ℤ), |c| ≤ 9007199254740992 ∧ -1074 ≤ e ∧ y = c * 2 ^ e

theorem fraction_pos (m : Nat) (e : Int) : 0 < (fraction m e).2 := by
  cases e with
  | ofNat k => exact Nat.one_pos
  | negSucc k => exact twoTo_pos (k + 1)

theorem fraction_eq (m : Nat) (e : Int) :
    ((fraction m e).1 : ℚ) / (fraction m e).2 = m * 2 ^ e := by
  cases e with
  | ofNat k => simp [fraction, twoTo_cast]
  | negSucc k => simp [fraction, twoTo_cast, div_eq_mul_inv]

theorem coefficient_cast (n : Bool) (m : Nat) :
    (coefficient n m : ℚ) = if n then -(m : ℚ) else m := by
  cases n <;> simp [coefficient]

@[simp] theorem abs_coefficient (n : Bool) (m : Nat) : |coefficient n m| = m := by
  cases n <;> simp [coefficient]

theorem toRat_finite (n : Bool) (m : Nat) (e : Int) (h : Canonical m e) :
    (finite n m e h).toRat = coefficient n m * 2 ^ e := by
  have hfraction := fraction_eq m e
  simp only [toRat, toRat?, Option.getD_some, Rat.mkRat_eq_div, coefficient_cast]
  cases n
  · simpa using hfraction
  · simp only [if_true, Int.cast_neg, Int.cast_natCast, neg_div, hfraction, neg_mul]

@[simp] theorem toRat_zero (n : Bool) : (zero n).toRat = 0 := by
  rw [zero, toRat_finite]
  cases n <;> simp [coefficient]

@[simp] theorem isFinite_zero (n : Bool) : (zero n).isFinite = true := rfl

@[simp] theorem toRat_one : one.toRat = 1 := by
  rw [one, toRat_finite]
  norm_num [coefficient]

theorem toRat_neg (x : Binary64) : (-x).toRat = -x.toRat := by
  change x.neg.toRat = _
  cases x with
  | nan n => simp [Binary64.neg, toRat, toRat?]
  | infinity n => simp [Binary64.neg, toRat, toRat?]
  | finite n m e h =>
    rw [Binary64.neg, toRat_finite, toRat_finite, coefficient_cast, coefficient_cast]
    cases n <;> simp

theorem onGrid_zero : OnGrid 0 := ⟨0, 0, by simp, by omega, by simp⟩

theorem onGrid_natCast {n : Nat} (h : n ≤ 9007199254740992) : OnGrid n :=
  ⟨n, 0, by simpa using mod_cast h, by omega, by simp⟩

theorem onGrid_two_pow (k : Nat) : OnGrid (2 ^ k) :=
  ⟨1, k, by simp, by omega, by simp⟩

theorem onGrid_toRat (x : Binary64) : OnGrid x.toRat := by
  cases x with
  | nan n => exact onGrid_zero
  | infinity n => exact onGrid_zero
  | finite n m e h =>
    refine ⟨coefficient n m, e, ?_, h.2.1, toRat_finite n m e h⟩
    have hm := h.1
    rw [abs_coefficient]
    omega

theorem align_eq (c e d f : Int) :
    ((align c e d f).1 : ℚ) * 2 ^ (align c e d f).2.2 = c * 2 ^ e ∧
      ((align c e d f).2.1 : ℚ) * 2 ^ (align c e d f).2.2 = d * 2 ^ f := by
  have hshift : ∀ {k : Int}, min e f ≤ k → (2 : ℚ) ^ (k - min e f).toNat * 2 ^ min e f = 2 ^ k := by
    intro k hk
    rw [← zpow_natCast, ← zpow_add₀ (by norm_num)]
    congr 1
    omega
  simp only [align, Int.cast_mul, Int.cast_natCast, twoTo_cast, mul_assoc]
  rw [hshift (min_le_left e f), hshift (min_le_right e f)]
  exact ⟨rfl, rfl⟩

theorem compare?_finite {x y : Binary64} (hx : x.isFinite = true) (hy : y.isFinite = true) :
    compare? x y = some (compare x.toRat y.toRat) := by
  cases x with
  | nan n => cases hx
  | infinity n => cases hx
  | finite n m e h =>
    cases y with
    | nan k => cases hy
    | infinity k => cases hy
    | finite k l f h' =>
      obtain ⟨hc, hd⟩ := align_eq (coefficient n m) e (coefficient k l) f
      have hpos : (0 : ℚ) < 2 ^ (align (coefficient n m) e (coefficient k l) f).2.2 := by
        positivity
      rw [toRat_finite, toRat_finite, ← hc, ← hd]
      simp only [compare?]
      congr 1
      rcases lt_trichotomy (align (coefficient n m) e (coefficient k l) f).1
        (align (coefficient n m) e (coefficient k l) f).2.1 with hlt | heq | hgt
      · rw [compare_lt_iff_lt.mpr hlt, compare_lt_iff_lt.mpr]
        exact mul_lt_mul_of_pos_right (by exact_mod_cast hlt) hpos
      · rw [compare_eq_iff_eq.mpr heq, compare_eq_iff_eq.mpr (by rw [heq])]
      · rw [compare_gt_iff_gt.mpr hgt, compare_gt_iff_gt.mpr]
        exact mul_lt_mul_of_pos_right (by exact_mod_cast hgt) hpos

theorem atMost_iff {x y : Binary64} (hx : x.isFinite = true) (hy : y.isFinite = true) :
    x.atMost y = true ↔ x.toRat ≤ y.toRat := by
  rw [atMost, compare?_finite hx hy]
  rcases lt_trichotomy x.toRat y.toRat with hlt | heq | hgt
  · simp [compare_lt_iff_lt.mpr hlt, hlt.le]
  · simp [heq]
  · simp [compare_gt_iff_gt.mpr hgt, hgt]

theorem less_iff {x y : Binary64} (hx : x.isFinite = true) (hy : y.isFinite = true) :
    x.less y = true ↔ x.toRat < y.toRat := by
  rw [less, compare?_finite hx hy]
  rcases lt_trichotomy x.toRat y.toRat with hlt | heq | hgt
  · simp [compare_lt_iff_lt.mpr hlt, hlt]
  · simp [heq]
  · simp [compare_gt_iff_gt.mpr hgt, hgt.le]

theorem isFinite_of_inUnitInterval {x : Binary64} (h : x.inUnitInterval = true) :
    x.isFinite = true := by
  cases x with
  | nan n => simp [inUnitInterval, atMost, compare?, zero] at h
  | infinity n => cases n <;> simp [inUnitInterval, atMost, compare?, zero, one] at h
  | finite n m e h => rfl

theorem inUnitInterval_iff {x : Binary64} (h : x.isFinite = true) :
    x.inUnitInterval = true ↔ 0 ≤ x.toRat ∧ x.toRat ≤ 1 := by
  rw [inUnitInterval, Bool.and_eq_true, atMost_iff rfl h, atMost_iff h rfl, toRat_zero, toRat_one]

theorem least_finite {x y : Binary64} (hx : x.isFinite = true) (hy : y.isFinite = true) :
    (x.least y).isFinite = true ∧ (x.least y).toRat = min x.toRat y.toRat := by
  have hnan : ∀ {z : Binary64}, z.isFinite = true → z.isNan = false := by
    intro z hz
    cases z <;> first | rfl | cases hz
  simp only [least, hnan hx, hnan hy, Bool.false_eq_true, if_false, Bool.false_or]
  split
  · rename_i h
    exact ⟨hx, (min_eq_left ((atMost_iff hx hy).mp h)).symm⟩
  · rename_i h
    exact ⟨hy, (min_eq_right (not_le.mp fun hle => h ((atMost_iff hx hy).mpr hle)).le).symm⟩

theorem infinity_least {y : Binary64} (hy : y.isFinite = true) : (infinity false).least y = y := by
  cases y with
  | nan n => cases hy
  | infinity n => cases hy
  | finite n m e h => simp [least, isNan, atMost, compare?]

end Binary64

end WagerLedger
