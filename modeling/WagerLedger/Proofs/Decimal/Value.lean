import Mathlib.Algebra.Order.Field.Rat
import Mathlib.Data.Rat.Lemmas
import Mathlib.Tactic.FieldSimp
import Mathlib.Tactic.Linarith
import Mathlib.Tactic.Positivity
import Mathlib.Tactic.Ring
import WagerLedger.Ledger.Record

/-! # The number that a decimal stands for

Sign tests, negation and alignment read through `toRat`, and the check for the ledger's
places as a divisibility: an amount fits exactly when the places past the fourth are zeros. -/
namespace WagerLedger

theorem tenTo_add (a b : Nat) : tenTo (a + b) = tenTo a * tenTo b := Nat.pow_add 10 a b

theorem tenTo_cast (k : Nat) : (tenTo k : ℚ) = 10 ^ k := by simp [tenTo]

theorem tenTo_cast_int (k : Nat) : (tenTo k : ℤ) = 10 ^ k := by simp [tenTo]

theorem tenTo_dvd_tenTo {a b : Nat} (h : a ≤ b) : (tenTo a : ℤ) ∣ tenTo b := by
  rw [tenTo_cast_int, tenTo_cast_int]
  exact pow_dvd_pow 10 h

namespace Decimal

theorem toRat_eq (d : Decimal) : d.toRat = d.coefficient / 10 ^ d.scale := by
  rw [toRat, Rat.mkRat_eq_div, tenTo_cast]

theorem coefficient_eq (d : Decimal) : (d.coefficient : ℚ) = d.toRat * 10 ^ d.scale := by
  rw [toRat_eq]
  field_simp

theorem toRat_zero : Decimal.zero.toRat = 0 := by simp [toRat_eq, Decimal.zero]

@[simp] theorem toRat_neg (d : Decimal) : d.neg.toRat = -d.toRat := by
  simp only [toRat_eq, Decimal.neg, Int.cast_neg]
  ring

theorem neg_neg (d : Decimal) : d.neg.neg = d := by
  cases d
  simp [Decimal.neg]

theorem toRat_pos_iff (d : Decimal) : 0 < d.toRat ↔ 0 < d.coefficient := by
  rw [toRat_eq, div_pos_iff_of_pos_right (by positivity), Int.cast_pos]

theorem toRat_neg_iff (d : Decimal) : d.toRat < 0 ↔ d.coefficient < 0 := by
  rw [toRat_eq, div_neg_iff]
  have hp : (0 : ℚ) < 10 ^ d.scale := by positivity
  constructor
  · rintro (⟨-, h⟩ | ⟨h, -⟩)
    · exact absurd h hp.not_gt
    · exact_mod_cast h
  · intro h
    exact .inr ⟨by exact_mod_cast h, hp⟩

theorem isPositive_iff (d : Decimal) : d.isPositive = true ↔ 0 < d.toRat := by
  rw [toRat_pos_iff, isPositive, decide_eq_true_iff]

theorem isNegative_iff (d : Decimal) : d.isNegative = true ↔ d.toRat < 0 := by
  rw [toRat_neg_iff, isNegative, decide_eq_true_iff]

theorem isZero_iff (d : Decimal) : d.isZero = true ↔ d.toRat = 0 := by
  rw [isZero, beq_iff_eq, toRat_eq, div_eq_zero_iff]
  simp

theorem nonneg_iff (d : Decimal) : 0 ≤ d.toRat ↔ d.isNegative = false := by
  rw [Bool.eq_false_iff, ne_eq, isNegative_iff, not_lt]

theorem coefficient_nonneg {d : Decimal} (h : 0 ≤ d.toRat) : 0 ≤ d.coefficient := by
  rw [nonneg_iff, isNegative, decide_eq_false_iff_not] at h
  omega

theorem isNegative_neg (d : Decimal) : d.neg.isNegative = d.isPositive := by
  rw [Bool.eq_iff_iff, isNegative_iff, isPositive_iff, toRat_neg]
  constructor <;> intro h <;> linarith

theorem isZero_neg (d : Decimal) : d.neg.isZero = d.isZero := by
  rw [Bool.eq_iff_iff, isZero_iff, isZero_iff, toRat_neg, neg_eq_zero]

theorem isZero_of_isPositive {d : Decimal} (h : d.isPositive = true) : d.isZero = false := by
  rw [Bool.eq_false_iff, ne_eq, isZero_iff]
  exact ((isPositive_iff d).mp h).ne'

theorem coefficientAt_eq (d : Decimal) {s : Nat} (h : d.scale ≤ s) :
    (d.coefficientAt s : ℚ) = d.toRat * 10 ^ s := by
  obtain ⟨k, rfl⟩ := Nat.exists_eq_add_of_le h
  rw [coefficientAt, Int.cast_mul, coefficient_eq, Nat.add_sub_cancel_left, pow_add]
  push_cast [tenTo_cast]
  ring

theorem natAbs_lt_limit (d : Decimal) : d.coefficient.natAbs < limit := d.coefficient_lt

/-- Stripping gets down to four places exactly when all further ones are zeros. -/
theorem strip_le_iff (c : Int) (s : Nat) :
    (strip c s).2 ≤ ledgerScale ↔ (tenTo (s - ledgerScale) : ℤ) ∣ c := by
  induction s generalizing c with
  | zero => simp [strip, tenTo]
  | succ s ih =>
    rw [strip]
    by_cases hs : s + 1 ≤ ledgerScale
    · have hd : s + 1 - ledgerScale = 0 := by omega
      rw [hd]
      have hle : (strip (c / 10) s).2 ≤ ledgerScale :=
        (strip_scale_le _ _).trans (by omega)
      split <;> simp [tenTo, hle, hs]
    · have hd : s + 1 - ledgerScale = (s - ledgerScale) + 1 := by omega
      rw [hd, tenTo_succ, Nat.cast_mul]
      split
      case isTrue h0 =>
        rw [ih]
        obtain ⟨k, rfl⟩ := Int.dvd_of_emod_eq_zero h0
        rw [Int.mul_ediv_cancel_left _ (by decide), mul_comm]
        exact (Int.mul_dvd_mul_iff_left (by decide)).symm
      case isFalse h0 =>
        refine iff_of_false hs fun h => h0 ?_
        exact Int.emod_eq_zero_of_dvd ((Int.dvd_mul_left _ _).trans h)

theorem fitsLedger_iff (d : Decimal) :
    d.fitsLedger = true ↔ (tenTo (d.scale - ledgerScale) : ℤ) ∣ d.coefficient := by
  rw [fitsLedger, decide_eq_true_iff]
  exact strip_le_iff d.coefficient d.scale

theorem fitsLedger_neg (d : Decimal) : d.neg.fitsLedger = d.fitsLedger := by
  rw [Bool.eq_iff_iff, fitsLedger_iff, fitsLedger_iff]
  exact Int.dvd_neg

theorem fitsLedger_of_scale_le {d : Decimal} (h : d.scale ≤ ledgerScale) :
    d.fitsLedger = true := by
  rw [fitsLedger_iff, Nat.sub_eq_zero_of_le h]
  exact one_dvd _

theorem fitsLedger_zero : Decimal.zero.fitsLedger = true := fitsLedger_of_scale_le (Nat.zero_le _)

theorem dvd_coefficientAt {d : Decimal} (hd : d.fitsLedger = true) {s : Nat} (h : d.scale ≤ s) :
    (tenTo (s - ledgerScale) : ℤ) ∣ d.coefficientAt s := by
  rw [coefficientAt]
  by_cases hs : d.scale ≤ ledgerScale
  · exact (tenTo_dvd_tenTo (by omega)).trans (Int.dvd_mul_left _ _)
  · have he : s - ledgerScale = (d.scale - ledgerScale) + (s - d.scale) := by omega
    rw [he, tenTo_add, Nat.cast_mul]
    exact Int.mul_dvd_mul ((fitsLedger_iff d).mp hd) (Int.dvd_refl _)

end Decimal

end WagerLedger
