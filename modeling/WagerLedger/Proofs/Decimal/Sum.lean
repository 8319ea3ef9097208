import WagerLedger.Proofs.Decimal.Value
import Mathlib.Algebra.Order.AbsoluteValue.Basic

/-! # What a sum of decimals loses

A sum keeps its scale unless its coefficient is too large there. So it has the sign of the
exact sum, it gets no place past the fourth that its operands did not have, and a result
that leaves room for four places is the exact sum. -/
namespace WagerLedger

theorem roundEven_spec (a : Nat) {b : Nat} (hb : 0 < b) :
    2 * (roundEven a b * b) ≤ 2 * a + b ∧ 2 * a ≤ 2 * (roundEven a b * b) + b := by
  have hq : a = a / b * b + a % b := by rw [Nat.mul_comm]; exact (Nat.div_add_mod a b).symm
  have hr : a % b < b := Nat.mod_lt a hb
  unfold roundEven
  dsimp only
  split
  · omega
  · split
    · rw [Nat.add_mul]; omega
    · -- A tie: the remainder is half of the divisor, so either neighbour will do.
      have hm : a / b % 2 = 0 ∨ a / b % 2 = 1 := Nat.mod_two_eq_zero_or_one _
      rcases hm with hm | hm <;> rw [hm, Nat.add_mul] <;> omega

theorem roundEven_mul (m : Nat) {b : Nat} (hb : 0 < b) : roundEven (m * b) b = m := by
  simp [roundEven, Nat.mul_div_cancel _ hb, hb]

theorem roundEven_le {a b m : Nat} (hb : 0 < b) (h : a ≤ m * b) : roundEven a b ≤ m := by
  have hs := (roundEven_spec a hb).1
  by_contra hc
  have hm : (m + 1) * b ≤ roundEven a b * b := Nat.mul_le_mul_right b (by omega)
  rw [Nat.add_mul] at hm
  omega

theorem natAbs_roundEvenInt (c : Int) {b : Nat} (hb : 0 < b) :
    (roundEvenInt c b).natAbs = roundEven c.natAbs b := by
  rw [roundEvenInt, Int.natAbs_mul, Int.natAbs_natCast]
  by_cases hc : c = 0
  · simp [hc, roundEven, hb]
  · rw [Int.natAbs_sign_of_ne_zero hc, Nat.one_mul]

theorem roundEvenInt_of_dvd {c : Int} {b : Nat} (hb : 0 < b) (h : (b : ℤ) ∣ c) :
    roundEvenInt c b * b = c := by
  obtain ⟨k, rfl⟩ := h
  rw [roundEvenInt, Int.natAbs_mul, Int.natAbs_natCast, Nat.mul_comm, roundEven_mul _ hb,
    Int.sign_mul, Int.sign_natCast_of_ne_zero hb.ne', one_mul, Int.sign_mul_natAbs, mul_comm]

theorem roundEvenInt_neg_iff {c : Int} {b : Nat} (h : c ≠ 0 → roundEven c.natAbs b ≠ 0) :
    roundEvenInt c b < 0 ↔ c < 0 := by
  rw [roundEvenInt]
  rcases lt_trichotomy c 0 with hc | hc | hc
  · have := h hc.ne
    rw [Int.sign_eq_neg_one_of_neg hc]
    omega
  · simp [hc]
  · rw [Int.sign_eq_one_of_pos hc]
    omega

namespace Decimal

theorem ofParts?_eq_some {c : Int} {s : Nat} {d : Decimal} (h : ofParts? c s = some d) :
    d.coefficient = c ∧ d.scale = s := by
  unfold ofParts? at h
  split at h
  · cases h
    exact ⟨rfl, rfl⟩
  · cases h

theorem ofParts?_eq {c : Int} {s : Nat} (hc : c.natAbs < limit) (hs : s ≤ maxScale) :
    ∃ d, ofParts? c s = some d ∧ d.coefficient = c ∧ d.scale = s := by
  rw [ofParts?, dif_pos ⟨hc, hs⟩]
  exact ⟨_, rfl, rfl, rfl⟩

theorem ofParts?_eq_none {c : Int} {s : Nat} (hs : s ≤ maxScale) (h : ofParts? c s = none) :
    limit ≤ c.natAbs := by
  unfold ofParts? at h
  split at h
  · cases h
  · rename_i hc
    by_contra hn
    exact hc ⟨by omega, hs⟩

theorem fitFrom_eq_some {c : Int} {s t : Nat} {d : Decimal} (ht : t ≤ maxScale)
    (h : fitFrom c s t = some d) :
    d.scale ≤ t ∧ d.coefficient = roundEvenInt c (tenTo (s - d.scale)) ∧
      (d.scale < t → limit ≤ roundEven c.natAbs (tenTo (s - (d.scale + 1)))) := by
  induction t with
  | zero =>
    obtain ⟨hc, hs⟩ := ofParts?_eq_some h
    rw [hs]
    exact ⟨le_rfl, hc, fun hlt => absurd hlt (Nat.lt_irrefl 0)⟩
  | succ t ih =>
    rw [fitFrom] at h
    split at h
    · rename_i d' hp
      cases h
      obtain ⟨hc, hs⟩ := ofParts?_eq_some hp
      rw [hs]
      exact ⟨le_rfl, hc, fun hlt => absurd hlt (Nat.lt_irrefl _)⟩
    · rename_i hp
      obtain ⟨hs, hc, hl⟩ := ih (by omega) h
      refine ⟨by omega, hc, fun _ => ?_⟩
      by_cases heq : d.scale = t
      · rw [heq, ← natAbs_roundEvenInt c (tenTo_pos _)]
        exact ofParts?_eq_none ht hp
      · exact hl (by omega)

theorem fit?_eq_some {c : Int} {s : Nat} {d : Decimal} (hs : s ≤ maxScale)
    (h : fit? c s = some d) :
    d.scale ≤ s ∧ d.coefficient = roundEvenInt c (tenTo (s - d.scale)) ∧
      (d.scale < s → limit ≤ roundEven c.natAbs (tenTo (s - (d.scale + 1)))) := by
  rw [fit?, Nat.min_eq_left hs] at h
  exact fitFrom_eq_some hs h

theorem fitFrom_of_le {c : Int} {s t u : Nat} (hu : u ≤ t) (ht : t ≤ maxScale)
    (h : roundEven c.natAbs (tenTo (s - u)) < limit) :
    ∃ d, fitFrom c s t = some d ∧ u ≤ d.scale := by
  rw [← natAbs_roundEvenInt c (tenTo_pos _)] at h
  obtain ⟨e, he, -, -⟩ := ofParts?_eq h (hu.trans ht)
  induction t with
  | zero =>
    obtain rfl := Nat.le_zero.mp hu
    exact ⟨e, he, Nat.zero_le _⟩
  | succ t ih =>
    rw [fitFrom]
    split
    · rename_i d hd
      exact ⟨d, rfl, (ofParts?_eq_some hd).2 ▸ hu⟩
    · rename_i hnone
      have hne : u ≠ t + 1 := by
        rintro rfl
        rw [he] at hnone
        cases hnone
      exact ih (by omega) (by omega)

theorem fit?_isSome {c : Int} {s : Nat} (h : c.natAbs ≤ (limit - 1) * tenTo s) :
    (fit? c s).isSome := by
  have hr := roundEven_le (tenTo_pos s) h
  obtain ⟨d, hd, -⟩ := fitFrom_of_le (Nat.zero_le (min s maxScale)) (Nat.min_le_right _ _)
    (Nat.lt_of_le_pred (by decide) hr)
  exact Option.isSome_iff_exists.mpr ⟨d, hd⟩

theorem limit_le_of_coarser {c : Int} {k : Nat} (h : limit ≤ roundEven c.natAbs (tenTo k)) :
    (2 * limit - 1) * tenTo k ≤ 2 * c.natAbs := by
  have hr := (roundEven_spec c.natAbs (tenTo_pos k)).1
  have hm := Nat.mul_le_mul_right (tenTo k) h
  rw [Nat.sub_mul, Nat.one_mul, Nat.mul_assoc]
  omega

theorem tenTo_sub_eq {s t : Nat} (h : t < s) : tenTo (s - t) = tenTo (s - (t + 1)) * 10 := by
  rw [← tenTo_succ]
  congr 1
  omega

/-- A coefficient that is just too large still has all but its last digit one place up: the
limit ends in a six, so even the least of them is rounded up there. -/
theorem le_of_coarser {c : Int} {k : Nat} (h : limit ≤ roundEven c.natAbs (tenTo k)) :
    7922816251426433759354395034 ≤ roundEven c.natAbs (tenTo k * 10) := by
  have hbig := limit_le_of_coarser h
  have hp := tenTo_pos k
  have hr := (roundEven_spec c.natAbs (Nat.mul_pos hp (by decide : 0 < 10))).2
  have hL : 2 * limit - 1 = 158456325028528675187087900671 := by decide
  rw [hL] at hbig
  by_contra hcon
  have hm := Nat.mul_le_mul_right (tenTo k * 10)
    (show roundEven c.natAbs (tenTo k * 10) ≤ 7922816251426433759354395033 by omega)
  omega

theorem round_ne_zero {c : Int} {s : Nat} {d : Decimal} (hs : s ≤ maxScale)
    (h : fit? c s = some d) (hc : c ≠ 0) : roundEven c.natAbs (tenTo (s - d.scale)) ≠ 0 := by
  obtain ⟨hle, -, hl⟩ := fit?_eq_some hs h
  rcases hle.eq_or_lt with heq | hlt
  · rw [heq, Nat.sub_self]
    simpa [tenTo, roundEven_one] using hc
  · have hbig := limit_le_of_coarser (hl hlt)
    have hr := (roundEven_spec c.natAbs (tenTo_pos (s - d.scale))).2
    have hp := tenTo_pos (s - (d.scale + 1))
    intro h0
    rw [h0, tenTo_sub_eq hlt] at hr
    have hL : 2 * limit - 1 = 158456325028528675187087900671 := by decide
    rw [hL] at hbig
    omega

theorem isNegative_fit? {c : Int} {s : Nat} {d : Decimal} (hs : s ≤ maxScale)
    (h : fit? c s = some d) : d.isNegative = true ↔ c < 0 := by
  rw [isNegative, decide_eq_true_iff, (fit?_eq_some hs h).2.1]
  exact roundEvenInt_neg_iff (round_ne_zero hs h)

theorem fitsLedger_fit? {c : Int} {s : Nat} {d : Decimal} (hs : s ≤ maxScale)
    (hc : (tenTo (s - ledgerScale) : ℤ) ∣ c) (h : fit? c s = some d) : d.fitsLedger = true := by
  by_cases hd : d.scale ≤ ledgerScale
  · exact fitsLedger_of_scale_le hd
  · obtain ⟨hle, hcoef, -⟩ := fit?_eq_some hs h
    have he : s - ledgerScale = (s - d.scale) + (d.scale - ledgerScale) := by omega
    rw [he, tenTo_add, Nat.cast_mul] at hc
    have hr := roundEvenInt_of_dvd (tenTo_pos (s - d.scale)) ((Int.dvd_mul_right _ _).trans hc)
    rw [← hcoef] at hr
    rw [fitsLedger_iff]
    rw [← hr, mul_comm] at hc
    have hp : ((tenTo (s - d.scale) : ℕ) : ℤ) ≠ 0 := by exact_mod_cast (tenTo_pos _).ne'
    exact (mul_dvd_mul_iff_right hp).mp (by rwa [mul_comm] at hc ⊢)

/-- The largest amount that a decimal can tell to four places: (2^96 - 1) / 10^4. -/
def ledgerMax : Rat := 79228162514264337593543950335 / 10000

/-- Only a number past `ledgerMax` is fitted at fewer than four places, and it stays past it. -/
theorem ledgerMax_lt_of_coarse {c : Int} {s : Nat} {d : Decimal} (hs : s ≤ maxScale)
    (h : fit? c s = some d) (hd : d.scale < ledgerScale) (hlt : d.scale < s) :
    ledgerMax * 10 ^ s < |(c : ℚ)| ∧ ledgerMax < |d.toRat| := by
  obtain ⟨-, hcoef, hl⟩ := fit?_eq_some hs h
  -- A digit is dropped only if the sum with it would not fit into 96 bits.
  have hbig := limit_le_of_coarser (hl hlt)
  have hp := tenTo_pos (s - (d.scale + 1))
  have hL : 2 * limit - 1 = 158456325028528675187087900671 := by decide
  have hpow : (10 : ℚ) ^ (d.scale + 1) ≤ 10 ^ ledgerScale := pow_le_pow_right₀ (by norm_num) hd
  rw [hL] at hbig
  constructor
  · have hs' : (10 : ℚ) ^ s = tenTo (s - (d.scale + 1)) * 10 ^ (d.scale + 1) := by
      rw [tenTo_cast, ← pow_add]
      congr 1
      omega
    have hq : (158456325028528675187087900671 : ℚ) * tenTo (s - (d.scale + 1)) ≤ 2 * |(c : ℚ)| := by
      rw [← Int.cast_abs, ← Nat.cast_natAbs]
      exact_mod_cast hbig
    have hp' : (0 : ℚ) < tenTo (s - (d.scale + 1)) := by exact_mod_cast hp
    have hm := mul_le_mul_of_nonneg_left hpow hp'.le
    rw [← hs'] at hm
    simp only [ledgerScale] at hm
    rw [ledgerMax]
    linarith
  · have hR : 7922816251426433759354395034 ≤ roundEven c.natAbs (tenTo (s - d.scale)) := by
      rw [tenTo_sub_eq hlt]
      exact le_of_coarser (hl hlt)
    have habs : |d.toRat| * 10 ^ d.scale = roundEven c.natAbs (tenTo (s - d.scale)) := by
      rw [← natAbs_roundEvenInt c (tenTo_pos _), ← hcoef, Nat.cast_natAbs, Int.cast_abs,
        coefficient_eq, abs_mul, abs_of_pos (show (0 : ℚ) < 10 ^ d.scale by positivity)]
    have hq : (7922816251426433759354395034 : ℚ) ≤ |d.toRat| * 10 ^ d.scale := by
      rw [habs]
      exact_mod_cast hR
    rw [pow_succ] at hpow
    simp only [ledgerScale] at hpow
    have hm := mul_le_mul_of_nonneg_left (show (10 : ℚ) ^ d.scale ≤ 1000 by linarith)
      (abs_nonneg d.toRat)
    rw [ledgerMax]
    linarith

theorem toRat_fit? {c : Int} {s : Nat} {d : Decimal} (hs : s ≤ maxScale)
    (hc : (tenTo (s - ledgerScale) : ℤ) ∣ c) (h : fit? c s = some d)
    (hd : ledgerScale ≤ d.scale ∨ d.scale = s) : d.toRat * 10 ^ s = c := by
  obtain ⟨hle, hcoef, -⟩ := fit?_eq_some hs h
  have hdvd : (tenTo (s - d.scale) : ℤ) ∣ c := by
    rcases hd with hd | hd
    · exact (tenTo_dvd_tenTo (by omega)).trans hc
    · rw [hd, Nat.sub_self]
      exact one_dvd c
  have hr := roundEvenInt_of_dvd (tenTo_pos (s - d.scale)) hdvd
  rw [← hcoef] at hr
  rw [← hr, Int.cast_mul, coefficient_eq, Int.cast_natCast, tenTo_cast, mul_assoc, ← pow_add]
  congr 2
  omega

def sumAt (x y : Decimal) : Int :=
  x.coefficientAt (max x.scale y.scale) + y.coefficientAt (max x.scale y.scale)

theorem sumAt_eq (x y : Decimal) :
    (sumAt x y : ℚ) = (x.toRat + y.toRat) * 10 ^ max x.scale y.scale := by
  rw [sumAt, Int.cast_add, coefficientAt_eq x (le_max_left _ _),
    coefficientAt_eq y (le_max_right _ _)]
  ring

theorem sumAt_neg_iff (x y : Decimal) : sumAt x y < 0 ↔ x.toRat + y.toRat < 0 := by
  have hp : (0 : ℚ) < 10 ^ max x.scale y.scale := by positivity
  rw [← Int.cast_lt_zero (R := ℚ), sumAt_eq]
  constructor
  · intro h
    by_contra hn
    exact absurd h (mul_nonneg (not_lt.mp hn) hp.le).not_gt
  · intro h
    exact mul_neg_of_neg_of_pos h hp

theorem dvd_sumAt {x y : Decimal} (hx : x.fitsLedger = true) (hy : y.fitsLedger = true) :
    (tenTo (max x.scale y.scale - ledgerScale) : ℤ) ∣ sumAt x y :=
  Int.dvd_add (dvd_coefficientAt hx (le_max_left _ _)) (dvd_coefficientAt hy (le_max_right _ _))

theorem max_scale_le (x y : Decimal) : max x.scale y.scale ≤ maxScale :=
  max_le x.scale_le y.scale_le

theorem add?_cases {x y d : Decimal} (h : x.add? y = some d) :
    (x.toRat = 0 ∧ d = y) ∨ (y.toRat = 0 ∧ d = x) ∨
      fit? (sumAt x y) (max x.scale y.scale) = some d := by
  unfold add? at h
  split at h
  · rename_i hx
    exact .inl ⟨(isZero_iff x).mp hx, (Option.some.inj h).symm⟩
  · split at h
    · rename_i hy
      exact .inr (.inl ⟨(isZero_iff y).mp hy, (Option.some.inj h).symm⟩)
    · exact .inr (.inr h)

theorem isNegative_add? {x y d : Decimal} (h : x.add? y = some d) :
    d.isNegative = true ↔ x.toRat + y.toRat < 0 := by
  rcases add?_cases h with ⟨hx, rfl⟩ | ⟨hy, rfl⟩ | hf
  · rw [isNegative_iff, hx, zero_add]
  · rw [isNegative_iff, hy, add_zero]
  · rw [isNegative_fit? (max_scale_le x y) hf, sumAt_neg_iff]

theorem fitsLedger_add? {x y d : Decimal} (hx : x.fitsLedger = true) (hy : y.fitsLedger = true)
    (h : x.add? y = some d) : d.fitsLedger = true := by
  rcases add?_cases h with ⟨-, rfl⟩ | ⟨-, rfl⟩ | hf
  · exact hy
  · exact hx
  · exact fitsLedger_fit? (max_scale_le x y) (dvd_sumAt hx hy) hf

/-- Amounts of the ledger are added without loss while either the exact sum or the result
leaves room for four places. -/
theorem toRat_add? {x y d : Decimal} (hx : x.fitsLedger = true) (hy : y.fitsLedger = true)
    (h : x.add? y = some d) (hM : |x.toRat + y.toRat| ≤ ledgerMax ∨ |d.toRat| ≤ ledgerMax) :
    d.toRat = x.toRat + y.toRat := by
  rcases add?_cases h with ⟨hx0, rfl⟩ | ⟨hy0, rfl⟩ | hf
  · rw [hx0, zero_add]
  · rw [hy0, add_zero]
  · have hs := max_scale_le x y
    have hp : (0 : ℚ) < 10 ^ max x.scale y.scale := by positivity
    have hle := (fit?_eq_some hs hf).1
    have hfine : ledgerScale ≤ d.scale ∨ d.scale = max x.scale y.scale := by
      by_contra hn
      push Not at hn
      obtain ⟨hsum, hd⟩ := ledgerMax_lt_of_coarse hs hf hn.1 (lt_of_le_of_ne hle hn.2)
      rw [sumAt_eq, abs_mul, abs_of_pos hp, mul_lt_mul_iff_left₀ hp] at hsum
      rcases hM with hM | hM
      · exact absurd hsum hM.not_gt
      · exact absurd hd hM.not_gt
    have he := toRat_fit? hs (dvd_sumAt hx hy) hf hfine
    rw [sumAt_eq] at he
    exact mul_right_cancel₀ hp.ne' he

theorem natAbs_coefficientAt_le (d : Decimal) (s : Nat) :
    (d.coefficientAt s).natAbs ≤ (limit - 1) * tenTo s := by
  rw [coefficientAt, Int.natAbs_mul, Int.natAbs_natCast]
  exact Nat.mul_le_mul (Nat.le_pred_of_lt d.natAbs_lt_limit)
    (Nat.pow_le_pow_right (by decide) (Nat.sub_le s d.scale))

theorem sub?_isSome {x y : Decimal} (hx : 0 ≤ x.coefficient) (hy : 0 ≤ y.coefficient) :
    (x.sub? y).isSome := by
  unfold sub? add?
  split
  · rfl
  · split
    · rfl
    · refine fit?_isSome ?_
      have hbx := natAbs_coefficientAt_le x (max x.scale y.neg.scale)
      have hby := natAbs_coefficientAt_le y.neg (max x.scale y.neg.scale)
      have hsx : 0 ≤ x.coefficientAt (max x.scale y.neg.scale) :=
        Int.mul_nonneg hx (Int.natCast_nonneg _)
      have hsy : y.neg.coefficientAt (max x.scale y.neg.scale) ≤ 0 :=
        Int.mul_nonpos_of_nonpos_of_nonneg (Int.neg_nonpos_of_nonneg hy) (Int.natCast_nonneg _)
      omega

end Decimal

end WagerLedger
