import WagerLedger.Proofs.Decimal.Payout
import WagerLedger.Proofs.Related

/-! # One number at several scales

Two decimals may stand for the same number. Sums and products choose the scale of their result
by the scales of their operands, and round where the exact result does not fit; yet the number
that comes out depends on the numbers that went in alone. For a finer scale only adds places at
which the exact result fits or does not, and where it fits it is not rounded. -/
namespace WagerLedger

theorem roundEven_mul_right (a b : Nat) {m : Nat} (hm : 0 < m) :
    roundEven (a * m) (b * m) = roundEven a b := by
  have hlt : ∀ x y : Nat, 2 * (x * m) < y * m ↔ 2 * x < y := by
    intro x y
    rw [← Nat.mul_assoc, Nat.mul_lt_mul_right hm]
  have hgt : b * m < 2 * (a % b * m) ↔ b < 2 * (a % b) := by
    rw [← Nat.mul_assoc, Nat.mul_lt_mul_right hm]
  simp only [roundEven, Nat.mul_div_mul_right _ _ hm, Nat.mul_mod_mul_right, hlt, hgt]

theorem roundEvenInt_mul_right (a : Int) (b : Nat) {m : Nat} (hm : 0 < m) :
    roundEvenInt (a * m) (b * m) = roundEvenInt a b := by
  rw [roundEvenInt, roundEvenInt, Int.natAbs_mul, Int.natAbs_natCast, roundEven_mul_right _ _ hm,
    Int.sign_mul, Int.sign_natCast_of_ne_zero hm.ne', mul_one]

namespace Decimal

/-- Both stand for one number. -/
def Same (x y : Decimal) : Prop := x.toRat = y.toRat

theorem Same.refl (x : Decimal) : x.Same x := rfl

section Same

variable {x x' y y' : Decimal}

theorem Same.isPositive (h : x.Same x') : x.isPositive = x'.isPositive := by
  rw [Bool.eq_iff_iff, isPositive_iff, isPositive_iff, h]

theorem Same.isNegative (h : x.Same x') : x.isNegative = x'.isNegative := by
  rw [Bool.eq_iff_iff, isNegative_iff, isNegative_iff, h]

theorem Same.isZero (h : x.Same x') : x.isZero = x'.isZero := by
  rw [Bool.eq_iff_iff, isZero_iff, isZero_iff, h]

theorem Same.neg (h : x.Same x') : x.neg.Same x'.neg := by
  rw [Same, toRat_neg, toRat_neg, h]

theorem toRat_abs (d : Decimal) : d.abs.toRat = |d.toRat| := by
  rw [toRat_eq, toRat_eq, abs_div, abs_of_pos (show (0 : ℚ) < 10 ^ d.scale by positivity),
    ← Int.cast_abs, Int.abs_eq_natAbs]
  rfl

theorem Same.abs (h : x.Same x') : x.abs.Same x'.abs := by
  rw [Same, toRat_abs, toRat_abs, h]

/-- An amount fits the ledger when four places are enough for its number. -/
theorem fitsLedger_iff_toRat (d : Decimal) :
    d.fitsLedger = true ↔ ∃ n : ℤ, d.toRat * 10 ^ ledgerScale = n := by
  have hpow : (10 : ℚ) ^ d.scale ≠ 0 := by positivity
  rw [fitsLedger_iff]
  by_cases hs : d.scale ≤ ledgerScale
  · rw [Nat.sub_eq_zero_of_le hs]
    refine iff_of_true (one_dvd _) ⟨d.coefficient * tenTo (ledgerScale - d.scale), ?_⟩
    rw [toRat_eq, Int.cast_mul, Int.cast_natCast, tenTo_cast, ← Nat.sub_add_cancel hs, pow_add,
      Nat.add_sub_cancel_right]
    field_simp
  · obtain ⟨k, hk⟩ := Nat.exists_eq_add_of_le (not_le.mp hs).le
    rw [show d.scale - ledgerScale = k by omega, toRat_eq, hk, pow_add]
    rw [hk, pow_add] at hpow
    constructor
    · rintro ⟨n, hn⟩
      refine ⟨n, ?_⟩
      rw [hn, Int.cast_mul, Int.cast_natCast, tenTo_cast]
      field_simp
    · rintro ⟨n, hn⟩
      refine ⟨n, ?_⟩
      have hq : (d.coefficient : ℚ) = (tenTo k : ℤ) * n := by
        rw [← hn, Int.cast_natCast, tenTo_cast]
        field_simp
      exact_mod_cast hq

theorem Same.fitsLedger (h : x.Same x') : x.fitsLedger = x'.fitsLedger := by
  rw [Bool.eq_iff_iff, fitsLedger_iff_toRat, fitsLedger_iff_toRat, h]

end Same

theorem fitFrom_mul (c : Int) (s k t : Nat) (ht : t ≤ s) :
    fitFrom (c * tenTo k) (s + k) t = fitFrom c s t := by
  induction t with
  | zero => rw [fitFrom, fitFrom, tenTo_add, roundEvenInt_mul_right _ _ (tenTo_pos k)]
  | succ t ih =>
    have hs : s + k - (t + 1) = s - (t + 1) + k := by omega
    rw [fitFrom, fitFrom, hs, tenTo_add, roundEvenInt_mul_right _ _ (tenTo_pos k), ih (by omega)]

theorem fitFrom_self {c : Int} {s : Nat} (hc : c.natAbs < limit) (hs : s ≤ maxScale) :
    ∃ d, fitFrom c s s = some d ∧ d.coefficient = c ∧ d.scale = s := by
  obtain ⟨d, hd, hparts⟩ := ofParts?_eq hc hs
  refine ⟨d, ?_, hparts⟩
  cases s with
  | zero => rw [fitFrom, show tenTo 0 = 1 from rfl, roundEvenInt_one, hd]
  | succ s => rw [fitFrom, Nat.sub_self, show tenTo 0 = 1 from rfl, roundEvenInt_one, hd]

/-- Further places of a fraction are zeros, so trying them first comes to the same number. -/
theorem fitFrom_same (c : Int) (s k : Nat) {t : Nat} (hst : s ≤ t) (ht : t ≤ s + k)
    (hmax : t ≤ maxScale) :
    Option.Rel Same (fitFrom (c * tenTo k) (s + k) t) (fitFrom c s s) := by
  induction t, hst using Nat.le_induction with
  | base =>
    rw [fitFrom_mul c s k s le_rfl]
    exact rel_refl Same.refl _
  | succ t hst ih =>
    -- The digits past scale `s` are zeros, so that no rounding takes place.
    have hexact : roundEvenInt (c * tenTo k) (tenTo (s + k - (t + 1))) =
        c * tenTo (t + 1 - s) := by
      have hk : tenTo k = tenTo (t + 1 - s) * tenTo (s + k - (t + 1)) := by
        rw [← tenTo_add]
        congr 1
        omega
      rw [hk, Nat.cast_mul, ← mul_assoc]
      have h := roundEvenInt_mul_right (c * tenTo (t + 1 - s)) 1 (tenTo_pos (s + k - (t + 1)))
      rwa [one_mul, roundEvenInt_one] at h
    rw [fitFrom, hexact]
    split
    · rename_i d hd
      obtain ⟨hcoef, hscale⟩ := ofParts?_eq_some hd
      have hpow : 0 < tenTo (t + 1 - s) := tenTo_pos _
      have hfit : c.natAbs < limit := by
        have hlt := d.natAbs_lt_limit
        rw [hcoef, Int.natAbs_mul, Int.natAbs_natCast] at hlt
        exact (Nat.le_mul_of_pos_right _ hpow).trans_lt hlt
      obtain ⟨e, he, hecoef, hescale⟩ := fitFrom_self hfit (by omega : s ≤ maxScale)
      rw [he]
      refine .some ?_
      have hsplit : (10 : ℚ) ^ (t + 1) = 10 ^ (t + 1 - s) * 10 ^ s := by
        rw [← pow_add]
        congr 1
        omega
      rw [Same, toRat_eq, toRat_eq, hcoef, hscale, hecoef, hescale, hsplit, Int.cast_mul,
        Int.cast_natCast, tenTo_cast]
      field_simp
    · exact ih (by omega) (by omega)

theorem fit?_tenTo (c : Int) (s k : Nat) :
    Option.Rel Same (fit? (c * tenTo k) (s + k)) (fit? c s) := by
  rw [fit?, fit?]
  rcases le_total maxScale s with hs | hs
  · rw [Nat.min_eq_right hs, Nat.min_eq_right (hs.trans (Nat.le_add_right s k)),
      fitFrom_mul _ _ _ _ hs]
    exact rel_refl Same.refl _
  · rw [Nat.min_eq_left hs]
    exact fitFrom_same c s k (le_min (Nat.le_add_right s k) hs) (min_le_left _ _)
      (min_le_right _ _)

theorem fit?_same {c c' : Int} {s s' : Nat} (h : (c : ℚ) / 10 ^ s = c' / 10 ^ s') :
    Option.Rel Same (fit? c s) (fit? c' s') := by
  have hcoarse : ∀ {c c' : Int} {s k : Nat}, (c : ℚ) / 10 ^ s = c' / 10 ^ (s + k) →
      c' = c * tenTo k := by
    intro c c' s k h
    rw [pow_add] at h
    field_simp at h
    have hq : (c' : ℚ) = (c * (tenTo k : ℕ) : ℤ) := by
      rw [Int.cast_mul, Int.cast_natCast, tenTo_cast, h]
    exact_mod_cast hq
  rcases le_total s s' with hs | hs
  · obtain ⟨k, rfl⟩ := Nat.exists_eq_add_of_le hs
    rw [hcoarse h]
    exact rel_symm Eq.symm (fit?_tenTo c s k)
  · obtain ⟨k, rfl⟩ := Nat.exists_eq_add_of_le hs
    rw [hcoarse h.symm]
    exact fit?_tenTo c' s' k

theorem fit?_exact {c : Int} {s : Nat} {d : Decimal} (h : d.toRat = c / 10 ^ s) :
    ∃ e, fit? c s = some e ∧ e.Same d := by
  obtain ⟨e, he, hcoef, hscale⟩ := fitFrom_self d.natAbs_lt_limit d.scale_le
  have hself : fit? d.coefficient d.scale = some e := by
    rw [fit?, Nat.min_eq_left (show d.scale ≤ maxScale from d.scale_le), he]
  have hed : e.Same d := by rw [Same, toRat_eq, toRat_eq, hcoef, hscale]
  rw [toRat_eq] at h
  have hrel := fit?_same h
  rw [hself] at hrel
  cases hfit : fit? c s with
  | none =>
    rw [hfit] at hrel
    cases hrel
  | some f =>
    rw [hfit] at hrel
    cases hrel with
    | some hsame => exact ⟨f, rfl, hsame.symm.trans hed⟩

section Arithmetic

variable {x x' y y' : Decimal}

theorem sumAt_div (x y : Decimal) :
    (sumAt x y : ℚ) / 10 ^ max x.scale y.scale = x.toRat + y.toRat := by
  rw [sumAt_eq]
  field_simp

theorem product_div (x y : Decimal) :
    ((x.coefficient * y.coefficient : ℤ) : ℚ) / 10 ^ (x.scale + y.scale) = x.toRat * y.toRat := by
  rw [Int.cast_mul, pow_add, mul_div_mul_comm, ← toRat_eq, ← toRat_eq]

theorem Same.add? (hx : x.Same x') (hy : y.Same y') :
    Option.Rel Same (x.add? y) (x'.add? y') := by
  unfold Decimal.add?
  rw [hx.isZero, hy.isZero]
  split
  · exact .some hy
  · split
    · exact .some hx
    · have hsum : (sumAt x y : ℚ) / 10 ^ max x.scale y.scale =
          sumAt x' y' / 10 ^ max x'.scale y'.scale := by
        rw [sumAt_div, sumAt_div, hx, hy]
      exact fit?_same hsum

theorem add?_exact {d : Decimal} (h : d.toRat = x.toRat + y.toRat) :
    ∃ e, x.add? y = some e ∧ e.toRat = x.toRat + y.toRat := by
  unfold Decimal.add?
  split
  · rename_i hx
    exact ⟨y, rfl, by rw [(isZero_iff x).mp hx, zero_add]⟩
  · split
    · rename_i hy
      exact ⟨x, rfl, by rw [(isZero_iff y).mp hy, add_zero]⟩
    · obtain ⟨e, he, hed⟩ := fit?_exact (h.trans (sumAt_div x y).symm)
      exact ⟨e, he, hed.trans h⟩

theorem scale_le_of_isShort {d : Decimal} (hfits : d.fitsLedger = true)
    (hshort : d.isShort = true) (hzero : d.isZero = false) : d.scale ≤ 13 := by
  rw [isShort, decide_eq_true_iff] at hshort
  by_contra hs
  have hne : d.coefficient ≠ 0 := by
    intro h0
    rw [isZero, h0] at hzero
    cases hzero
  have hdvd : (tenTo 10 : ℤ) ∣ d.coefficient :=
    (tenTo_dvd_tenTo (by simp only [ledgerScale]; omega)).trans ((fitsLedger_iff d).mp hfits)
  have hle := Nat.le_of_dvd (Int.natAbs_pos.mpr hne) (Int.natCast_dvd.mp hdvd)
  have hten : tenTo 10 = 10000000000 := rfl
  omega

theorem mul?_same_fit (hx : x.fitsLedger = true) (hx0 : x.isZero = false)
    (hy0 : y.isZero = false) :
    Option.Rel Same (x.mul? y) (fit? (x.coefficient * y.coefficient) (x.scale + y.scale)) := by
  simp only [mul?, hx0, hy0, Bool.or_self, Bool.false_eq_true, if_false]
  split
  · rename_i hshort
    rw [Bool.and_eq_true] at hshort
    have hscale := scale_le_of_isShort hx hshort.1 hx0
    have hy := y.scale_le
    rw [if_neg (by simp only [vanishingPlaces]; omega)]
    exact rel_refl Same.refl _
  · cases fit? (x.coefficient * y.coefficient) (x.scale + y.scale) with
    | none => exact .none
    | some d => exact .some (toRat_signZero _ d)

theorem Same.mul? (hfits : x.fitsLedger = true) (hx : x.Same x') (hy : y.Same y') :
    Option.Rel Same (x.mul? y) (x'.mul? y') := by
  cases hx0 : x.isZero with
  | true =>
    rw [Decimal.mul?, Decimal.mul?, ← hx.isZero, hx0]
    exact .some rfl
  | false =>
    cases hy0 : y.isZero with
    | true =>
      rw [Decimal.mul?, Decimal.mul?, ← hx.isZero, ← hy.isZero, hx0, hy0]
      exact .some rfl
    | false =>
      have hprod : ((x.coefficient * y.coefficient : ℤ) : ℚ) / 10 ^ (x.scale + y.scale) =
          ((x'.coefficient * y'.coefficient : ℤ) : ℚ) / 10 ^ (x'.scale + y'.scale) := by
        rw [product_div, product_div, hx, hy]
      refine rel_trans Eq.trans (mul?_same_fit hfits hx0 hy0)
        (rel_trans Eq.trans (fit?_same hprod) (rel_symm Eq.symm ?_))
      exact mul?_same_fit (hx.fitsLedger ▸ hfits) (hx.isZero ▸ hx0) (hy.isZero ▸ hy0)

theorem Same.coefficient_eq (h : x.Same y) {k : Nat} (hk : y.scale = x.scale + k) :
    y.coefficient = x.coefficient * tenTo k := by
  rw [Same, toRat_eq, toRat_eq, hk, pow_add] at h
  field_simp at h
  have hq : (y.coefficient : ℚ) = (x.coefficient * (tenTo k : ℕ) : ℤ) := by
    rw [Int.cast_mul, Int.cast_natCast, tenTo_cast, h]
  exact_mod_cast hq

/-- What is cut off depends on the number alone. -/
theorem Same.truncate (h : x.Same x') (p : Nat) : (x.truncate p).Same (x'.truncate p) := by
  have hcut : ∀ {x y : Decimal}, x.Same y → x.scale ≤ y.scale →
      (x.truncate p).Same (y.truncate p) := by
    intro x y h hle
    obtain ⟨k, hk⟩ := Nat.exists_eq_add_of_le hle
    have hcoef := h.coefficient_eq hk
    by_cases hy : y.scale ≤ p
    · rw [truncate_of_scale_le (hle.trans hy), truncate_of_scale_le hy]
      exact h
    · obtain ⟨hyc, hys⟩ := truncate_eq (not_le.mp hy)
      by_cases hx : x.scale ≤ p
      · -- All that is cut off are zeros.
        have hsplit : tenTo k = tenTo (p - x.scale) * tenTo (y.scale - p) := by
          rw [← tenTo_add]
          congr 1
          omega
        have hpow : ((tenTo (y.scale - p) : ℕ) : ℤ) ≠ 0 := by exact_mod_cast (tenTo_pos _).ne'
        have hten : (10 : ℚ) ^ p = 10 ^ (p - x.scale) * 10 ^ x.scale := by
          rw [← pow_add]
          congr 1
          omega
        rw [hcoef, hsplit, Nat.cast_mul, ← mul_assoc, Int.mul_tdiv_cancel _ hpow] at hyc
        rw [truncate_of_scale_le hx, Same, toRat_eq, toRat_eq (y.truncate p), hyc, hys,
          hten, Int.cast_mul, Int.cast_natCast, tenTo_cast]
        field_simp
      · obtain ⟨hxc, hxs⟩ := truncate_eq (not_le.mp hx)
        have hsplit : tenTo (y.scale - p) = tenTo (x.scale - p) * tenTo k := by
          rw [← tenTo_add]
          congr 1
          omega
        have hpow : (0 : ℤ) < (tenTo k : ℕ) := by exact_mod_cast tenTo_pos k
        rw [hcoef, hsplit, Nat.cast_mul, Int.mul_tdiv_mul_of_pos_left _ _ hpow] at hyc
        rw [Same, toRat_eq, toRat_eq, hxc, hxs, hyc, hys]
  rcases le_total x.scale x'.scale with hle | hle
  · exact hcut h hle
  · exact (hcut h.symm hle).symm

end Arithmetic

end Decimal

end WagerLedger
