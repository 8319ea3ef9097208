import WagerLedger.Proofs.Binary64.Rounding

/-! # Each operation rounds its exact result

A sum, a difference, a product or a quotient of finite doubles is the double that the exact
result is rounded to, or infinite where the result is past the largest double. -/
namespace WagerLedger.Binary64

def signed (n : Bool) (q : ℚ) : ℚ := if n then -q else q

theorem abs_signed (n : Bool) (q : ℚ) : |signed n q| = |q| := by
  cases n <;> simp [signed]

theorem coefficient_eq_signed (n : Bool) (m : Nat) : (coefficient n m : ℚ) = signed n m :=
  coefficient_cast n m

theorem signed_mul (n k : Bool) (p q : ℚ) : signed n p * signed k q = signed (n != k) (p * q) := by
  cases n <;> cases k <;> simp [signed]

theorem signed_div (n k : Bool) (p q : ℚ) : signed n p / signed k q = signed (n != k) (p / q) := by
  cases n <;> cases k <;> simp [signed, neg_div, div_neg]

theorem signed_mul_right (n : Bool) (p q : ℚ) : signed n p * q = signed n (p * q) := by
  cases n <;> simp [signed]

theorem le_largest {q : ℚ} (h : q ≤ 2 ^ 128) : q ≤ largest := by
  have hmono : (2 : ℚ) ^ (128 : ℤ) ≤ 2 ^ (971 : ℤ) := zpow_le_zpow_right₀ (by norm_num) (by norm_num)
  calc q ≤ 1 * 2 ^ (128 : ℤ) := by
        rw [one_mul]
        exact_mod_cast h
    _ ≤ largest := mul_le_mul (by norm_num) hmono (by positivity) (by norm_num)

theorem abs_le_largest {q : ℚ} (h0 : 0 ≤ q) (h : q ≤ 2 ^ 128) : |q| ≤ largest := by
  rw [abs_of_nonneg h0]
  exact le_largest h

theorem neg_pack (m : Nat) (e : Int) : pack true m e = -pack false m e := by
  change _ = (pack false m e).neg
  unfold pack
  split <;> rfl

theorem round_true (a b : Nat) : round true a b = -round false a b := by
  unfold round
  split
  · rfl
  · dsimp only
    split
    · exact neg_pack _ _
    · exact neg_pack _ _

theorem round_cases_signed (n : Bool) (a : Nat) {b : Nat} (hb : 0 < b) :
    Rounds (signed n (a / b)) (round n a b) ∨
      (round n a b = .infinity n ∧ largest < a / b) := by
  cases n with
  | false => exact round_cases a hb
  | true =>
    rw [round_true]
    rcases round_cases a hb with h | ⟨h, hbig⟩
    · exact .inl h.neg
    · exact .inr ⟨by rw [h]; rfl, hbig⟩

theorem roundScaled_cases (n : Bool) (c e : Int) :
    Rounds (c * 2 ^ e) (roundScaled n c e) ∨
      (roundScaled n c e = .infinity (decide (c < 0)) ∧ largest < |(c : ℚ) * 2 ^ e|) := by
  by_cases hc : c = 0
  · refine .inl ⟨?_, ?_, ?_, ?_⟩ <;> simp [roundScaled, hc, halfLeast_pos.le]
  have hcoef : c = coefficient (decide (c < 0)) c.natAbs := by
    unfold coefficient
    split <;> rename_i hneg <;> rw [decide_eq_true_eq] at hneg <;> omega
  have hvalue : (c : ℚ) * 2 ^ e = signed (decide (c < 0)) (c.natAbs * 2 ^ e) := by
    rw [← signed_mul_right, ← coefficient_eq_signed, ← hcoef]
  rw [hvalue, abs_signed, abs_of_nonneg (by positivity)]
  unfold roundScaled
  rw [if_neg hc]
  cases e with
  | ofNat k =>
    have h := round_cases_signed (decide (c < 0)) (c.natAbs * twoTo k) Nat.one_pos
    simpa [twoTo_cast] using h
  | negSucc k =>
    have h := round_cases_signed (decide (c < 0)) c.natAbs (twoTo_pos (k + 1))
    simpa [twoTo_cast, div_eq_mul_inv] using h

theorem rounds_ofNat {n : Nat} (h : (n : ℚ) ≤ largest) : Rounds n (ofNat n) := by
  rcases round_cases n Nat.one_pos with hn | ⟨-, hbig⟩
  · rwa [Nat.cast_one, div_one] at hn
  · rw [Nat.cast_one, div_one] at hbig
    exact absurd hbig h.not_gt

section Operations

variable {x y : Binary64} (hx : x.isFinite = true) (hy : y.isFinite = true)
include hx hy

theorem rounds_add (h : |x.toRat + y.toRat| ≤ largest) : Rounds (x.toRat + y.toRat) (x + y) := by
  cases x with
  | nan n => cases hx
  | infinity n => cases hx
  | finite n m e hc =>
    cases y with
    | nan k => cases hy
    | infinity k => cases hy
    | finite k l f hc' =>
      obtain ⟨hp, hq⟩ := align_eq (coefficient n m) e (coefficient k l) f
      rw [toRat_finite, toRat_finite, ← hp, ← hq, ← add_mul] at h ⊢
      rcases roundScaled_cases (n && k) ((align (coefficient n m) e (coefficient k l) f).1 +
        (align (coefficient n m) e (coefficient k l) f).2.1)
        (align (coefficient n m) e (coefficient k l) f).2.2 with hr | ⟨-, hbig⟩
      · rwa [Int.cast_add] at hr
      · rw [Int.cast_add] at hbig
        exact absurd hbig h.not_gt

theorem rounds_sub (h : |x.toRat - y.toRat| ≤ largest) : Rounds (x.toRat - y.toRat) (x - y) := by
  have hneg : (-y).isFinite = true := by
    cases y with
    | nan n => cases hy
    | infinity n => cases hy
    | finite n m e hc => rfl
  rw [sub_eq_add_neg, ← toRat_neg] at h ⊢
  exact rounds_add hx hneg h

theorem mul_cases : Rounds (x.toRat * y.toRat) (x * y) ∨
    (x * y = .infinity (decide (x.toRat * y.toRat < 0)) ∧ largest < |x.toRat * y.toRat|) := by
  cases x with
  | nan n => cases hx
  | infinity n => cases hx
  | finite n m e hc =>
    cases y with
    | nan k => cases hy
    | infinity k => cases hy
    | finite k l f hc' =>
      have hvalue : (finite n m e hc).toRat * (finite k l f hc').toRat =
          (coefficient (n != k) (m * l) : ℤ) * 2 ^ (e + f) := by
        rw [toRat_finite, toRat_finite, coefficient_eq_signed, coefficient_eq_signed,
          coefficient_eq_signed, Nat.cast_mul, ← signed_mul, zpow_add₀ (by norm_num)]
        ring
      have hsign : ((coefficient (n != k) (m * l) : ℤ) : ℚ) * 2 ^ (e + f) < 0 ↔
          coefficient (n != k) (m * l) < 0 := by
        rw [← not_le, mul_nonneg_iff_of_pos_right (by positivity), Int.cast_nonneg_iff, not_le]
      rw [hvalue, decide_eq_decide.mpr hsign]
      exact roundScaled_cases (n != k) (coefficient (n != k) (m * l)) (e + f)

theorem rounds_mul (h : |x.toRat * y.toRat| ≤ largest) : Rounds (x.toRat * y.toRat) (x * y) :=
  (mul_cases hx hy).resolve_right fun hbig => hbig.2.not_ge h

theorem rounds_div (h0 : y.toRat ≠ 0) (h : |x.toRat / y.toRat| ≤ largest) :
    Rounds (x.toRat / y.toRat) (x / y) := by
  cases x with
  | nan n => cases hx
  | infinity n => cases hx
  | finite n m e hc =>
    cases y with
    | nan k => cases hy
    | infinity k => cases hy
    | finite k l f hc' =>
      have hl : l ≠ 0 := by
        rintro rfl
        refine h0 ?_
        rw [toRat_finite, coefficient_eq_signed]
        cases k <;> simp [signed]
      have hnum : 0 < (fraction l f).1 := by
        cases f with
        | ofNat j => exact Nat.mul_pos (Nat.pos_of_ne_zero hl) (twoTo_pos j)
        | negSucc j => exact Nat.pos_of_ne_zero hl
      have hvalue : (finite n m e hc).toRat / (finite k l f hc').toRat =
          signed (n != k) (((fraction m e).1 * (fraction l f).2 : Nat) /
            ((fraction m e).2 * (fraction l f).1 : Nat)) := by
        rw [toRat_finite, toRat_finite, coefficient_eq_signed, coefficient_eq_signed,
          signed_mul_right, signed_mul_right, ← fraction_eq, ← fraction_eq, signed_div, div_div_div_eq,
          Nat.cast_mul, Nat.cast_mul]
      rw [hvalue, abs_signed, abs_of_nonneg (by positivity)] at h
      rw [hvalue]
      change Rounds _ (Binary64.div _ _)
      rw [Binary64.div, if_neg hl]
      exact (round_cases_signed (n != k) _ (Nat.mul_pos (fraction_pos m e) hnum)).resolve_right
        fun hbig => hbig.2.not_ge h

end Operations

end WagerLedger.Binary64
