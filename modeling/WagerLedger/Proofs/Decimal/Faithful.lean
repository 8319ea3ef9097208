import WagerLedger.Proofs.Decimal.Same

/-! # No decimal between a number and its rounding

Rounding to the nearest neighbour never passes one of them. At a given scale this is so for all
decimals of that scale; a decimal with more places is below the limit there, and whatever is
rounded at fewer places is past it before and after. So a sum and a product compare with every
decimal as the exact results do, although they may be other numbers. -/
namespace WagerLedger

theorem le_roundEven {a b m : Nat} (hb : 0 < b) (h : m * b ≤ a) : m ≤ roundEven a b := by
  have hs := (roundEven_spec a hb).2
  by_contra hc
  have hm : (roundEven a b + 1) * b ≤ m * b := Nat.mul_le_mul_right b (by omega)
  rw [Nat.add_mul] at hm
  omega

theorem roundEvenInt_natCast (n : Nat) {b : Nat} (hb : 0 < b) :
    roundEvenInt n b = roundEven n b := by
  have hnonneg : 0 ≤ roundEvenInt n b :=
    Int.mul_nonneg (Int.sign_nonneg_iff.mpr (Int.natCast_nonneg n)) (Int.natCast_nonneg _)
  have habs := natAbs_roundEvenInt (n : Int) hb
  rw [Int.natAbs_natCast] at habs
  omega

namespace Decimal

/-- No decimal lies between `x` and `d`. -/
structure Faithful (x : ℚ) (d : Decimal) : Prop where
  le_of_le : ∀ e : Decimal, e.toRat ≤ x → e.toRat ≤ d.toRat
  ge_of_ge : ∀ e : Decimal, x ≤ e.toRat → d.toRat ≤ e.toRat

theorem Faithful.same {x : ℚ} {d d' : Decimal} (h : Faithful x d) (hd : d'.Same d) :
    Faithful x d' where
  le_of_le e he := hd ▸ h.le_of_le e he
  ge_of_ge e he := hd ▸ h.ge_of_ge e he

theorem faithful_toRat (d : Decimal) : Faithful d.toRat d where
  le_of_le _ he := he
  ge_of_ge _ he := he

theorem toRat_le_iff {e : Decimal} {t : Nat} (h : e.scale ≤ t) (q : ℚ) :
    e.toRat ≤ q ↔ (e.coefficientAt t : ℚ) ≤ q * 10 ^ t := by
  rw [coefficientAt_eq e h, mul_le_mul_iff_left₀ (by positivity)]

theorem le_toRat_iff {e : Decimal} {t : Nat} (h : e.scale ≤ t) (q : ℚ) :
    q ≤ e.toRat ↔ q * 10 ^ t ≤ e.coefficientAt t := by
  rw [coefficientAt_eq e h, mul_le_mul_iff_left₀ (by positivity)]

/-- What is fitted is the rounded fraction, at its own scale or the largest one, or at a scale
past which it would have been too large. -/
theorem fit?_cases {n s : Nat} {d : Decimal} (h : fit? n s = some d) :
    d.scale ≤ s ∧ d.coefficient = roundEven n (tenTo (s - d.scale)) ∧
      (d.scale = s ∨ d.scale = maxScale ∨ limit ≤ roundEven n (tenTo (s - (d.scale + 1)))) := by
  obtain ⟨hle, hcoef, hl⟩ := fitFrom_eq_some (min_le_right s maxScale) h
  rw [roundEvenInt_natCast n (tenTo_pos _)] at hcoef
  refine ⟨hle.trans (min_le_left _ _), hcoef, ?_⟩
  by_cases hs : d.scale < min s maxScale
  · exact .inr (.inr (hl hs))
  · omega

theorem toRat_fit?_natCast {n s : Nat} {d : Decimal} (h : fit? n s = some d) :
    d.toRat = roundEven n (tenTo (s - d.scale)) / 10 ^ d.scale := by
  rw [toRat_eq, (fit?_cases h).2.1, Int.cast_natCast]

theorem toRat_lt_of_lt_scale {e : Decimal} {t : Nat} (h : t < e.scale) :
    e.toRat * 10 ^ (t + 1) ≤ 79228162514264337593543950335 := by
  have hc : (e.coefficient : ℚ) ≤ 79228162514264337593543950335 := by
    have hlt := e.coefficient_lt
    have hle : e.coefficient ≤ 79228162514264337593543950335 := by omega
    exact_mod_cast hle
  have hpow : (10 : ℚ) ^ e.scale = 10 ^ (e.scale - (t + 1)) * 10 ^ (t + 1) := by
    rw [← pow_add]
    congr 1
    omega
  have hone : (1 : ℚ) ≤ 10 ^ (e.scale - (t + 1)) := one_le_pow₀ (by norm_num)
  rw [coefficient_eq, hpow] at hc
  rcases le_total (e.toRat * 10 ^ (t + 1)) 0 with hneg | hpos
  · exact hneg.trans (by norm_num)
  · have hm := mul_le_mul_of_nonneg_left hone hpos
    calc e.toRat * 10 ^ (t + 1) = e.toRat * 10 ^ (t + 1) * 1 := (mul_one _).symm
      _ ≤ e.toRat * 10 ^ (t + 1) * 10 ^ (e.scale - (t + 1)) := hm
      _ = e.toRat * (10 ^ (e.scale - (t + 1)) * 10 ^ (t + 1)) := by ring
      _ ≤ 79228162514264337593543950335 := hc

/-- Rounding at the scale `t` does not pass a decimal of at most `t` places. -/
theorem compare_of_scale_le {n s t : Nat} (ht : t ≤ s) {e : Decimal} (he : e.scale ≤ t)
    (hpos : 0 ≤ e.toRat) :
    (e.toRat ≤ n / 10 ^ s → e.toRat ≤ roundEven n (tenTo (s - t)) / 10 ^ t) ∧
      (n / 10 ^ s ≤ e.toRat → roundEven n (tenTo (s - t)) / 10 ^ t ≤ e.toRat) := by
  have hb := tenTo_pos (s - t)
  have hsplit : (10 : ℚ) ^ s = 10 ^ t * tenTo (s - t) := by
    rw [tenTo_cast, ← pow_add]
    congr 1
    omega
  have hbq : (0 : ℚ) < tenTo (s - t) := by exact_mod_cast hb
  have hx : (n : ℚ) / 10 ^ s * 10 ^ t = n / tenTo (s - t) := by
    rw [hsplit]
    field_simp
  have hd : (roundEven n (tenTo (s - t)) : ℚ) / 10 ^ t * 10 ^ t = roundEven n (tenTo (s - t)) := by
    field_simp
  obtain ⟨m, hm⟩ : ∃ m : Nat, e.coefficientAt t = m := by
    refine Int.eq_ofNat_of_zero_le ?_
    have hq : (0 : ℚ) ≤ e.coefficientAt t := by
      rw [coefficientAt_eq e he]
      positivity
    exact_mod_cast hq
  rw [toRat_le_iff he, toRat_le_iff he, le_toRat_iff he, le_toRat_iff he, hx, hd, hm,
    Int.cast_natCast, le_div_iff₀ hbq, div_le_iff₀ hbq]
  constructor
  · intro h
    have hn : m * tenTo (s - t) ≤ n := by exact_mod_cast h
    exact_mod_cast le_roundEven hb hn
  · intro h
    have hn : n ≤ m * tenTo (s - t) := by exact_mod_cast h
    exact_mod_cast roundEven_le hb hn

/-- What has to be rounded at the scale `t` for want of room is past every decimal of more
places, before and after. -/
theorem lt_of_coarse {n s t : Nat} (ht : t < s)
    (hl : limit ≤ roundEven n (tenTo (s - (t + 1)))) {e : Decimal} (he : t < e.scale) :
    e.toRat < n / 10 ^ s ∧ e.toRat < roundEven n (tenTo (s - t)) / 10 ^ t := by
  have hbig := limit_le_of_coarser (c := n) hl
  have hR := le_of_coarser (c := n) hl
  have hlt := toRat_lt_of_lt_scale he
  rw [Int.natAbs_natCast] at hbig hR
  rw [← tenTo_sub_eq ht] at hR
  have hL : 2 * limit - 1 = 158456325028528675187087900671 := by decide
  rw [hL] at hbig
  have hbigq : (158456325028528675187087900671 : ℚ) * tenTo (s - (t + 1)) ≤ 2 * n := by
    exact_mod_cast hbig
  have hRq : (7922816251426433759354395034 : ℚ) ≤ roundEven n (tenTo (s - t)) := by
    exact_mod_cast hR
  constructor
  · have hsplit : (10 : ℚ) ^ s = 10 ^ (t + 1) * tenTo (s - (t + 1)) := by
      rw [tenTo_cast, ← pow_add]
      congr 1
      omega
    have hb : (0 : ℚ) < tenTo (s - (t + 1)) := by exact_mod_cast tenTo_pos _
    rw [lt_div_iff₀ (by positivity), hsplit, ← mul_assoc]
    have hm := mul_le_mul_of_nonneg_right hlt hb.le
    linarith
  · rw [lt_div_iff₀ (by positivity)]
    rw [pow_succ] at hlt
    linarith

theorem faithful_fit? {c : Int} (hc : 0 ≤ c) {s : Nat} {d : Decimal} (h : fit? c s = some d) :
    Faithful (c / 10 ^ s) d := by
  obtain ⟨n, rfl⟩ := Int.eq_ofNat_of_zero_le hc
  obtain ⟨hle, -, hcases⟩ := fit?_cases h
  have hd := toRat_fit?_natCast h
  have hx : (0 : ℚ) ≤ n / 10 ^ s := by positivity
  have hd0 : 0 ≤ d.toRat := by
    rw [hd]
    positivity
  -- Below zero there is nothing to compare.
  have hnonneg : ∀ e : Decimal, 0 ≤ e.toRat →
      (e.toRat ≤ n / 10 ^ s → e.toRat ≤ d.toRat) ∧ (n / 10 ^ s ≤ e.toRat → d.toRat ≤ e.toRat) := by
    intro e he
    rw [hd]
    rcases le_or_gt e.scale d.scale with hes | hes
    · exact compare_of_scale_le hle hes he
    · rcases hcases with hs | hs | hl
      · rw [hs, Nat.sub_self, show tenTo 0 = 1 from rfl, roundEven_one]
        exact ⟨id, id⟩
      · exact absurd e.scale_le (by rw [hs] at hes; exact not_le.mpr hes)
      · rcases hle.eq_or_lt with hs | hlt
        · rw [hs, Nat.sub_self, show tenTo 0 = 1 from rfl, roundEven_one]
          exact ⟨id, id⟩
        · obtain ⟨hex, hed⟩ := lt_of_coarse hlt hl hes
          exact ⟨fun _ => hed.le, fun hxe => absurd hex (not_lt.mpr hxe)⟩
  rw [Int.cast_natCast]
  refine ⟨fun e he => ?_, fun e he => (hnonneg e (hx.trans he)).2 he⟩
  rcases le_total 0 e.toRat with hpos | hneg
  · exact (hnonneg e hpos).1 he
  · exact hneg.trans hd0

variable {x y d : Decimal}

theorem faithful_add? (hxy : 0 ≤ x.toRat + y.toRat) (h : x.add? y = some d) :
    Faithful (x.toRat + y.toRat) d := by
  rcases add?_cases h with ⟨hx, rfl⟩ | ⟨hy, rfl⟩ | hf
  · rw [hx, zero_add]
    exact faithful_toRat d
  · rw [hy, add_zero]
    exact faithful_toRat d
  · have hc : 0 ≤ sumAt x y := by
      rw [← not_lt, sumAt_neg_iff, not_lt]
      exact hxy
    rw [← sumAt_div]
    exact faithful_fit? hc hf

theorem toRat_add?_eq_zero_iff (h : x.add? y = some d) : d.toRat = 0 ↔ x.toRat + y.toRat = 0 := by
  rcases add?_cases h with ⟨hx, rfl⟩ | ⟨hy, rfl⟩ | hf
  · rw [hx, zero_add]
  · rw [hy, add_zero]
  · have hs := max_scale_le x y
    have hpow : (10 : ℚ) ^ max x.scale y.scale ≠ 0 := by positivity
    have hround := round_ne_zero hs hf
    rw [← isZero_iff, isZero, beq_iff_eq, (fit?_eq_some hs hf).2.1, ← sumAt_div, div_eq_zero_iff,
      or_iff_left hpow, Int.cast_eq_zero]
    constructor
    · intro h0
      by_contra hne
      have habs := natAbs_roundEvenInt (sumAt x y) (tenTo_pos (max x.scale y.scale - d.scale))
      rw [h0] at habs
      exact hround hne habs.symm
    · intro h0
      rw [h0, roundEvenInt, Int.sign_zero, zero_mul]

/-- A difference of amounts has the sign of the exact one, and lies between zero and what was
taken from. -/
theorem sub?_decides (hx : 0 ≤ x.toRat) (hy : 0 ≤ y.toRat) :
    ∃ d, x.add? y.neg = some d ∧ (d.isNegative = true ↔ x.toRat < y.toRat) ∧
      (y.toRat ≤ x.toRat → 0 ≤ d.toRat ∧ d.toRat ≤ x.toRat ∧ (d.toRat = 0 ↔ x.toRat = y.toRat)) := by
  have hsome : (x.sub? y).isSome := sub?_isSome (coefficient_nonneg hx) (coefficient_nonneg hy)
  obtain ⟨d, hd⟩ := Option.isSome_iff_exists.mp hsome
  have hneg : x.toRat + y.neg.toRat = x.toRat - y.toRat := by
    rw [toRat_neg, sub_eq_add_neg]
  refine ⟨d, hd, ?_, fun hle => ?_⟩
  · rw [isNegative_add? hd, hneg, sub_neg]
  · have hfaithful := faithful_add? (by linarith) hd
    rw [hneg] at hfaithful
    have hzero : 0 ≤ d.toRat := by
      have h0 := hfaithful.le_of_le Decimal.zero (by rw [toRat_zero]; linarith)
      rwa [toRat_zero] at h0
    refine ⟨hzero, hfaithful.ge_of_ge x (by linarith), ?_⟩
    rw [toRat_add?_eq_zero_iff hd, hneg, sub_eq_zero]

theorem le_add? (hx : 0 ≤ x.toRat) (hy : 0 ≤ y.toRat) (h : x.add? y = some d) :
    x.toRat ≤ d.toRat :=
  (faithful_add? (add_nonneg hx hy) h).le_of_le x (le_add_of_nonneg_right hy)

theorem faithful_mul? (hfits : x.fitsLedger = true) (hx : 0 ≤ x.toRat) (hy : 0 ≤ y.toRat)
    (h : x.mul? y = some d) : Faithful (x.toRat * y.toRat) d := by
  have hzero : x.isZero = true ∨ y.isZero = true → Faithful (x.toRat * y.toRat) d := by
    intro h0
    rw [mul?, if_pos (by rwa [Bool.or_eq_true]), Option.some.injEq] at h
    have hprod : x.toRat * y.toRat = Decimal.zero.toRat := by
      rw [toRat_zero, mul_eq_zero, ← isZero_iff, ← isZero_iff]
      exact h0
    rw [hprod, ← h]
    exact faithful_toRat _
  cases hx0 : x.isZero with
  | true => exact hzero (.inl hx0)
  | false =>
    cases hy0 : y.isZero with
    | true => exact hzero (.inr hy0)
    | false =>
      have hrel := mul?_same_fit hfits hx0 hy0
      rw [h] at hrel
      cases hfit : fit? (x.coefficient * y.coefficient) (x.scale + y.scale) with
      | none =>
        rw [hfit] at hrel
        cases hrel
      | some e =>
        rw [hfit] at hrel
        cases hrel with
        | some hsame =>
          have hc : 0 ≤ x.coefficient * y.coefficient :=
            Int.mul_nonneg (coefficient_nonneg hx) (coefficient_nonneg hy)
          rw [← product_div]
          exact (faithful_fit? hc hfit).same hsame

end Decimal

end WagerLedger
