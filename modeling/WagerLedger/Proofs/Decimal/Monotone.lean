import WagerLedger.Proofs.Decimal.Wins

/-! # A larger product is not rounded below a smaller one

The smaller of two fractions fits wherever the larger one does, so it is fitted with at least as
many places. With as many places both are rounded on one grid; with more, the larger fraction had
no room for the next place and so is past every decimal that has it. -/
namespace WagerLedger

theorem roundEven_mono {a a' b : Nat} (hb : 0 < b) (h : a ≤ a') :
    roundEven a b ≤ roundEven a' b := by
  by_contra hlt
  have hlow := (roundEven_spec a hb).1
  have hhigh := (roundEven_spec a' hb).2
  have hstep : (roundEven a' b + 1) * b ≤ roundEven a b * b := Nat.mul_le_mul_right b (by omega)
  rw [Nat.add_mul] at hstep
  -- Only a tie leaves room for this, and then the two are one number.
  have heq : a = a' := by omega
  rw [heq] at hlt
  exact hlt le_rfl

namespace Decimal

/-- At one scale before the rounding. -/
theorem fit?_mono {n n' s : Nat} (h : n ≤ n') {d' : Decimal} (hd' : fit? n' s = some d') :
    ∃ d, fit? n s = some d ∧ d.toRat ≤ d'.toRat := by
  have hmin := (fitFrom_eq_some (min_le_right s maxScale) hd').1
  obtain ⟨hle', hcoef', hcases'⟩ := fit?_cases hd'
  have hround := roundEven_mono (tenTo_pos (s - d'.scale)) h
  have hroom : roundEven n (tenTo (s - d'.scale)) < limit := by
    have hlimit := d'.natAbs_lt_limit
    rw [hcoef', Int.natAbs_natCast] at hlimit
    exact hround.trans_lt hlimit
  obtain ⟨d, hd, hscale⟩ :=
    fitFrom_of_le (c := n) hmin (min_le_right s maxScale) (by rwa [Int.natAbs_natCast])
  refine ⟨d, hd, ?_⟩
  obtain ⟨hle, -, -⟩ := fit?_cases hd
  rw [toRat_fit?_natCast hd']
  rcases hscale.eq_or_lt with heq | hlt
  · rw [toRat_fit?_natCast hd, ← heq, div_le_div_iff_of_pos_right (by positivity)]
    exact_mod_cast hround
  · have hmax := d.scale_le
    have hcoarse : limit ≤ roundEven n' (tenTo (s - (d'.scale + 1))) := by
      rcases hcases' with hs | hs | hl
      · omega
      · exact absurd hlt (by rw [hs]; exact not_lt.mpr hmax)
      · exact hl
    exact (lt_of_coarse (hlt.trans_le hle) hcoarse hlt).2.le

/-- A smaller fraction is fitted where a larger one is, and not to a larger number. -/
theorem fit?_le {c c' : Int} {s s' : Nat} (hc : 0 ≤ c) (h : (c : ℚ) / 10 ^ s ≤ c' / 10 ^ s')
    {d' : Decimal} (hd' : fit? c' s' = some d') :
    ∃ d, fit? c s = some d ∧ d.toRat ≤ d'.toRat := by
  have hcommon : c * tenTo s' ≤ c' * tenTo s := by
    rw [div_le_div_iff₀ (by positivity) (by positivity), ← tenTo_cast, ← tenTo_cast] at h
    exact_mod_cast h
  have hnonneg : 0 ≤ c * tenTo s' := Int.mul_nonneg hc (Int.natCast_nonneg _)
  obtain ⟨n, hn⟩ := Int.eq_ofNat_of_zero_le hnonneg
  obtain ⟨n', hn'⟩ := Int.eq_ofNat_of_zero_le (hnonneg.trans hcommon)
  have hlow := fit?_tenTo c s s'
  have hhigh := fit?_tenTo c' s' s
  rw [hn] at hlow hcommon
  rw [hn', Nat.add_comm, hd'] at hhigh
  rw [hn'] at hcommon
  obtain ⟨e', he', hsame'⟩ : ∃ e', fit? n' (s + s') = some e' ∧ e'.toRat = d'.toRat := by
    rcases rel_cases hhigh with ⟨-, hnone⟩ | ⟨e', a, he', ha, hsame⟩
    · cases hnone
    · cases ha
      exact ⟨e', he', hsame⟩
  obtain ⟨e, he, hle⟩ := fit?_mono (by exact_mod_cast hcommon) he'
  rcases rel_cases hlow with ⟨hnone, -⟩ | ⟨a, d, ha, hd, hsame⟩
  · rw [he] at hnone
    cases hnone
  · rw [he] at ha
    cases ha
    exact ⟨d, hd, hsame ▸ hsame' ▸ hle⟩

variable {x x' y y' : Decimal}

theorem mul?_nonneg (hx : x.fitsLedger = true) (hpos : 0 ≤ x.toRat) (hy : 0 ≤ y.toRat)
    {d : Decimal} (hd : x.mul? y = some d) : 0 ≤ d.toRat := by
  have hzero := (faithful_mul? hx hpos hy hd).le_of_le .zero
    (by rw [toRat_zero]; exact mul_nonneg hpos hy)
  rwa [toRat_zero] at hzero

/-- A product of larger factors is a decimal only if that of smaller ones is, and is no smaller. -/
theorem mul?_mono (hx : x.fitsLedger = true) (hx' : x'.fitsLedger = true) (hpos : 0 < x.toRat)
    (hxx : x.toRat ≤ x'.toRat) (hy : 0 ≤ y.toRat) (hyy : y.toRat ≤ y'.toRat) {d' : Decimal}
    (hd' : x'.mul? y' = some d') : ∃ d, x.mul? y = some d ∧ d.toRat ≤ d'.toRat := by
  rcases hy.eq_or_lt with hzero | hlt
  · have hy0 : y.isZero = true := (isZero_iff y).mpr hzero.symm
    refine ⟨.zero, by simp [mul?, hy0], ?_⟩
    rw [toRat_zero]
    exact mul?_nonneg hx' (hpos.trans_le hxx).le (hy.trans hyy) hd'
  · have hfit := mul?_same_fit hx (isZero_of_isPositive ((isPositive_iff x).mpr hpos))
      (isZero_of_isPositive ((isPositive_iff y).mpr hlt))
    have hfit' := mul?_same_fit hx'
      (isZero_of_isPositive ((isPositive_iff x').mpr (hpos.trans_le hxx)))
      (isZero_of_isPositive ((isPositive_iff y').mpr (hlt.trans_le hyy)))
    rw [hd'] at hfit'
    rcases rel_cases hfit' with ⟨hnone, -⟩ | ⟨a, e', ha, he', hsame'⟩
    · cases hnone
    cases ha
    obtain ⟨e, he, hle⟩ := fit?_le (s := x.scale + y.scale)
      (Int.mul_nonneg (coefficient_nonneg hpos.le) (coefficient_nonneg hy))
      (by rw [product_div, product_div]; exact mul_le_mul hxx hyy hy (hpos.trans_le hxx).le) he'
    rw [he] at hfit
    rcases rel_cases hfit with ⟨-, hnone⟩ | ⟨d, a, hd, ha, hsame⟩
    · cases hnone
    cases ha
    exact ⟨d, hd, hsame ▸ hsame' ▸ hle⟩

theorem ledgerCut_mono {a b : ℚ} (h : a ≤ b) : ledgerCut a ≤ ledgerCut b := by
  have hpow : (0 : ℚ) < 10 ^ ledgerScale := by positivity
  have hfloor := Int.floor_le_floor (mul_le_mul_of_nonneg_right h hpow.le)
  rw [ledgerCut, ledgerCut, div_le_div_iff_of_pos_right hpow]
  exact_mod_cast hfloor

end Decimal

/-- A bigger bet or multiplier never pays less: where the larger product is a decimal, so is the
smaller one, and it is cut to no larger a win; where the smaller one is none, the larger one is
none either. -/
theorem Settlement.payout_mono {c c' : Settings} (hc : c.validate = .ok ())
    (hc' : c'.validate = .ok ()) {bet bet' : Decimal} (hbet : acceptsBet bet = true)
    (hbet' : acceptsBet bet' = true) (hle : bet.toRat ≤ bet'.toRat) {o : Outcome}
    (hmul : (o.multiplier c.odds).toRat ≤ (o.multiplier c'.odds).toRat) :
    (∀ w', c'.odds.win? bet' o = some w' →
      ∃ w, c.odds.win? bet o = some w ∧
        (w.truncate ledgerScale).toRat ≤ (w'.truncate ledgerScale).toRat) ∧
    (∀ p', payout c'.odds bet' o = .ok p' →
      ∃ p, payout c.odds bet o = .ok p ∧ p.toRat ≤ p'.toRat) ∧
    (payout c.odds bet o = .error (.payoutOverflow bet (o.multiplier c.odds)) →
      payout c'.odds bet' o = .error (.payoutOverflow bet' (o.multiplier c'.odds))) := by
  obtain ⟨hpos, hfits⟩ := acceptsBet_iff.mp hbet
  obtain ⟨hpos', hfits'⟩ := acceptsBet_iff.mp hbet'
  have hm := (Settings.neverNegative_of_validate hc).multiplier_nonneg o
  have hm' := (Settings.neverNegative_of_validate hc').multiplier_nonneg o
  have hwin : ∀ w', c'.odds.win? bet' o = some w' →
      ∃ w, c.odds.win? bet o = some w ∧
        (w.truncate ledgerScale).toRat ≤ (w'.truncate ledgerScale).toRat := by
    intro w' hw'
    obtain ⟨w, hw, hww⟩ := Decimal.mul?_mono hfits hfits' hpos hle hm hmul hw'
    refine ⟨w, hw, ?_⟩
    rw [Decimal.toRat_truncate (Decimal.mul?_nonneg hfits hpos.le hm hw),
      Decimal.toRat_truncate (Decimal.mul?_nonneg hfits' hpos'.le hm' hw')]
    exact Decimal.ledgerCut_mono hww
  refine ⟨hwin, fun p' hp' => ?_, fun herror => ?_⟩
  · cases hw' : c'.odds.win? bet' o with
    | none => simp [payout, hw'] at hp'
    | some w' =>
      obtain ⟨w, hw, hww⟩ := hwin w' hw'
      simp only [payout, hw', Except.ok.injEq] at hp'
      exact ⟨w.truncate ledgerScale, by simp only [payout, hw], hp' ▸ hww⟩
  · cases hw' : c'.odds.win? bet' o with
    | none => simp only [payout, hw']
    | some w' =>
      obtain ⟨w, hw, -⟩ := hwin w' hw'
      simp [payout, hw] at herror

def Settings.thirds : Settings :=
  { standard with odds := { Odds.standard with
      threeMatchMultiplier := ⟨3333333333333333333333333333, 28, false, by decide, by decide, nofun⟩ } }

/-- The win of a hundred is rounded at 27 places, that of one has 28. -/
theorem Settlement.payout_mono_thirds :
    let one : Decimal := ⟨1, 0, false, by decide, by decide, nofun⟩
    let hundred : Decimal := ⟨100, 0, false, by decide, by decide, nofun⟩
    (Settings.thirds.validate = .ok () ∧ acceptsBet one = true ∧ acceptsBet hundred = true ∧
      one.toRat ≤ hundred.toRat) ∧
    ∃ p, payout Settings.thirds.odds one .threeMatch = .ok p ∧ p.toRat ≤ 333333 / 10000 := by
  intro one hundred
  have hc : Settings.thirds.validate = .ok () := by decide +kernel
  have hbet : acceptsBet one = true := by decide
  have hbet' : acceptsBet hundred = true := by decide
  have hle : one.toRat ≤ hundred.toRat := by decide +kernel
  refine ⟨⟨hc, hbet, hbet', hle⟩, ?_⟩
  obtain ⟨p, hp, hpaid⟩ := (payout_mono hc hc hbet hbet' hle (o := .threeMatch) le_rfl).2.1
    ⟨333333, 4, false, by decide, by decide, nofun⟩ (by decide +kernel)
  exact ⟨p, hp, hpaid.trans (by decide +kernel)⟩

end WagerLedger
