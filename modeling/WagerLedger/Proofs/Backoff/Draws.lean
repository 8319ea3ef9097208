import WagerLedger.Proofs.Backoff.Seconds
import WagerLedger.Settlement.Backoff

/-! # How far a delay is from its interval

A delay is drawn from between `1 - f` and `1 + f` of the interval, and the interval grows to at
most the cap; both are so up to the roundings of the doubles on the way. What is drawn or grown
is a whole number of nanoseconds, and the only way to fail is that it is no duration. -/
namespace WagerLedger.Backoff

open Binary64

variable {config : RetryPlan}

def ofNanos (k : Nat) : Except DelayError Duration :=
  if h : k < 18446744073709551616000000000 then .ok ⟨k, h⟩ else .error .notADuration

theorem ofNanos_nanos (d : Duration) : ofNanos d.nanos = .ok d := dif_pos d.nanos_lt

theorem ofNanos_eq_ok {k : Nat} {d : Duration} (h : ofNanos k = .ok d) : d.nanos = k := by
  unfold ofNanos at h
  split at h <;> cases h
  rfl

theorem ofNanos_eq_error {k : Nat} {e : DelayError} (h : ofNanos k = .error e) :
    e = .notADuration := by
  unfold ofNanos at h
  split at h <;> cases h
  rfl

theorem ofSeconds_spec {x : Binary64} (hx : x.isFinite = true) (h0 : 0 ≤ x.toRat) :
    ∃ k : Nat, ofSeconds x = ofNanos k ∧ |(k : ℚ) - x.toRat * 1000000000| ≤ 1 / 2 := by
  obtain ⟨k, hk, hnear⟩ := Duration.ofDouble?_spec hx h0
  refine ⟨k, ?_, hnear⟩
  by_cases h : k < 18446744073709551616000000000 <;>
    simp [ofSeconds, hk, ofNanos, Duration.ofNanos?, h]

theorem place_spec (w : BitVec 64) :
    (place w).isFinite = true ∧ 0 ≤ (place w).toRat ∧ (place w).toRat ≤ 1 := by
  have hlt : w.toNat / 4096 < 4503599627370496 := by omega
  have hltq : ((w.toNat / 4096 : Nat) : ℚ) ≤ 4503599627370496 := by exact_mod_cast hlt.le
  have h1 : ((w.toNat / 4096 : Nat) : ℚ) / (4503599627370496 : Nat) ≤ 1 := by
    rw [div_le_one (by norm_num)]
    exact_mod_cast hlt.le
  have h := (round_cases (w.toNat / 4096) (b := 4503599627370496) (by decide)).resolve_right
    fun hbig => hbig.2.not_ge (le_largest (h1.trans (by norm_num)))
  exact ⟨h.finite, h.nonneg (by positivity), h.ge_of_ge 1 (by simpa using onGrid_two_pow 0) h1⟩

/-- A band of doubles that are not negative is neither empty nor infinite, and the draw is past
its upper end by no more than two roundings. -/
theorem drawBetween_spec {low high : Binary64} (hlow : low.isFinite = true)
    (hhigh : high.isFinite = true) (h0 : 0 ≤ low.toRat) (hle : low.toRat ≤ high.toRat)
    (hmax : high.toRat ≤ 2 ^ 100) (words : Words) :
    ∃ x, drawBetween low high words = .ok (x, words.next.2) ∧ x.isFinite = true ∧
      0 ≤ x.toRat ∧ x.toRat ≤ high.toRat + 3 / 2 ^ 53 * high.toRat + 1 / 2 ^ 120 := by
  have htiny := halfLeast_le
  have hwidth : Rounds (high.toRat - low.toRat) (high - low) :=
    rounds_sub hhigh hlow (abs_le_largest (by linarith) (by linarith))
  have hwidth0 := hwidth.nonneg (by linarith)
  have hwidthle := hwidth.le_add (by linarith)
  obtain ⟨hplace, hplace0, hplace1⟩ := place_spec (words.next.1)
  have hpart : (place words.next.1).toRat * (high - low).toRat ≤ (high - low).toRat :=
    mul_le_of_le_one_left hwidth0 hplace1
  have hpart0 : 0 ≤ (place words.next.1).toRat * (high - low).toRat :=
    mul_nonneg hplace0 hwidth0
  have hstep : Rounds ((place words.next.1).toRat * (high - low).toRat)
      (place words.next.1 * (high - low)) :=
    rounds_mul hplace hwidth.finite (abs_le_largest hpart0 (by linarith))
  have hstep0 := hstep.nonneg hpart0
  have hstepple := hstep.ge_of_ge _ (onGrid_toRat _) hpart
  have hdraw : Rounds ((place words.next.1 * (high - low)).toRat + low.toRat)
      (place words.next.1 * (high - low) + low) :=
    rounds_add hstep.finite hlow (abs_le_largest (by linarith) (by linarith))
  have hdrawle := hdraw.le_add (by linarith)
  refine ⟨_, ?_, hdraw.finite, hdraw.nonneg (by linarith), by linarith⟩
  rw [drawBetween, hlow, hhigh, (atMost_iff hlow hhigh).mpr hle, hwidth.finite]
  rfl

/-- A delay is past `1 + f` of its interval by no more than the roundings. -/
theorem drawDelay_spec (interval : Duration) {factor : Binary64}
    (hfactor : factor.inUnitInterval = true) (words : Words) :
    ∃ (k : Nat) (words' : Words),
      drawDelay interval factor words = (·, words') <$> ofNanos k ∧
      (k : ℚ) ≤ (1 + factor.toRat) * (1 + 1 / 2 ^ 49) * interval.nanos + 1 ∧
      (factor.toRat ≤ 0 → k = interval.nanos) := by
  have hf := isFinite_of_inUnitInterval hfactor
  obtain ⟨hf0, hf1⟩ := (inUnitInterval_iff hf).mp hfactor
  by_cases hzero : factor.toRat ≤ 0
  · refine ⟨interval.nanos, words, ?_, ?_, fun _ => rfl⟩
    · rw [drawDelay, if_pos ((atMost_iff hf rfl).mpr (by rwa [toRat_zero])), ofNanos_nanos]
      rfl
    · rw [le_antisymm hzero hf0]
      have : (0 : ℚ) ≤ interval.nanos := by positivity
      linarith
  obtain ⟨hT, hT0, hTnear⟩ := interval.toDouble_spec
  have hTle := (abs_le.mp hTnear).2
  have hlt := interval.exactSeconds_lt
  have htiny := halfLeast_le
  have hpart0 : 0 ≤ interval.toDouble.toRat * factor.toRat := mul_nonneg hT0 hf0
  have hpart : interval.toDouble.toRat * factor.toRat ≤ interval.toDouble.toRat :=
    mul_le_of_le_one_right hT0 hf1
  -- Three roundings to bound: of the part, of the low end and of the high end.
  have hdelta : Rounds (interval.toDouble.toRat * factor.toRat) (interval.toDouble * factor) :=
    rounds_mul hT hf (abs_le_largest hpart0 (by linarith))
  have hdelta0 := hdelta.nonneg hpart0
  have hdeltale := hdelta.le_add hpart0
  have hdeltaT := hdelta.ge_of_ge _ (onGrid_toRat _) hpart
  have hlow : Rounds (interval.toDouble.toRat - (interval.toDouble * factor).toRat)
      (interval.toDouble - interval.toDouble * factor) :=
    rounds_sub hT hdelta.finite (abs_le_largest (by linarith) (by linarith))
  have hlowT := hlow.ge_of_ge _ (onGrid_toRat interval.toDouble) (by linarith)
  have hhigh : Rounds (interval.toDouble.toRat + (interval.toDouble * factor).toRat)
      (interval.toDouble + interval.toDouble * factor) :=
    rounds_add hT hdelta.finite (abs_le_largest (by linarith) (by linarith))
  have hhighT := hhigh.le_of_le _ (onGrid_toRat interval.toDouble) (by linarith)
  have hhighle := hhigh.le_add (by linarith)
  obtain ⟨x, hdraw, hx, hx0, hxle⟩ := drawBetween_spec hlow.finite hhigh.finite
    (hlow.nonneg (by linarith)) (hlowT.trans hhighT) (by linarith) words
  obtain ⟨k, hk, hknear⟩ := ofSeconds_spec hx hx0
  refine ⟨k, words.next.2, ?_, ?_, fun h => absurd h hzero⟩
  · rw [drawDelay, if_neg (mt (atMost_iff hf rfl).mp (by rwa [toRat_zero]))]
    dsimp only
    rw [hdraw]
    change ofSeconds x >>= _ = _
    rw [hk]
    cases ofNanos k <;> rfl
  · have hkle := (abs_le.mp hknear).2
    have hband : interval.toDouble.toRat + interval.toDouble.toRat * factor.toRat ≤
        (1 + 3 / 2 ^ 53) * ((1 + factor.toRat) * interval.exactSeconds) + 1 / 2 ^ 99 := by
      nlinarith
    have hnanos : (1 + factor.toRat) * (interval.nanos : ℚ) =
        (1 + factor.toRat) * interval.exactSeconds * 1000000000 := by
      rw [Duration.exactSeconds]
      ring
    have hpos : 0 ≤ (1 + factor.toRat) * interval.exactSeconds :=
      mul_nonneg (by linarith) interval.exactSeconds_nonneg
    rw [mul_right_comm, hnanos]
    generalize (1 + factor.toRat) * interval.exactSeconds = R at *
    linarith

/-- An interval grows to at most the cap, up to the rounding of the cap. -/
theorem grow_spec (hmul : config.multiplier.isFinite = true) (hmul0 : 0 ≤ config.multiplier.toRat)
    (current : Duration) :
    ∃ k : Nat, grow config current = ofNanos k ∧
      (k : ℚ) ≤ (1 + 3 / 2 ^ 53) * config.maxInterval.nanos + 2 / 3 := by
  obtain ⟨hT, hT0, -⟩ := current.toDouble_spec
  obtain ⟨hC, hC0, hCnear⟩ := config.maxInterval.toDouble_spec
  have hprod : 0 ≤ current.toDouble.toRat * config.multiplier.toRat := mul_nonneg hT0 hmul0
  have hleast : ((current.toDouble * config.multiplier).least
        config.maxInterval.toDouble).isFinite = true ∧
      0 ≤ ((current.toDouble * config.multiplier).least config.maxInterval.toDouble).toRat ∧
      ((current.toDouble * config.multiplier).least config.maxInterval.toDouble).toRat ≤
        config.maxInterval.toDouble.toRat := by
    rcases mul_cases hT hmul with hr | ⟨hr, -⟩
    · obtain ⟨hfinite, hmin⟩ := least_finite hr.finite hC
      rw [hmin]
      exact ⟨hfinite, le_min (hr.nonneg hprod) hC0, min_le_right _ _⟩
    · rw [hr, decide_eq_false hprod.not_gt, infinity_least hC]
      exact ⟨hC, hC0, le_rfl⟩
  obtain ⟨k, hk, hknear⟩ := ofSeconds_spec hleast.1 hleast.2.1
  have hkle := (abs_le.mp hknear).2
  have hCle := (abs_le.mp hCnear).2
  have hnanos : (config.maxInterval.nanos : ℚ) = config.maxInterval.exactSeconds * 1000000000 := by
    rw [Duration.exactSeconds]
    ring
  refine ⟨k, hk, ?_⟩
  rw [hnanos]
  linarith [hleast.2.2]

end WagerLedger.Backoff
