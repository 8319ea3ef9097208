import WagerLedger.Duration
import WagerLedger.Proofs.Binary64.Arithmetic

/-! # Durations as doubles

The double of a span is off by at most three half units of its last place; on the way back a
double is off by at most half a nanosecond. -/
namespace WagerLedger.Duration

open Binary64

def exactSeconds (d : Duration) : ℚ := d.nanos / 1000000000

theorem exactSeconds_nonneg (d : Duration) : 0 ≤ d.exactSeconds := by
  rw [exactSeconds]
  positivity

theorem exactSeconds_lt (d : Duration) : d.exactSeconds < 18446744073709551616 := by
  have hlt : (d.nanos : ℚ) < 18446744073709551616000000000 := by exact_mod_cast d.nanos_lt
  rw [exactSeconds, div_lt_iff₀ (by norm_num)]
  linarith

theorem exactSeconds_eq (d : Duration) :
    d.exactSeconds = d.seconds + (d.subsecond : ℚ) / 1000000000 := by
  have hsplit : (d.nanos : ℚ) = d.seconds * 1000000000 + d.subsecond := by
    exact_mod_cast (Nat.div_add_mod' d.nanos nanosPerSecond).symm
  rw [exactSeconds, hsplit]
  ring

/-- The double of a span is finite, not negative, and near the exact number of seconds. -/
theorem toDouble_spec (d : Duration) :
    d.toDouble.isFinite = true ∧ 0 ≤ d.toDouble.toRat ∧
      |d.toDouble.toRat - d.exactSeconds| ≤ 3 / 2 ^ 53 * d.exactSeconds + 1 / 2 ^ 100 := by
  have hrest : d.subsecond < 1000000000 := Nat.mod_lt _ (by decide)
  have hrestq : (d.subsecond : ℚ) < 1000000000 := by exact_mod_cast hrest
  have hlt := d.exactSeconds_lt
  have hsum := d.exactSeconds_eq
  have hwhole : (0 : ℚ) ≤ d.seconds := by positivity
  have hpart : 0 ≤ (d.subsecond : ℚ) / 1000000000 := by positivity
  have hpart' : (d.subsecond : ℚ) / 1000000000 < 1 := by
    rw [div_lt_one (by norm_num)]
    exact hrestq
  -- The whole seconds and the fraction are rounded, and then their sum is.
  have hS : Rounds d.seconds (ofNat d.seconds) := rounds_ofNat (le_largest (by linarith))
  have hF : Rounds ((d.subsecond : ℚ) / 1000000000)
      (ofNat d.subsecond / ofNat nanosPerSecond) := by
    have hn : Rounds d.subsecond (ofNat d.subsecond) := rounds_ofNat (le_largest (by linarith))
    have hN : Rounds ((1000000000 : ℕ) : ℚ) (ofNat nanosPerSecond) :=
      rounds_ofNat (le_largest (by norm_num))
    have hn' := hn.exact (onGrid_natCast (hrest.le.trans (by decide)))
    have hN' := hN.exact (onGrid_natCast (by decide))
    have h := rounds_div hn.finite hN.finite
    rw [hn', hN', Nat.cast_ofNat] at h
    exact h (by norm_num) (abs_le_largest hpart (by linarith))
  have hS0 := hS.nonneg hwhole
  have hF0 := hF.nonneg hpart
  have hSle := hS.le_add hwhole
  have hFle := hF.le_add hpart
  have htiny := halfLeast_le
  have hT : Rounds ((ofNat d.seconds).toRat + (ofNat d.subsecond / ofNat nanosPerSecond).toRat)
      d.toDouble :=
    rounds_add hS.finite hF.finite (abs_le_largest (by linarith) (by linarith))
  refine ⟨hT.finite, hT.nonneg (by linarith), ?_⟩
  have hTle := hT.le_add (by linarith)
  have hTge := hT.sub_le (by linarith)
  have hSge := hS.sub_le hwhole
  have hFge := hF.sub_le hpart
  rw [hsum, abs_le]
  constructor <;> linarith

/-- A double that is not negative becomes a whole number of nanoseconds, within half of one. -/
theorem ofDouble?_spec {x : Binary64} (hx : x.isFinite = true) (h0 : 0 ≤ x.toRat) :
    ∃ k : Nat, ofDouble? x = ofNanos? k ∧ |(k : ℚ) - x.toRat * 1000000000| ≤ 1 / 2 := by
  cases x with
  | nan n => cases hx
  | infinity n => cases hx
  | finite n m e h =>
    have hcoef : coefficient n m = m := by
      rw [toRat_finite, mul_nonneg_iff_of_pos_right (by positivity), Int.cast_nonneg_iff] at h0
      cases n with
      | false => rfl
      | true =>
        simp only [coefficient, if_true] at h0 ⊢
        omega
    have hsign : (n && m != 0) = false := by
      cases n with
      | false => rfl
      | true =>
        have hm : m = 0 := by
          simp only [coefficient, if_true] at hcoef
          omega
        simp [hm]
    refine ⟨roundEven ((fraction m e).1 * nanosPerSecond) (fraction m e).2, ?_, ?_⟩
    · simp only [ofDouble?, hsign, Bool.false_eq_true, if_false]
    · have hnear := roundEven_near ((fraction m e).1 * nanosPerSecond) (fraction_pos m e)
      rw [toRat_finite, hcoef, Int.cast_natCast, ← fraction_eq]
      rwa [Nat.cast_mul, mul_div_right_comm] at hnear

end WagerLedger.Duration
