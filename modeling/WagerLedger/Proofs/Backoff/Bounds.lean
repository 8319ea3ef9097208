import WagerLedger.Config.Settings
import WagerLedger.Proofs.Backoff.Delays
import WagerLedger.Proofs.Backoff.Draws

/-! # The cap bounds the interval, and with the random part the delay

In accepted settings the interval starts at most at the cap and is cut to it whenever it grows.
A delay is drawn around the interval afterwards and is not cut again, so what bounds it is the
cap times one and the random part. -/
namespace WagerLedger

open Binary64

/-- What the checks of the backoff leave. -/
structure RetryPlan.Accepted (config : RetryPlan) : Prop where
  initial_pos : 0 < config.initialInterval.nanos
  initial_le : config.initialInterval.nanos ≤ config.maxInterval.nanos
  multiplier : config.multiplier.isFinite = true
  one_le : 1 ≤ config.multiplier.toRat
  factor : config.randomizationFactor.inUnitInterval = true

theorem Settings.accepted_of_validateRetry {config : RetryPlan}
    (h : Settings.validateRetry config = .ok ()) : config.Accepted := by
  unfold Settings.validateRetry at h
  split at h
  · cases h
  rename_i hzero
  split at h
  · cases h
  rename_i hmul
  split at h
  · cases h
  rename_i hmax
  split at h
  · cases h
  rename_i hfactor
  rw [Bool.or_eq_true, not_or, Bool.not_eq_true', Bool.not_eq_false] at hmul
  refine ⟨?_, by omega, hmul.1, ?_, by simpa using hfactor⟩
  · have hne : config.initialInterval.nanos ≠ 0 := by simpa [Duration.isZero] using hzero
    omega
  · rw [less_iff hmul.1 rfl, toRat_one, not_lt] at hmul
    exact hmul.2

theorem Settings.accepted {s : Settings} (h : s.validate = .ok ()) : s.retry.Accepted := by
  refine accepted_of_validateRetry ?_
  obtain ⟨-, -, h⟩ := bind_eq_ok h
  obtain ⟨-, -, h⟩ := bind_eq_ok h
  obtain ⟨-, -, h⟩ := bind_eq_ok h
  obtain ⟨-, -, h⟩ := bind_eq_ok h
  exact h

namespace Backoff

variable {config : RetryPlan}

/-- The interval is at most the cap, up to the rounding of the cap to a double. -/
structure Capped (config : RetryPlan) (b : Backoff) : Prop where
  plan : b.config = config
  current_le : (b.current.nanos : ℚ) ≤ (1 + 3 / 2 ^ 53) * config.maxInterval.nanos + 2 / 3

theorem capped_start (h : config.Accepted) : Capped config (start config) := by
  have hle : (config.initialInterval.nanos : ℚ) ≤ config.maxInterval.nanos := by
    exact_mod_cast h.initial_le
  have hpos : (0 : ℚ) ≤ config.maxInterval.nanos := by positivity
  refine ⟨rfl, ?_⟩
  change (config.initialInterval.nanos : ℚ) ≤ _
  linarith

theorem Capped.current_le_cap {b : Backoff} (h : Capped config b)
    (hsmall : config.maxInterval.nanos ≤ 1000000000000000) :
    b.current.nanos ≤ config.maxInterval.nanos := by
  have hle := h.current_le
  have hsmallq : (config.maxInterval.nanos : ℚ) ≤ 1000000000000000 := by exact_mod_cast hsmall
  have hlt : (b.current.nanos : ℚ) < config.maxInterval.nanos + 1 := by linarith
  exact Nat.lt_succ_iff.mp (by exact_mod_cast hlt)

/-- A delay was drawn around an interval that is at most the cap, and is the interval where
there is no random part. -/
structure Drawn (config : RetryPlan) (delay : Duration) : Prop where
  around : ∃ interval words words',
    drawDelay interval config.randomizationFactor words = .ok (delay, words') ∧
    (config.maxInterval.nanos ≤ 1000000000000000 → interval.nanos ≤ config.maxInterval.nanos) ∧
    (config.randomizationFactor.toRat ≤ 0 → delay = interval)
  le : (delay.nanos : ℚ) ≤
    (1 + config.randomizationFactor.toRat) * (1 + 1 / 2 ^ 48) * config.maxInterval.nanos + 3

section Steps

variable (h : config.Accepted)
include h

theorem grow_capped (current : Duration) : ∃ k : Nat, grow config current = ofNanos k ∧
    (k : ℚ) ≤ (1 + 3 / 2 ^ 53) * config.maxInterval.nanos + 2 / 3 :=
  grow_spec h.multiplier (by linarith [h.one_le]) current

variable {b b' : Backoff} (hb : Capped config b) {words words' : Words}
include hb

theorem drawDelay_capped (words : Words) :
    ∃ (k : Nat) (words' : Words),
      drawDelay b.current config.randomizationFactor words = (·, words') <$> ofNanos k ∧
      (k : ℚ) ≤ (1 + config.randomizationFactor.toRat) * (1 + 1 / 2 ^ 48) *
        config.maxInterval.nanos + 3 ∧
      (config.randomizationFactor.toRat ≤ 0 → k = b.current.nanos) := by
  obtain ⟨hf0, hf1⟩ := (inUnitInterval_iff (isFinite_of_inUnitInterval h.factor)).mp h.factor
  obtain ⟨k, words', hk, hle, hzero⟩ := drawDelay_spec b.current h.factor words
  refine ⟨k, words', hk, ?_, hzero⟩
  have hcurrent := mul_le_mul_of_nonneg_left hb.current_le
    (by positivity : 0 ≤ (1 + config.randomizationFactor.toRat) * (1 + 1 / 2 ^ 49))
  have hcap : 0 ≤ (1 + config.randomizationFactor.toRat) * (config.maxInterval.nanos : ℚ) := by
    positivity
  calc (k : ℚ) ≤ _ := hle
    _ ≤ (1 + 1 / 2 ^ 48) *
          ((1 + config.randomizationFactor.toRat) * config.maxInterval.nanos) + 3 := by linarith
    _ = _ := by ring

theorem drawn_of_drawDelay {delay : Duration}
    (hdelay : drawDelay b.current config.randomizationFactor words = .ok (delay, words')) :
    Drawn config delay := by
  obtain ⟨k, words₁, hk, hle, hzero⟩ := drawDelay_capped h hb words
  rw [hdelay] at hk
  cases hd : ofNanos k with
  | error e =>
    rw [hd] at hk
    cases hk
  | ok d =>
    rw [hd] at hk
    cases hk
    obtain rfl := ofNanos_eq_ok hd
    refine ⟨⟨b.current, words, words', hdelay, hb.current_le_cap, fun hf => ?_⟩, hle⟩
    rw [hzero hf, ofNanos_nanos] at hd
    cases hd
    rfl

theorem next_capped {elapsed : Duration} {d : Option Duration}
    (hnext : b.next elapsed words = .ok (d, b', words')) :
    Capped config b' ∧ ∀ delay, d = some delay → Drawn config delay := by
  obtain ⟨delay, hdelay, hconfig, hcases⟩ := next_cases hnext
  rw [hb.plan] at hdelay hconfig hcases
  rcases hcases with ⟨-, rfl, rfl⟩ | ⟨-, rfl, hgrow⟩
  · exact ⟨hb, nofun⟩
  · obtain ⟨k, hk, hkle⟩ := grow_capped h b.current
    rw [hgrow] at hk
    refine ⟨⟨hconfig, by rwa [ofNanos_eq_ok hk.symm]⟩, ?_⟩
    rintro delay' heq
    cases heq
    exact drawn_of_drawDelay h hb hdelay

end Steps

/-- In accepted settings a granted delay is drawn around an interval that is at most the cap, but
is itself held only to one and the random part of it: it passes neither that share of the cap, up
to the roundings on the way, nor, without a random part, the cap. The cap is below a million
seconds where no rounding of its own is to pass it. -/
theorem delays_drawn_below_cap {s : Settings} (h : s.validate = .ok ()) {words : Words}
    {readings : List Duration} {ds : List (Option Duration)}
    (hrun : (start s.retry).delays words readings = .ok ds) {delay : Duration}
    (hmem : some delay ∈ ds) :
    (∃ interval words₁ words₂,
      drawDelay interval s.retry.randomizationFactor words₁ = .ok (delay, words₂) ∧
      (s.retry.maxInterval.nanos ≤ 1000000000000000 →
        interval.nanos ≤ s.retry.maxInterval.nanos)) ∧
    (delay.nanos : ℚ) ≤ (1 + s.retry.randomizationFactor.toRat) * (1 + 1 / 2 ^ 48) *
      s.retry.maxInterval.nanos + 3 ∧
    (s.retry.randomizationFactor.toRat ≤ 0 → s.retry.maxInterval.nanos ≤ 1000000000000000 →
      delay.nanos ≤ s.retry.maxInterval.nanos) := by
  have hall := forall_delays (fun hI hnext => next_capped (Settings.accepted h) hI hnext)
    (capped_start (Settings.accepted h)) hrun
  obtain ⟨i, hi, heq⟩ := List.getElem_of_mem hmem
  obtain ⟨⟨interval, words₁, words₂, hdraw, hsmall, hzero⟩, hle⟩ :=
    hall.get (hall.length_eq ▸ hi) hi delay heq
  refine ⟨⟨interval, words₁, words₂, hdraw, hsmall⟩, hle, fun hf hcap => ?_⟩
  rw [hzero hf]
  exact hsmall hcap

theorem delays_drawn_below_cap_standard :
    Settings.standard.validate = .ok () ∧
      (start Settings.standard.retry).delays (.ofList [0]) [.zero] =
        .ok [some (.ofMillis 250)] ∧
      ((Duration.ofMillis 250).nanos : ℚ) ≤
        (1 + Settings.standard.retry.randomizationFactor.toRat) * (1 + 1 / 2 ^ 48) *
          Settings.standard.retry.maxInterval.nanos + 3 := by
  have h : Settings.standard.validate = .ok () := by decide +kernel
  have hrun : (start Settings.standard.retry).delays (.ofList [0]) [.zero] =
      .ok [some (.ofMillis 250)] := by decide +kernel
  exact ⟨h, hrun, (delays_drawn_below_cap h hrun List.mem_cons_self).2.1⟩

/-- The tenth of a second as interval and cap, half of it random. -/
def halfRandom : Settings :=
  { Settings.standard with
    retry := { RetryPlan.standard with
      initialInterval := .ofMillis 100
      maxInterval := .ofMillis 100 } }

/-- The draw is not cut to the cap: with the largest word it is past it by the random part. -/
theorem delay_past_cap :
    halfRandom.validate = .ok () ∧
      (start halfRandom.retry).delays (.ofList [18446744073709551615]) [.zero] =
        .ok [some (.ofMillis 150)] ∧
      ¬(Duration.ofMillis 150).nanos ≤ halfRandom.retry.maxInterval.nanos := by
  decide +kernel

end Backoff

end WagerLedger
