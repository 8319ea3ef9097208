import WagerLedger.Proofs.Backoff.Bounds

/-! # Where every call of a backoff answers

A call breaks off only where a span of time leaves the range of durations, never for want of a
band to draw from. The longest span it computes is the budget and twice the cap, so with some
room above these no call within the budget breaks off. Settings read from an environment have
that room: a count of milliseconds is short of the range by a factor of a thousand. -/
namespace WagerLedger

/-- Twice the cap and the budget stay a million seconds below the longest duration. -/
def RetryPlan.Roomy (config : RetryPlan) : Prop :=
  2 * config.maxInterval.nanos + config.maxElapsed.nanos + 1000000000000000 ≤
    18446744073709551616000000000

instance (config : RetryPlan) : Decidable config.Roomy := inferInstanceAs (Decidable (_ ≤ _))

namespace Backoff

variable {config : RetryPlan}

section Steps

variable (h : config.Accepted) {b : Backoff} (hb : Capped config b) (words : Words)
  {elapsed : Duration}
include h hb

/-- A call with room above the budget answers. -/
theorem next_total_of_roomy (hroom : config.Roomy)
    (helapsed : elapsed.nanos ≤ config.maxElapsed.nanos) :
    ∃ d b' words', b.next elapsed words = .ok (d, b', words') := by
  obtain ⟨-, hf1⟩ := (Binary64.inUnitInterval_iff
    (Binary64.isFinite_of_inUnitInterval h.factor)).mp h.factor
  obtain ⟨k, words', hk, hkle, -⟩ := drawDelay_capped h hb words
  obtain ⟨j, hj, hjle⟩ := grow_capped h b.current
  have hroomq : 2 * (config.maxInterval.nanos : ℚ) + config.maxElapsed.nanos + 1000000000000000 ≤
      18446744073709551616000000000 := by
    exact_mod_cast hroom
  have helapsedq : (elapsed.nanos : ℚ) ≤ config.maxElapsed.nanos := by exact_mod_cast helapsed
  have hcap : (0 : ℚ) ≤ config.maxInterval.nanos := by positivity
  have hbudget : (0 : ℚ) ≤ config.maxElapsed.nanos := by positivity
  -- Past the random part at its largest there is still the room of the roundings.
  have hdouble : (1 + config.randomizationFactor.toRat) * (1 + 1 / 2 ^ 48) *
      config.maxInterval.nanos ≤ 2 * (1 + 1 / 2 ^ 48) * config.maxInterval.nanos := by
    gcongr
    linarith
  have hsum : elapsed.nanos + k < 18446744073709551616000000000 := by
    have hsumq : (elapsed.nanos : ℚ) + k < 18446744073709551616000000000 := by linarith
    exact_mod_cast hsumq
  have hgrown : j < 18446744073709551616000000000 := by
    have hgrownq : (j : ℚ) < 18446744073709551616000000000 := by linarith
    exact_mod_cast hgrownq
  rw [ofNanos, dif_pos (by omega)] at hk
  rw [ofNanos, dif_pos hgrown] at hj
  rw [← hb.plan] at hk hj
  obtain ⟨d, b', hnext⟩ := next_total hk hsum hj
  exact ⟨d, b', words', hnext⟩

theorem next_ne_emptyBand : b.next elapsed words ≠ .error .emptyBand := by
  intro herror
  rcases next_eq_error herror with hdraw | hsum | hgrow
  · obtain ⟨k, words', hk, -, -⟩ := drawDelay_capped h hb words
    rw [hb.plan, hk] at hdraw
    cases hd : ofNanos k with
    | error e =>
      rw [hd] at hdraw
      cases hdraw
      cases ofNanos_eq_error hd
    | ok d =>
      rw [hd] at hdraw
      cases hdraw
  · cases hsum
  · obtain ⟨j, hj, -⟩ := grow_capped h b.current
    rw [hb.plan, hj] at hgrow
    cases ofNanos_eq_error hgrow

end Steps

theorem delays_total {words : Words} {readings : List Duration} (h : config.Accepted)
    (hroom : config.Roomy) (hreadings : ∀ elapsed ∈ readings, elapsed.nanos ≤ config.maxElapsed.nanos) :
    ∃ ds, (start config).delays words readings = .ok ds := by
  cases hrun : (start config).delays words readings with
  | ok ds => exact ⟨ds, rfl⟩
  | error e =>
    refine (error_of_delays (I := Capped config) (P := fun _ => False)
      (Q := fun elapsed => elapsed.nanos ≤ config.maxElapsed.nanos)
      (fun hI hnext => (next_capped h hI hnext).1) ?_ (capped_start h) hreadings hrun).elim
    intro b words elapsed e hI hQ herror
    obtain ⟨d, b', words', hnext⟩ := next_total_of_roomy h hI words hroom hQ
    rw [hnext] at herror
    cases herror

theorem delays_ne_emptyBand {words : Words} {readings : List Duration} (h : config.Accepted) :
    (start config).delays words readings ≠ .error .emptyBand := by
  intro hrun
  refine error_of_delays (I := Capped config) (P := (· ≠ .emptyBand)) (Q := fun _ => True)
    (fun hI hnext => (next_capped h hI hnext).1) ?_ (capped_start h) (fun _ _ => trivial) hrun rfl
  rintro b words elapsed e hI - herror rfl
  exact next_ne_emptyBand h hI words herror

end Backoff

theorem Digits.extend_le {largest n k : Nat} {cs : List Char} (hn : n ≤ largest)
    (h : extend largest n cs = .ok k) : k ≤ largest := by
  induction cs generalizing n with
  | nil =>
    cases h
    exact hn
  | cons c cs ih =>
    rw [extend] at h
    split at h
    · split at h
      · rename_i hle
        exact ih hle h
      · cases h
    · cases h

theorem Digits.read_le {largest k : Nat} {cs : List Char} (h : read largest cs = .ok k) :
    k ≤ largest := by
  unfold read at h
  split at h
  · cases h
  · cases h
  · exact extend_le (Nat.zero_le _) h
  · exact extend_le (Nat.zero_le _) h

theorem Duration.readMillis_le {cs : List Char} {d : Duration} (h : readMillis cs = .ok d) :
    d.nanos ≤ 18446744073709551615000000 := by
  obtain ⟨n, hn, h⟩ := bind_eq_ok h
  have hle : n * nanosPerMilli ≤ 18446744073709551615 * nanosPerMilli :=
    Nat.mul_le_mul_right _ (Digits.read_le hn)
  split at h
  · rename_i d' hd
    cases h
    rw [Duration.nanos_ofNanos? hd]
    exact hle
  · cases h

theorem Environment.readOr_millis_le {env : Environment} {name : String} {default d : Duration}
    (hdefault : default.nanos ≤ 18446744073709551615000000)
    (h : env.readOr name readMillis default = .ok d) : d.nanos ≤ 18446744073709551615000000 := by
  unfold readOr at h
  split at h
  · cases h
    exact hdefault
  · split at h
    · rename_i hread
      cases h
      unfold readMillis Except.mapError at hread
      split at hread
      · cases hread
      · rename_i hmillis
        cases hread
        exact Duration.readMillis_le hmillis
    · cases h

theorem Settings.ofEnvironment_spec {env : Environment} {s : Settings}
    (h : ofEnvironment env = .ok s) : s.validate = .ok () ∧ s.retry.Roomy := by
  obtain ⟨s', hread, h⟩ := bind_eq_ok h
  obtain ⟨⟨⟩, hvalid, h⟩ := bind_eq_ok h
  cases h
  refine ⟨hvalid, ?_⟩
  obtain ⟨p3, -, hread⟩ := bind_eq_ok hread
  obtain ⟨p2, -, hread⟩ := bind_eq_ok hread
  obtain ⟨m3, -, hread⟩ := bind_eq_ok hread
  obtain ⟨m2, -, hread⟩ := bind_eq_ok hread
  obtain ⟨initial, -, hread⟩ := bind_eq_ok hread
  obtain ⟨multiplier, -, hread⟩ := bind_eq_ok hread
  obtain ⟨elapsed, helapsed, hread⟩ := bind_eq_ok hread
  obtain ⟨interval, hinterval, hread⟩ := bind_eq_ok hread
  obtain ⟨factor, -, hread⟩ := bind_eq_ok hread
  cases hread
  have h₁ := Environment.readOr_millis_le (by decide) helapsed
  have h₂ := Environment.readOr_millis_le (by decide) hinterval
  change 2 * interval.nanos + elapsed.nanos + _ ≤ _
  omega

/-- Accepted settings with room above twice the cap and the budget never break a call off that is
made within the budget, and settings read from an environment have that room. Without it a call
may break off, but not for want of a band to draw from. -/
theorem Settings.delays_in_range {s : Settings} (h : s.validate = .ok ()) :
    (s.retry.Roomy → ∀ (words : Words) (readings : List Duration),
      (∀ elapsed ∈ readings, elapsed.nanos ≤ s.retry.maxElapsed.nanos) →
        ∃ ds, (Backoff.start s.retry).delays words readings = .ok ds) ∧
    (∀ env, ofEnvironment env = .ok s → s.retry.Roomy) ∧
    ∀ (words : Words) (readings : List Duration),
      (Backoff.start s.retry).delays words readings ≠ .error .emptyBand := by
  have haccepted := accepted h
  refine ⟨fun hroom words readings hreadings => ?_, fun env henv => ?_, fun words readings => ?_⟩
  · exact Backoff.delays_total haccepted hroom hreadings
  · exact (ofEnvironment_spec henv).2
  · exact Backoff.delays_ne_emptyBand haccepted

theorem Settings.delays_in_range_standard :
    standard.validate = .ok () ∧ standard.retry.Roomy ∧ ofEnvironment Table.empty = .ok standard ∧
      ∃ ds, (Backoff.start standard.retry).delays (.ofList [1, 2]) [.zero, .ofMillis 1900] =
        .ok ds := by
  have h : standard.validate = .ok () := by decide +kernel
  have hroom : standard.retry.Roomy := by decide +kernel
  exact ⟨h, hroom, by decide +kernel,
    (delays_in_range h).1 hroom (.ofList [1, 2]) [.zero, .ofMillis 1900] (by decide +kernel)⟩

/-- No cap at all, written as the longest duration, and an interval that grows to it at once. -/
def Settings.uncapped : Settings :=
  { standard with
    retry := { RetryPlan.standard with
      multiplier := Binary64.roundDecimal false 1 20
      maxInterval := .longest
      randomizationFactor := Binary64.zero false } }

/-- The longest duration is no longer one as a double, so the first call breaks off. -/
theorem Settings.uncapped_breaks_off :
    uncapped.validate = .ok () ∧
      (Backoff.start uncapped.retry).delays (.ofList []) [.zero] = .error .notADuration ∧
      ¬∃ ds, (Backoff.start uncapped.retry).delays (.ofList []) [.zero] = .ok ds := by
  have hrun : (Backoff.start uncapped.retry).delays (.ofList []) [.zero] = .error .notADuration := by
    decide +kernel
  refine ⟨by decide +kernel, hrun, ?_⟩
  rintro ⟨ds, h⟩
  rw [hrun] at h
  cases h

end WagerLedger
