import Mathlib.Algebra.GroupWithZero.Nat
import WagerLedger.Proofs.Backoff.Delays

/-! # The budget bounds what is granted

A delay is granted only if it ends within the budget, and the next reading of the clock is not
before its end. So what is granted from a reading on fits between it and the budget, and where
the delay is the interval itself a refusal is repeated at every later reading. -/
namespace WagerLedger.Backoff

/-- The nanoseconds that a granted delay takes. -/
def span (d : Option Duration) : Nat := (d.map (·.nanos)).getD 0

@[simp] theorem span_none : span none = 0 := rfl

@[simp] theorem span_some (delay : Duration) : span (some delay) = delay.nanos := rfl

/-- The clock is never read before the end of the delay that was granted last. -/
def Paced : List Duration → List (Option Duration) → Prop
  | e :: e' :: readings, d :: ds => e.nanos + span d ≤ e'.nanos ∧ Paced (e' :: readings) ds
  | _, _ => True

variable {b : Backoff} {words : Words} {readings : List Duration} {ds : List (Option Duration)}

theorem delays_within (h : b.delays words readings = .ok ds) :
    List.Forall₂ (fun e d => ∀ delay, d = some delay →
      e.nanos + delay.nanos ≤ b.config.maxElapsed.nanos) readings ds := by
  refine forall_delays (I := (·.config = b.config)) ?_ rfl h
  intro b₁ b₂ words₁ words₂ elapsed d hI hnext
  obtain ⟨delay, -, hconfig, hcases⟩ := next_cases hnext
  refine ⟨hconfig.trans hI, ?_⟩
  rintro delay' rfl
  rcases hcases with ⟨-, hnone, -⟩ | ⟨hin, hsome, -⟩
  · cases hnone
  · cases hsome
    rwa [hI] at hin

/-- Delays that end within the budget and follow each other take no more than the rest of it. -/
theorem sum_spans_le {max : Nat} {e : Duration}
    (h : List.Forall₂ (fun e d => ∀ delay, d = some delay → e.nanos + delay.nanos ≤ max)
      (e :: readings) ds) (hpaced : Paced (e :: readings) ds) :
    (ds.map span).sum = 0 ∨ e.nanos + (ds.map span).sum ≤ max := by
  induction readings generalizing e ds with
  | nil =>
    obtain _ | ⟨hd, hrest⟩ := h
    cases hrest
    rename_i d
    cases d with
    | none => exact .inl rfl
    | some delay => exact .inr (by simpa using hd delay rfl)
  | cons e' readings ih =>
    obtain _ | ⟨hd, hrest⟩ := h
    rename_i d ds
    obtain ⟨hpace, hpaced⟩ := hpaced
    rw [List.map_cons, List.sum_cons]
    rcases ih hrest hpaced with hzero | hle
    · rw [hzero, Nat.add_zero]
      cases d with
      | none => exact .inl rfl
      | some delay => exact .inr (hd delay rfl)
    · exact .inr (by omega)

theorem sum_granted_le (h : b.delays words readings = .ok ds) (hpaced : Paced readings ds) :
    (ds.map span).sum ≤ b.config.maxElapsed.nanos := by
  have hwithin := delays_within h
  cases readings with
  | nil =>
    cases hwithin
    exact Nat.zero_le _
  | cons e readings =>
    rcases sum_spans_le hwithin hpaced with hzero | hle <;> omega

theorem next_of_fixed {b' : Backoff} {words' : Words} {elapsed : Duration} {d : Option Duration}
    (hfixed : b.config.randomizationFactor.atMost (Binary64.zero false) = true)
    (h : b.next elapsed words = .ok (d, b', words')) :
    d = none ↔ b.config.maxElapsed.nanos < elapsed.nanos + b.current.nanos := by
  obtain ⟨delay, hdraw, -, hcases⟩ := next_cases h
  rw [drawDelay, if_pos hfixed] at hdraw
  cases hdraw
  rcases hcases with ⟨hover, rfl, -⟩ | ⟨hin, rfl, -⟩
  · exact iff_of_true rfl hover
  · exact iff_of_false nofun (by omega)

theorem refused_delays {e : Duration}
    (hfixed : b.config.randomizationFactor.atMost (Binary64.zero false) = true)
    (hover : b.config.maxElapsed.nanos < e.nanos + b.current.nanos)
    (h : b.delays words (e :: readings) = .ok ds) (hpaced : Paced (e :: readings) ds) :
    ∀ d ∈ ds, d = none := by
  induction readings generalizing e words ds with
  | nil =>
    obtain ⟨d, b', words', ds', hnext, hrest, rfl⟩ := delays_cons_eq_ok h
    cases hrest
    simpa using (next_of_fixed hfixed hnext).mpr hover
  | cons e' readings ih =>
    obtain ⟨d, b', words', ds', hnext, hrest, rfl⟩ := delays_cons_eq_ok h
    obtain rfl := (next_of_fixed hfixed hnext).mpr hover
    obtain ⟨-, -, -, ⟨-, -, rfl⟩ | ⟨-, ⟨⟩, -⟩⟩ := next_cases hnext
    obtain ⟨hpace, hpaced⟩ := hpaced
    rw [span_none] at hpace
    have hall := ih (by omega) hrest hpaced
    simpa using hall

/-- Without a random part, every call after a refused one is refused. -/
theorem refused_for_good
    (hfixed : b.config.randomizationFactor.atMost (Binary64.zero false) = true)
    (h : b.delays words readings = .ok ds) (hpaced : Paced readings ds)
    {ds₁ ds₂ : List (Option Duration)} (hsplit : ds = ds₁ ++ none :: ds₂) :
    ∀ d ∈ ds₂, d = none := by
  induction ds₁ generalizing b words readings ds with
  | nil =>
    cases readings with
    | nil =>
      cases h
      cases hsplit
    | cons e readings =>
      obtain ⟨d, b', words', ds', hnext, -, heq⟩ := delays_cons_eq_ok h
      rw [hsplit] at heq
      cases heq
      have hall := refused_delays hfixed ((next_of_fixed hfixed hnext).mp rfl) h hpaced
      rw [hsplit] at hall
      exact fun d hd => hall d (List.mem_cons_of_mem _ hd)
  | cons d₁ ds₁ ih =>
    cases readings with
    | nil =>
      cases h
      cases hsplit
    | cons e readings =>
      obtain ⟨d, b', words', ds', hnext, hrest, rfl⟩ := delays_cons_eq_ok h
      obtain ⟨-, -, hconfig, -⟩ := next_cases hnext
      cases hsplit
      refine ih (by rwa [hconfig]) hrest ?_ rfl
      cases readings with
      | nil => trivial
      | cons e' readings => exact hpaced.2

end WagerLedger.Backoff
