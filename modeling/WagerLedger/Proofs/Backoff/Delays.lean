import Mathlib.Data.List.Forall2
import WagerLedger.Settlement.Backoff

/-! # One delay after the other

A call of the backoff draws a delay and holds its end against the budget: one that fits is
granted and the interval grows, of one that does not only the words are used up. What each call
keeps and tells of its answer holds of a whole run of calls. -/
namespace WagerLedger

theorem bind_eq_ok {ε α β : Type} {x : Except ε α} {f : α → Except ε β} {b : β}
    (h : x >>= f = .ok b) : ∃ a, x = .ok a ∧ f a = .ok b := by
  cases x with
  | error e => cases h
  | ok a => exact ⟨a, rfl, h⟩

theorem bind_eq_error {ε α β : Type} {x : Except ε α} {f : α → Except ε β} {e : ε}
    (h : x >>= f = .error e) : x = .error e ∨ ∃ a, x = .ok a ∧ f a = .error e := by
  cases x with
  | error e' =>
    cases h
    exact .inl rfl
  | ok a => exact .inr ⟨a, rfl, h⟩

theorem Duration.nanos_ofNanos? {n : Nat} {d : Duration} (h : ofNanos? n = some d) :
    d.nanos = n := by
  unfold ofNanos? at h
  split at h
  · cases h
    rfl
  · cases h

theorem Duration.nanos_add? {x y z : Duration} (h : x.add? y = some z) :
    z.nanos = x.nanos + y.nanos :=
  nanos_ofNanos? h

namespace Backoff

variable {b b' : Backoff} {words words' : Words} {elapsed : Duration}

/-- What a backoff answers: a delay within the budget, with which the interval grows, or none
because the delay drawn would end past it. -/
theorem next_cases {d : Option Duration} (h : b.next elapsed words = .ok (d, b', words')) :
    ∃ delay, drawDelay b.current b.config.randomizationFactor words = .ok (delay, words') ∧
      b'.config = b.config ∧
      ((b.config.maxElapsed.nanos < elapsed.nanos + delay.nanos ∧ d = none ∧ b' = b) ∨
        (elapsed.nanos + delay.nanos ≤ b.config.maxElapsed.nanos ∧ d = some delay ∧
          grow b.config b.current = .ok b'.current)) := by
  obtain ⟨⟨delay, words₁⟩, hdraw, h⟩ := bind_eq_ok h
  dsimp only at h
  split at h
  · cases h
  rename_i total htotal
  have hsum := Duration.nanos_add? htotal
  split at h
  · cases h
    exact ⟨delay, hdraw, rfl, .inl ⟨by omega, rfl, rfl⟩⟩
  · obtain ⟨interval, hgrow, h⟩ := bind_eq_ok h
    cases h
    exact ⟨delay, hdraw, rfl, .inr ⟨by omega, rfl, hgrow⟩⟩

theorem next_granted {delay interval : Duration}
    (hdraw : drawDelay b.current b.config.randomizationFactor words = .ok (delay, words'))
    (hin : elapsed.nanos + delay.nanos ≤ b.config.maxElapsed.nanos)
    (hgrow : grow b.config b.current = .ok interval) :
    b.next elapsed words = .ok (some delay, ⟨b.config, interval⟩, words') := by
  have hsum := Nat.lt_of_le_of_lt hin b.config.maxElapsed.nanos_lt
  have htotal : elapsed.add? delay = some ⟨elapsed.nanos + delay.nanos, hsum⟩ := dif_pos hsum
  simp only [next, hdraw, hgrow, htotal, bind, Except.bind, pure, Except.pure,
    if_neg (Nat.not_lt.mpr hin)]

theorem next_refused {delay : Duration}
    (hdraw : drawDelay b.current b.config.randomizationFactor words = .ok (delay, words'))
    (hsum : elapsed.nanos + delay.nanos < 18446744073709551616000000000)
    (hover : b.config.maxElapsed.nanos < elapsed.nanos + delay.nanos) :
    b.next elapsed words = .ok (none, b, words') := by
  have htotal : elapsed.add? delay = some ⟨elapsed.nanos + delay.nanos, hsum⟩ := dif_pos hsum
  simp only [next, hdraw, htotal, bind, Except.bind, pure, Except.pure, if_pos hover]

theorem next_total {delay interval : Duration}
    (hdraw : drawDelay b.current b.config.randomizationFactor words = .ok (delay, words'))
    (hsum : elapsed.nanos + delay.nanos < 18446744073709551616000000000)
    (hgrow : grow b.config b.current = .ok interval) :
    ∃ d b', b.next elapsed words = .ok (d, b', words') := by
  rcases Nat.lt_or_ge b.config.maxElapsed.nanos (elapsed.nanos + delay.nanos) with hover | hin
  · exact ⟨none, b, next_refused hdraw hsum hover⟩
  · exact ⟨some delay, ⟨b.config, interval⟩, next_granted hdraw hin hgrow⟩

theorem next_eq_error {e : DelayError} (h : b.next elapsed words = .error e) :
    drawDelay b.current b.config.randomizationFactor words = .error e ∨ e = .durationOverflow ∨
      grow b.config b.current = .error e := by
  rcases bind_eq_error h with hdraw | ⟨⟨delay, words₁⟩, -, h⟩
  · exact .inl hdraw
  dsimp only at h
  split at h
  · cases h
    exact .inr (.inl rfl)
  · split at h
    · cases h
    · rcases bind_eq_error h with hgrow | ⟨interval, -, h⟩
      · exact .inr (.inr hgrow)
      · cases h

/-- What a backoff answers at these readings of the clock, one after the other. -/
def delays (b : Backoff) (words : Words) : List Duration → Except DelayError (List (Option Duration))
  | [] => .ok []
  | elapsed :: readings => do
    let (d, b, words) ← b.next elapsed words
    return d :: (← b.delays words readings)

variable {readings : List Duration} {ds : List (Option Duration)}

theorem delays_cons_eq_ok (h : b.delays words (elapsed :: readings) = .ok ds) :
    ∃ d b' words' ds', b.next elapsed words = .ok (d, b', words') ∧
      b'.delays words' readings = .ok ds' ∧ ds = d :: ds' := by
  obtain ⟨⟨d, b', words'⟩, hnext, h⟩ := bind_eq_ok h
  obtain ⟨ds', hrest, h⟩ := bind_eq_ok h
  cases h
  exact ⟨d, b', words', ds', hnext, hrest, rfl⟩

theorem delays_cons_eq_error {e : DelayError}
    (h : b.delays words (elapsed :: readings) = .error e) :
    b.next elapsed words = .error e ∨ ∃ d b' words', b.next elapsed words = .ok (d, b', words') ∧
      b'.delays words' readings = .error e := by
  rcases bind_eq_error h with hnext | ⟨⟨d, b', words'⟩, hnext, h⟩
  · exact .inl hnext
  rcases bind_eq_error h with hrest | ⟨ds', -, h⟩
  · exact .inr ⟨d, b', words', hnext, hrest⟩
  · cases h

section Runs

variable {I : Backoff → Prop}

theorem forall_delays {P : Duration → Option Duration → Prop}
    (hstep : ∀ {b b' : Backoff} {words words' : Words} {elapsed : Duration} {d : Option Duration},
      I b → b.next elapsed words = .ok (d, b', words') → I b' ∧ P elapsed d)
    (hI : I b) (h : b.delays words readings = .ok ds) : List.Forall₂ P readings ds := by
  induction readings generalizing b words ds with
  | nil =>
    cases h
    exact .nil
  | cons elapsed readings ih =>
    obtain ⟨d, b', words', ds', hnext, hrest, rfl⟩ := delays_cons_eq_ok h
    obtain ⟨hI', hP⟩ := hstep hI hnext
    exact .cons hP (ih hI' hrest)

theorem error_of_delays {P : DelayError → Prop} {Q : Duration → Prop} {e : DelayError}
    (hstep : ∀ {b b' : Backoff} {words words' : Words} {elapsed : Duration} {d : Option Duration},
      I b → b.next elapsed words = .ok (d, b', words') → I b')
    (herror : ∀ {b : Backoff} {words : Words} {elapsed : Duration} {e : DelayError},
      I b → Q elapsed → b.next elapsed words = .error e → P e)
    (hI : I b) (hQ : ∀ elapsed ∈ readings, Q elapsed) (h : b.delays words readings = .error e) :
    P e := by
  induction readings generalizing b words with
  | nil => cases h
  | cons elapsed readings ih =>
    rcases delays_cons_eq_error h with h | ⟨d, b', words', hnext, hrest⟩
    · exact herror hI (hQ _ List.mem_cons_self) h
    · exact ih (hstep hI hnext) (fun x hx => hQ x (List.mem_cons_of_mem _ hx)) hrest

end Runs

end Backoff

end WagerLedger
