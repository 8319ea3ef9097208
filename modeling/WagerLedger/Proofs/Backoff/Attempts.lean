import WagerLedger.Proofs.Backoff.Budget
import WagerLedger.Proofs.Backoff.Hosts
import WagerLedger.Proofs.Program.Closing

/-! # How many attempts fit into the budget

A retry makes one attempt after the other wherever its requests are answered, its clock does not
go back and a sleep lasts. Each attempt after the first stands at the end of one more delay, all
of them within the budget, so there are no more than the budget has room for; the one after which
no delay is granted gives the result. Neither is so where a sleep is cut short, or where there is
room for more attempts than can be numbered. -/
namespace WagerLedger

namespace Retry

variable {h : Host} {α : Type} {op : UInt32 → SpinProgram α} {s s' s₀ : Retry}
  {g g' g₀ : h.State} {limit : Duration} {e : SettlementError} {n : Nat}

/-- What a retry that started with `s₀` at `g₀` goes into the attempt after `n` others with, if
there is one. -/
def attempt? (h : Host) (op : UInt32 → SpinProgram α) (s₀ : Retry) (g₀ : h.State) :
    Nat → Option (Retry × h.State)
  | 0 => some (s₀, g₀)
  | n + 1 =>
    match attempt? h op s₀ g₀ n with
    | some (s, g) =>
      match (Retry.round .background op s).runOn h g with
      | some (.inl s, g) => some (s, g)
      | _ => none
    | none => none

/-- Every attempt ends with an error that may pass. -/
def Fails (h : Host) (op : UInt32 → SpinProgram α) : Prop :=
  ∀ n g, ∃ e g', (op n).run.runOn h g = some (.error e, g') ∧ e.isRecoverable = true

/-- After every attempt the backoff has an answer. -/
def Answered (h : Host) (op : UInt32 → SpinProgram α) (s₀ : Retry) (g₀ : h.State) : Prop :=
  ∀ n s g e g', attempt? h op s₀ g₀ n = some (s, g) →
    (op s.attempt).run.runOn h g = some (.error e, g') →
      ∃ r, s.backoff.next (.ofMillis (h.now g' - s.started)) s.words = .ok r

/-- No delay that is drawn is shorter than `d`. -/
def DelaysFrom (d : Nat) (h : Host) (op : UInt32 → SpinProgram α) (s₀ : Retry) (g₀ : h.State) :
    Prop :=
  ∀ n s g delay words, attempt? h op s₀ g₀ n = some (s, g) →
    Backoff.drawDelay s.backoff.current s.backoff.config.randomizationFactor s.words =
      .ok (delay, words) → d ≤ delay.nanos

/-- No more than `k` attempts are made, and the error of the last one is the result. -/
def EndsWithin (k : Nat) (h : Host) (op : UInt32 → SpinProgram α) (s₀ : Retry) (g₀ : h.State) :
    Prop :=
  ∃ n s g e g₁ g₂, n + 1 ≤ k ∧ attempt? h op s₀ g₀ n = some (s, g) ∧
    (op s.attempt).run.runOn h g = some (.error e, g₁) ∧
    (Retry.round .background op s).runOn h g = some (.inr (.error e), g₂) ∧
    ∀ m, n < m → attempt? h op s₀ g₀ m = none

theorem start_runOn (hkeeps : h.Keeps limit) (plan : RetryPlan) (g : h.State) :
    ∃ words g', (Retry.start plan).runOn h g = some (⟨1, h.now g, .start plan, words⟩, g') := by
  obtain ⟨g₁, hclock⟩ := hkeeps.clock g
  obtain ⟨words, g₂, hentropy⟩ := hkeeps.entropy g₁
  refine ⟨words, g₂, ?_⟩
  rw [Retry.start, Program.runOn_bind, Program.runOn_request, hclock, Option.bind_some,
    Program.runOn_bind, Program.runOn_request, hentropy]
  rfl

theorem round_runOn (hop : (op s.attempt).run.runOn h g = some (.error e, g'))
    (he : e.isRecoverable = true) :
    (Retry.round .background op s).runOn h g = (afterFailure .background s e).runOn h g' := by
  rw [Retry.round, Program.runOn_bind, hop, Option.bind_some]
  dsimp only
  rw [if_pos he]

variable {delay : Duration} {backoff : Backoff} {words : Words}

theorem afterFailure_refused (hkeeps : h.Keeps limit)
    (hnext : s.backoff.next (.ofMillis (h.now g - s.started)) s.words =
      .ok (none, backoff, words)) :
    ∃ g', (afterFailure (α := α) .background s e).runOn h g = some (.inr (.error e), g') := by
  obtain ⟨g₁, hclock⟩ := hkeeps.clock g
  obtain ⟨g₂, htold⟩ := hkeeps.clock g₁
  obtain ⟨g₃, hemit⟩ := hkeeps.emit
    (.budgetExhausted s.attempt (.ofMillis (h.now g₁ - s.started)) e) g₂
  refine ⟨g₃, ?_⟩
  have helapsed : ∀ {g g' : h.State}, h.answer .clock g = some (h.now g, g') →
      (elapsedSince s.started).runOn h g = some (.ofMillis (h.now g - s.started), g') := by
    intro g g' hclock
    rw [elapsedSince, Program.runOn_bind, Program.runOn_request, hclock]
    rfl
  rw [afterFailure, Program.runOn_bind, helapsed hclock, Option.bind_some]
  simp only [hnext]
  rw [Program.runOn_bind, helapsed htold, Option.bind_some, Program.runOn_bind,
    Program.runOn_request, hemit]
  rfl

theorem afterFailure_sleeps {g₁ g₂ : h.State} (hclock : h.answer .clock g = some (h.now g, g₁))
    (hnext : s.backoff.next (.ofMillis (h.now g - s.started)) s.words =
      .ok (some delay, backoff, words))
    (hemit : h.answer (.emit (.retrying s.attempt delay e)) g₁ = some ((), g₂))
    (hsleep : h.race .background (.sleep delay) g₂ = some (.ok (), g')) :
    (afterFailure (α := α) .background s e).runOn h g =
      (numberAfter? s.attempt).map fun m => (.inl ⟨m, s.started, backoff, words⟩, g') := by
  rw [afterFailure, elapsedSince, Program.runOn_bind, Program.runOn_bind, Program.runOn_request,
    hclock]
  simp only [Option.bind_some, pure, Program.runOn, hnext]
  rw [Program.runOn_bind, Program.runOn_request, hemit, Option.bind_some, Program.runOn_bind,
    Program.pause_eq, Program.runOn, hsleep]
  simp only [Program.runOn, Option.bind_some]
  cases numberAfter? s.attempt <;> rfl

theorem afterFailure_granted (hkeeps : h.Keeps limit)
    (hnext : s.backoff.next (.ofMillis (h.now g - s.started)) s.words =
      .ok (some delay, backoff, words)) :
    ∃ g', (afterFailure (α := α) .background s e).runOn h g =
        (numberAfter? s.attempt).map (fun m => (.inl ⟨m, s.started, backoff, words⟩, g')) ∧
      (delay.nanos ≤ limit.nanos →
        h.now g * Duration.nanosPerMilli + delay.nanos ≤
          h.now g' * Duration.nanosPerMilli) := by
  obtain ⟨g₁, hclock⟩ := hkeeps.clock g
  obtain ⟨g₂, hemit⟩ := hkeeps.emit (.retrying s.attempt delay e) g₁
  obtain ⟨g₃, hsleep, hlasts⟩ := hkeeps.sleep delay g₂
  refine ⟨g₃, afterFailure_sleeps hclock hnext hemit hsleep, fun hlimit => ?_⟩
  have h₁ := Nat.le_trans (hkeeps.answer_le hclock) (hkeeps.answer_le hemit)
  have h₂ := Nat.mul_le_mul_right Duration.nanosPerMilli h₁
  exact Nat.le_trans (Nat.add_le_add_right h₂ _) (hlasts hlimit)

/-- After `n` attempts a delay of at least `d` has been slept after each of them, within the
budget and within the time that has passed. -/
structure Stands (h : Host) (plan : RetryPlan) (t d n : Nat) (s : Retry) (g : h.State) : Prop where
  attempt : s.attempt.toNat = n + 1
  started : s.started = t
  config : s.backoff.config = plan
  now : t ≤ h.now g
  slept : n * d ≤ (h.now g - t) * Duration.nanosPerMilli
  within : n * d ≤ plan.maxElapsed.nanos

variable {plan : RetryPlan} {t d : Nat}

theorem Stands.le (hd : 0 < d) (h : Stands h plan t d n s g) : n ≤ plan.maxElapsed.nanos / d :=
  (Nat.le_div_iff_mul_le hd).mpr h.within

theorem Stands.granted (hstands : Stands h plan t d n s g) (hnow : h.now g ≤ h.now g')
    (hdelay : ∀ delay words, Backoff.drawDelay s.backoff.current
      s.backoff.config.randomizationFactor s.words = .ok (delay, words) → d ≤ delay.nanos)
    (hnext : s.backoff.next (.ofMillis (h.now g' - s.started)) s.words =
      .ok (some delay, backoff, words)) :
    backoff.config = plan ∧ d ≤ delay.nanos ∧ delay.nanos ≤ plan.maxElapsed.nanos ∧
      n * d + d ≤ plan.maxElapsed.nanos := by
  obtain ⟨delay', hdraw, hconfig, ⟨-, ⟨⟩, -⟩ | ⟨hin, ⟨⟩, -⟩⟩ := Backoff.next_cases hnext
  have hd := hdelay delay words hdraw
  rw [hstands.config] at hconfig hin
  rw [hstands.started, Duration.nanos_ofMillis] at hin
  have hstart := hstands.now
  have hslept := hstands.slept
  have hwithin := hstands.within
  have hmax : plan.maxElapsed.nanos ≤ Duration.longest.nanos :=
    Nat.le_of_lt_succ plan.maxElapsed.nanos_lt
  have hmilli : Duration.nanosPerMilli = 1000000 := rfl
  rw [hmilli] at hslept hin
  exact ⟨hconfig, hd, by omega, by omega⟩

section Attempt

variable (hkeeps : h.Keeps plan.maxElapsed) (hstands : Stands h plan t d n s g)
  (hop : (op s.attempt).run.runOn h g = some (.error e, g')) (he : e.isRecoverable = true)
  (hnext : ∃ r, s.backoff.next (.ofMillis (h.now g' - s.started)) s.words = .ok r)
  (hdelay : ∀ delay words, Backoff.drawDelay s.backoff.current
    s.backoff.config.randomizationFactor s.words = .ok (delay, words) → d ≤ delay.nanos)
include hkeeps hstands hop he hnext hdelay

theorem Stands.round (hd : 0 < d) (hroom : plan.maxElapsed.nanos / d + 1 < UInt32.size) :
    (∃ s' g'', (Retry.round .background op s).runOn h g = some (.inl s', g'')) ∨
      ∃ g'', (Retry.round .background op s).runOn h g = some (.inr (.error e), g'') := by
  obtain ⟨⟨_ | delay, backoff, words⟩, hnext⟩ := hnext
  · obtain ⟨g'', hrun⟩ := afterFailure_refused (α := α) (e := e) hkeeps hnext
    exact .inr ⟨g'', (round_runOn hop he).trans hrun⟩
  · obtain ⟨g'', hrun, -⟩ := afterFailure_granted (α := α) (e := e) hkeeps hnext
    obtain ⟨-, -, -, hin⟩ := hstands.granted (hkeeps.runOn_le hop) hdelay hnext
    have hle : n + 1 ≤ plan.maxElapsed.nanos / d := by
      rw [Nat.le_div_iff_mul_le hd, Nat.succ_mul]
      exact hin
    cases hnumber : numberAfter? s.attempt with
    | none =>
      have hlast := numberAfter?_eq_none.mp hnumber
      rw [hstands.attempt] at hlast
      omega
    | some m =>
      rw [hnumber] at hrun
      exact .inl ⟨_, g'', (round_runOn hop he).trans hrun⟩

/-- One more delay is slept, and it ends within the budget. -/
theorem Stands.again {g'' : h.State}
    (hround : (Retry.round .background op s).runOn h g = some (.inl s', g'')) :
    Stands h plan t d (n + 1) s' g'' := by
  obtain ⟨⟨_ | delay, backoff, words⟩, hnext⟩ := hnext
  · obtain ⟨g₁, hrun⟩ := afterFailure_refused (α := α) (e := e) hkeeps hnext
    rw [round_runOn hop he, hrun] at hround
    cases hround
  obtain ⟨g₁, hrun, hlasts⟩ := afterFailure_granted (α := α) (e := e) hkeeps hnext
  rw [round_runOn hop he, hrun, Option.map_eq_some_iff] at hround
  obtain ⟨m, hm, heq⟩ := hround
  cases heq
  have hop' := hkeeps.runOn_le hop
  obtain ⟨hconfig, hd, hmax, hin⟩ := hstands.granted hop' hdelay hnext
  have htime := hlasts hmax
  have hnow := hstands.now
  have hslept := hstands.slept
  have hstep : (n + 1) * d = n * d + d := Nat.succ_mul n d
  have hmilli : Duration.nanosPerMilli = 1000000 := rfl
  rw [hmilli] at hslept htime
  refine ⟨?_, hstands.started, hconfig, by omega, ?_, ?_⟩
  · rw [numberAfter?_eq_some.mp hm, hstands.attempt]
  · rw [hstep, hmilli]
    omega
  · rw [hstep]
    exact hin

end Attempt

theorem attempt?_succ (h₁ : attempt? h op s₀ g₀ n = some (s, g))
    (hround : (Retry.round .background op s).runOn h g = some (.inl s', g')) :
    attempt? h op s₀ g₀ (n + 1) = some (s', g') := by
  simp only [attempt?, h₁, hround]

theorem attempt?_succ_cases (h₁ : attempt? h op s₀ g₀ (n + 1) = some (s', g')) :
    ∃ s g, attempt? h op s₀ g₀ n = some (s, g) ∧
      (Retry.round .background op s).runOn h g = some (.inl s', g') := by
  rw [attempt?] at h₁
  split at h₁
  · rename_i s g hbefore
    split at h₁
    · rename_i s₁ g₁ hround
      cases h₁
      exact ⟨s, g, hbefore, hround⟩
    · cases h₁
  · cases h₁

theorem attempt?_add (h₁ : attempt? h op s₀ g₀ n = none) (m : Nat) :
    attempt? h op s₀ g₀ (n + m) = none := by
  induction m with
  | zero => exact h₁
  | succ m ih => rw [← Nat.add_assoc, attempt?, ih]

theorem attempt?_after (h₁ : attempt? h op s₀ g₀ n = some (s, g))
    (hround : ∀ s' g', (Retry.round .background op s).runOn h g ≠ some (.inl s', g')) {m : Nat}
    (hm : n < m) : attempt? h op s₀ g₀ m = none := by
  obtain ⟨k, rfl⟩ := Nat.exists_eq_add_of_lt hm
  have hnext : attempt? h op s₀ g₀ (n + 1) = none := by
    rw [attempt?, h₁]
    dsimp only
    split
    · rename_i s' g' hgoes
      exact (hround s' g' hgoes).elim
    · rfl
  rw [Nat.add_right_comm]
  exact attempt?_add hnext k

theorem EndsWithin.lt {k : Nat} (hends : EndsWithin k h op s₀ g₀)
    (h₁ : attempt? h op s₀ g₀ n = some (s, g)) : n < k := by
  obtain ⟨last, s', g', e, g₁, g₂, hle, -, -, -, hnone⟩ := hends
  by_contra hn
  rw [hnone n (by omega)] at h₁
  cases h₁

theorem EndsWithin.goes_on {k : Nat} (hends : EndsWithin k h op s₀ g₀)
    (h₁ : attempt? h op s₀ g₀ n = some (s, g)) :
    (Retry.round .background op s).runOn h g ≠ none := by
  intro hbreaks
  obtain ⟨last, s', g', e, g₁, g₂, -, hlast, -, hround, hnone⟩ := hends
  have hafter : ∀ m, n < m → attempt? h op s₀ g₀ m = none := fun m =>
    attempt?_after h₁ fun s' g' hgoes => by
      rw [hbreaks] at hgoes
      cases hgoes
  rcases Nat.lt_trichotomy n last with hlt | rfl | hgt
  · rw [hafter last hlt] at hlast
    cases hlast
  · cases h₁.symm.trans hlast
    rw [hbreaks] at hround
    cases hround
  · rw [hnone n hgt] at h₁
    cases h₁

section Runs

variable (hkeeps : h.Keeps plan.maxElapsed) (hstart : Stands h plan t d 0 s₀ g₀)
  (hfails : Fails h op) (hanswers : Answered h op s₀ g₀) (hdelay : DelaysFrom d h op s₀ g₀)
include hkeeps hstart hfails hanswers hdelay

theorem stands_of_attempt? (h₁ : attempt? h op s₀ g₀ n = some (s, g)) :
    Stands h plan t d n s g := by
  induction n generalizing s g with
  | zero =>
    cases h₁
    exact hstart
  | succ n ih =>
    obtain ⟨s', g', hbefore, hround⟩ := attempt?_succ_cases h₁
    obtain ⟨e, g'', hop, he⟩ := hfails s'.attempt g'
    exact (ih hbefore).again hkeeps hop he (hanswers _ _ _ _ _ hbefore hop)
      (hdelay _ _ _ · · hbefore) hround

theorem exists_last (hd : 0 < d) (hroom : plan.maxElapsed.nanos / d + 1 < UInt32.size)
    (h₁ : attempt? h op s₀ g₀ n = some (s, g)) :
    ∃ m s' g' e g₁ g₂, attempt? h op s₀ g₀ m = some (s', g') ∧
      (op s'.attempt).run.runOn h g' = some (.error e, g₁) ∧
      (Retry.round .background op s').runOn h g' = some (.inr (.error e), g₂) := by
  -- The induction is on the attempts that the budget still has room for.
  obtain ⟨k, hk⟩ : ∃ k, plan.maxElapsed.nanos / d < n + k :=
    ⟨plan.maxElapsed.nanos / d + 1, by omega⟩
  induction k generalizing n s g with
  | zero =>
    have hle := (stands_of_attempt? hkeeps hstart hfails hanswers hdelay h₁).le hd
    omega
  | succ k ih =>
    obtain ⟨e, g', hop, he⟩ := hfails s.attempt g
    have hstands := stands_of_attempt? hkeeps hstart hfails hanswers hdelay h₁
    rcases hstands.round hkeeps hop he (hanswers _ _ _ _ _ h₁ hop) (hdelay _ _ _ · · h₁) hd
      hroom with ⟨s', g'', hround⟩ | ⟨g'', hround⟩
    · exact ih (attempt?_succ h₁ hround) (by omega)
    · exact ⟨n, s, g, e, g', g'', h₁, hop, hround⟩

theorem endsWithin (hd : 0 < d) (hroom : plan.maxElapsed.nanos / d + 1 < UInt32.size) :
    EndsWithin (1 + plan.maxElapsed.nanos / d) h op s₀ g₀ := by
  obtain ⟨n, s, g', e, g₁, g₂, hlast, hop, hround⟩ :=
    exists_last hkeeps hstart hfails hanswers hdelay hd hroom (n := 0) rfl
  have hle := (stands_of_attempt? hkeeps hstart hfails hanswers hdelay hlast).le hd
  refine ⟨n, s, g', e, g₁, g₂, by omega, hlast, hop, hround, fun m => attempt?_after hlast ?_⟩
  intro s' g' hgoes
  rw [hround] at hgoes
  cases hgoes

end Runs

end Retry

/-- The same delay after every attempt, without a random part. -/
def RetryPlan.steady (delay budget : Duration) : RetryPlan where
  initialInterval := delay
  multiplier := .one
  maxElapsed := budget
  maxInterval := delay
  randomizationFactor := .zero false

namespace Steady

open RetryPlan (steady)

variable {delay budget elapsed : Duration} {words : Words}

theorem drawDelay_eq : Backoff.drawDelay delay (steady delay budget).randomizationFactor words =
    .ok (delay, words) := by
  have hfixed : (Binary64.zero false).atMost (Binary64.zero false) = true := by decide +kernel
  exact if_pos hfixed

theorem next_granted (hgrow : Backoff.grow (steady delay budget) delay = .ok delay)
    (hin : elapsed.nanos + delay.nanos ≤ budget.nanos) :
    (Backoff.start (steady delay budget)).next elapsed words =
      .ok (some delay, .start (steady delay budget), words) :=
  Backoff.next_granted drawDelay_eq hin hgrow

theorem keeps_zero : (World.host 1).Keeps .zero := World.host_keeps 1 (Nat.zero_le _)

def brokeAttempt : UInt32 → SpinProgram Unit := fun _ => throw (.insufficientFunds .zero .ten)

theorem brokeAttempt_runOn (n : UInt32) (w : World) :
    (brokeAttempt n).run.runOn (World.host 1) w =
      some (.error (.insufficientFunds .zero .ten), w) := rfl

theorem fails : Retry.Fails (World.host 1) brokeAttempt := fun n w =>
  ⟨_, w, brokeAttempt_runOn n w, rfl⟩

variable {s s₀ : Retry} {w w₀ : (World.host 1).State} {n : Nat}

/-- After `n` attempts the same delay has been slept `n` times. -/
structure After (delay budget : Duration) (n : Nat) (s : Retry) (w : (World.host 1).State) :
    Prop where
  attempt : s.attempt.toNat = n + 1
  started : s.started = 0
  backoff : s.backoff = .start (steady delay budget)
  now : (World.host 1).now w = n * delay.sleepMillis
  within : (Duration.ofMillis (n * delay.sleepMillis)).nanos ≤
    budget.nanos + Duration.nanosPerMilli

theorem After.start {entropy : Nat → Words}
    (h : (Retry.start (steady delay budget)).runOn (World.host 1) (.start entropy []) =
      some (s₀, w₀)) : After delay budget 0 s₀ w₀ := by
  cases h
  refine ⟨rfl, rfl, rfl, (Nat.zero_mul _).symm, ?_⟩
  rw [Nat.zero_mul]
  exact Nat.zero_le _

theorem round_eq (s : Retry) (w : (World.host 1).State) :
    (Retry.round .background brokeAttempt s).runOn (World.host 1) w =
      (Retry.afterFailure .background s (.insufficientFunds .zero .ten)).runOn (World.host 1) w :=
  Retry.round_runOn (brokeAttempt_runOn _ w) rfl

theorem After.next_eq (h : After delay budget n s w) :
    s.backoff.next (.ofMillis ((World.host 1).now w - s.started)) s.words =
      (Backoff.start (steady delay budget)).next (.ofMillis (n * delay.sleepMillis)) s.words := by
  rw [h.backoff, h.started, h.now, Nat.sub_zero]

theorem After.next (h : After delay budget n s w)
    (hsum : budget.nanos + delay.nanos + Duration.nanosPerMilli <
      18446744073709551616000000000)
    (hgrow : Backoff.grow (steady delay budget) delay = .ok delay) :
    ∃ r, s.backoff.next (.ofMillis ((World.host 1).now w - s.started)) s.words = .ok r := by
  have hwithin := h.within
  have hend : (Duration.ofMillis (n * delay.sleepMillis)).nanos + delay.nanos <
      18446744073709551616000000000 := by
    omega
  have hdraw : Backoff.drawDelay delay (steady delay budget).randomizationFactor s.words =
      .ok (delay, s.words) := drawDelay_eq
  obtain ⟨d, b', hnext⟩ :=
    Backoff.next_total (b := .start (steady delay budget)) hdraw hend hgrow
  exact ⟨_, h.next_eq.trans hnext⟩

theorem within_succ
    (hin : (Duration.ofMillis (n * delay.sleepMillis)).nanos + delay.nanos ≤ budget.nanos) :
    (Duration.ofMillis ((n + 1) * delay.sleepMillis)).nanos ≤
    budget.nanos + Duration.nanosPerMilli := by
  have hcover : delay.sleepMillis * Duration.nanosPerMilli ≤
      delay.nanos + Duration.nanosPerMilli := by
    have hle : delay.sleepMillis ≤ delay.coveringMillis := Nat.min_le_left _ _
    have hmul := Nat.mul_le_mul_right Duration.nanosPerMilli hle
    have hdiv := Nat.div_mul_le_self (delay.nanos + (Duration.nanosPerMilli - 1))
      Duration.nanosPerMilli
    unfold Duration.coveringMillis at hmul
    omega
  rw [Duration.nanos_ofMillis] at hin ⊢
  rw [Nat.succ_mul, Nat.add_mul]
  omega

section Rounds

variable (hgrow : Backoff.grow (steady delay budget) delay = .ok delay)
  (h : After delay budget n s w)
  (hin : (Duration.ofMillis (n * delay.sleepMillis)).nanos + delay.nanos ≤ budget.nanos)
include hgrow h hin

theorem After.sleeps : ∃ w', (World.host 1).now w' = (n + 1) * delay.sleepMillis ∧
    (Retry.round .background brokeAttempt s).runOn (World.host 1) w =
      (numberAfter? s.attempt).map fun m =>
        (.inl ⟨m, s.started, .start (steady delay budget), s.words⟩, w') := by
  have hnext := h.next_eq.trans (next_granted hgrow hin)
  refine ⟨_, ?_, (round_eq s w).trans (Retry.afterFailure_sleeps rfl hnext rfl rfl)⟩
  change (World.host 1).now w + delay.sleepMillis = _
  rw [h.now, Nat.succ_mul]

theorem After.again (hnumber : n + 2 < UInt32.size) : ∃ s' w',
    (Retry.round .background brokeAttempt s).runOn (World.host 1) w = some (.inl s', w') ∧
      After delay budget (n + 1) s' w' := by
  obtain ⟨w', hnow, hround⟩ := h.sleeps hgrow hin
  cases hm : numberAfter? s.attempt with
  | none =>
    have hlast := numberAfter?_eq_none.mp hm
    rw [h.attempt] at hlast
    omega
  | some m =>
    rw [hm] at hround
    refine ⟨_, w', hround, ?_, h.started, rfl, hnow, within_succ hin⟩
    rw [numberAfter?_eq_some.mp hm, h.attempt]

theorem After.breaks_off (hlast : n + 2 = UInt32.size) :
    (Retry.round .background brokeAttempt s).runOn (World.host 1) w = none := by
  obtain ⟨w', -, hround⟩ := h.sleeps hgrow hin
  have hnone : numberAfter? s.attempt = none := by
    rw [numberAfter?_eq_none, h.attempt]
    omega
  rw [hround, hnone]
  rfl

end Rounds

section Runs

variable (hgrow : Backoff.grow (steady delay budget) delay = .ok delay)
  (hsum : budget.nanos + delay.nanos + Duration.nanosPerMilli < 18446744073709551616000000000)
  (h₀ : After delay budget 0 s₀ w₀)
include hgrow hsum h₀

theorem After.of_attempt?
    (h : Retry.attempt? (World.host 1) brokeAttempt s₀ w₀ n = some (s, w)) :
    After delay budget n s w := by
  induction n generalizing s w with
  | zero =>
    cases h
    exact h₀
  | succ n ih =>
    obtain ⟨s', w', hbefore, hround⟩ := Retry.attempt?_succ_cases h
    have hafter := ih hbefore
    obtain ⟨⟨_ | delay', backoff, words⟩, hnext⟩ := hafter.next hsum hgrow
    · obtain ⟨w'', hrun⟩ := Retry.afterFailure_refused (α := Unit)
        (e := .insufficientFunds .zero .ten) keeps_zero hnext
      rw [round_eq, hrun] at hround
      cases hround
    · rw [hafter.next_eq] at hnext
      obtain ⟨delay'', hdraw, -, ⟨-, ⟨⟩, -⟩ | ⟨hin, ⟨⟩, -⟩⟩ := Backoff.next_cases hnext
      cases drawDelay_eq.symm.trans hdraw
      obtain ⟨w'', hnow, heq⟩ := hafter.sleeps hgrow hin
      rw [heq, Option.map_eq_some_iff] at hround
      obtain ⟨m, hm, hpair⟩ := hround
      cases hpair
      refine ⟨?_, hafter.started, rfl, hnow, within_succ hin⟩
      rw [numberAfter?_eq_some.mp hm, hafter.attempt]

theorem answered : Retry.Answered (World.host 1) brokeAttempt s₀ w₀ := by
  intro n s w e w' h hrun
  cases hrun
  exact (After.of_attempt? hgrow hsum h₀ h).next hsum hgrow

theorem delaysFrom : Retry.DelaysFrom delay.nanos (World.host 1) brokeAttempt s₀ w₀ := by
  intro n s w delay' words h hdraw
  rw [(After.of_attempt? hgrow hsum h₀ h).backoff] at hdraw
  cases drawDelay_eq.symm.trans hdraw
  exact Nat.le_refl _

omit hsum in
theorem reached (hn : n + 1 < UInt32.size)
    (hin : ∀ k, k < n →
      (Duration.ofMillis (k * delay.sleepMillis)).nanos + delay.nanos ≤ budget.nanos) :
    ∃ s w, Retry.attempt? (World.host 1) brokeAttempt s₀ w₀ n = some (s, w) ∧
      After delay budget n s w := by
  induction n with
  | zero => exact ⟨s₀, w₀, rfl, h₀⟩
  | succ n ih =>
    obtain ⟨s, w, hbefore, hafter⟩ := ih (by omega) fun k hk => hin k (by omega)
    obtain ⟨s', w', hround, hafter'⟩ := hafter.again hgrow (hin n (by omega)) (by omega)
    exact ⟨s', w', Retry.attempt?_succ hbefore hround, hafter'⟩

end Runs

end Steady

/-- The budget bounds what a backoff grants. On a clock that is never read before the end of the
delay granted last, each delay ends within the budget, all of them together are no longer than
it, and without a random part a refusal is final. So a retry of an operation that always fails
in a way that may pass, in a context that never ends and where a sleep lasts, makes no more than
one attempt and the number of times that the shortest delay goes into the budget, and its result
is the error of the last one, if that many attempts can be numbered. -/
theorem RetryPlan.budget_bounds (plan : RetryPlan) :
    (∀ words readings ds, (Backoff.start plan).delays words readings = .ok ds →
      Backoff.Paced readings ds →
        List.Forall₂ (fun e d => ∀ delay, d = some delay →
          e.nanos + delay.nanos ≤ plan.maxElapsed.nanos) readings ds ∧
        (ds.map Backoff.span).sum ≤ plan.maxElapsed.nanos ∧
        (plan.randomizationFactor.atMost (Binary64.zero false) = true →
          ∀ ds₁ ds₂, ds = ds₁ ++ none :: ds₂ → ∀ d ∈ ds₂, d = none)) ∧
    ∀ (h : Host) (α : Type) (op : UInt32 → SpinProgram α) (g : h.State),
      h.Keeps plan.maxElapsed →
        ∃ s₀ g₀, (Retry.start plan).runOn h g = some (s₀, g₀) ∧
          (Retry.Fails h op → Retry.Answered h op s₀ g₀ →
            ∀ d : Duration, 0 < d.nanos → Retry.DelaysFrom d.nanos h op s₀ g₀ →
              plan.maxElapsed.nanos / d.nanos + 1 < UInt32.size →
                Retry.EndsWithin (1 + plan.maxElapsed.nanos / d.nanos) h op s₀ g₀) := by
  refine ⟨fun words readings ds hrun hpaced => ⟨?_, ?_, ?_⟩, fun h α op g hkeeps => ?_⟩
  · exact Backoff.delays_within hrun
  · exact Backoff.sum_granted_le hrun hpaced
  · exact fun hfixed ds₁ ds₂ => Backoff.refused_for_good hfixed hrun hpaced
  obtain ⟨words, g₀, hstart⟩ := Retry.start_runOn hkeeps plan g
  refine ⟨_, g₀, hstart, fun hfails hanswers d hd hdelay hroom => ?_⟩
  have hstands : Retry.Stands h plan (h.now g) d.nanos 0 ⟨1, h.now g, .start plan, words⟩ g₀ :=
    ⟨rfl, rfl, rfl, hkeeps.runOn_le hstart, by omega, by omega⟩
  exact Retry.endsWithin hkeeps hstands hfails hanswers hdelay hd hroom

def RetryPlan.oneSecond : RetryPlan := .steady (.ofSeconds 1) (.ofSeconds 1)

theorem RetryPlan.budget_bounds_oneSecond :
    (Backoff.start oneSecond).delays (.ofList []) [.zero, .ofSeconds 1] =
        .ok [some (.ofSeconds 1), none] ∧
      (([some (Duration.ofSeconds 1), none]).map Backoff.span).sum ≤ oneSecond.maxElapsed.nanos ∧
      ∃ s₀ g₀, (Retry.start oneSecond).runOn (World.host 1) (.start (fun _ => .ofList []) []) =
          some (s₀, g₀) ∧ Retry.EndsWithin 2 (World.host 1) Steady.brokeAttempt s₀ g₀ := by
  have hrun : (Backoff.start oneSecond).delays (.ofList []) [.zero, .ofSeconds 1] =
      .ok [some (.ofSeconds 1), none] := by
    decide +kernel
  have hpaced : Backoff.Paced [.zero, .ofSeconds 1] [some (.ofSeconds 1), none] :=
    ⟨by decide +kernel, trivial⟩
  refine ⟨hrun, ((budget_bounds oneSecond).1 _ _ _ hrun hpaced).2.1, ?_⟩
  obtain ⟨s₀, w₀, hstart, hends⟩ := (budget_bounds oneSecond).2 (World.host 1) Unit
    Steady.brokeAttempt (.start (fun _ => .ofList []) []) (World.host_keeps 1 (by decide +kernel))
  have hgrow : Backoff.grow oneSecond (.ofSeconds 1) = .ok (.ofSeconds 1) := by decide +kernel
  have h₀ := Steady.After.start hstart
  have hsum : (Duration.ofSeconds 1).nanos + (Duration.ofSeconds 1).nanos +
      Duration.nanosPerMilli < 18446744073709551616000000000 := by
    decide +kernel
  exact ⟨s₀, w₀, hstart, hends Steady.fails (Steady.answered hgrow hsum h₀) (.ofSeconds 1)
    (by decide +kernel) (Steady.delaysFrom hgrow hsum h₀) (by decide +kernel)⟩

def RetryPlan.fortyYears : RetryPlan := .steady (.ofSeconds 1261440000) (.ofSeconds 3153600000)

def RetryPlan.sixtyDays : RetryPlan := .steady (.ofMillis 1) (.ofSeconds 5184000)

theorem RetryPlan.sixtyDays_room {k : Nat} (hk : k ≤ 4294967294) :
    (Duration.ofMillis (k * (Duration.ofMillis 1).sleepMillis)).nanos +
      (Duration.ofMillis 1).nanos ≤ (Duration.ofSeconds 5184000).nanos := by
  have hlast : 4294967294 * (Duration.ofMillis 1).sleepMillis * Duration.nanosPerMilli +
      (Duration.ofMillis 1).nanos ≤ (Duration.ofSeconds 5184000).nanos := by
    decide +kernel
  have hless := Nat.mul_le_mul_right (Duration.ofMillis 1).sleepMillis hk
  have hnanos := Nat.mul_le_mul_right Duration.nanosPerMilli hless
  rw [Duration.nanos_ofMillis]
  omega

/-- A retry does not always end where the budget has no room for another delay. Sleeps of forty
years are cut, so that four attempts are made where there is room for three; and a retry with a
millisecond between its attempts breaks off after the last one that has a number, long before
its budget is spent. -/
theorem RetryPlan.attempts_past_budget :
    (∃ s₀ w₀, (Retry.start fortyYears).runOn (World.host 1) (.start (fun _ => .ofList []) []) =
        some (s₀, w₀) ∧ Retry.Fails (World.host 1) Steady.brokeAttempt ∧
      Retry.Answered (World.host 1) Steady.brokeAttempt s₀ w₀ ∧
      Retry.DelaysFrom (Duration.ofSeconds 1261440000).nanos (World.host 1) Steady.brokeAttempt
        s₀ w₀ ∧
      (Retry.attempt? (World.host 1) Steady.brokeAttempt s₀ w₀ 3).isSome ∧
      fortyYears.maxElapsed.nanos / (Duration.ofSeconds 1261440000).nanos = 2 ∧
      ¬Retry.EndsWithin
        (1 + fortyYears.maxElapsed.nanos / (Duration.ofSeconds 1261440000).nanos)
        (World.host 1) Steady.brokeAttempt s₀ w₀) ∧
    ∃ s₀ w₀ s w, (Retry.start sixtyDays).runOn (World.host 1)
        (.start (fun _ => .ofList []) []) = some (s₀, w₀) ∧
      Retry.Fails (World.host 1) Steady.brokeAttempt ∧
      Retry.Answered (World.host 1) Steady.brokeAttempt s₀ w₀ ∧
      Retry.DelaysFrom (Duration.ofMillis 1).nanos (World.host 1) Steady.brokeAttempt s₀ w₀ ∧
      Retry.attempt? (World.host 1) Steady.brokeAttempt s₀ w₀ 4294967294 = some (s, w) ∧
      s.attempt = 4294967295 ∧
      (Retry.round .background Steady.brokeAttempt s).runOn (World.host 1) w = none ∧
      ¬Retry.EndsWithin (1 + sixtyDays.maxElapsed.nanos / (Duration.ofMillis 1).nanos)
        (World.host 1) Steady.brokeAttempt s₀ w₀ := by
  constructor
  -- Two delays fit into the budget, but each sleep is over after thirty years.
  · have hgrow : Backoff.grow fortyYears (.ofSeconds 1261440000) = .ok (.ofSeconds 1261440000) := by
      decide +kernel
    have hsum : (Duration.ofSeconds 3153600000).nanos + (Duration.ofSeconds 1261440000).nanos +
        Duration.nanosPerMilli < 18446744073709551616000000000 := by
      decide +kernel
    have hroom : fortyYears.maxElapsed.nanos / (Duration.ofSeconds 1261440000).nanos = 2 := by
      decide +kernel
    obtain ⟨words, w₀, hstart⟩ :=
      Retry.start_runOn Steady.keeps_zero fortyYears (.start (fun _ => .ofList []) [])
    have h₀ := Steady.After.start hstart
    obtain ⟨s, w, hfourth, -⟩ := Steady.reached hgrow h₀ (n := 3) (by decide) (by decide +kernel)
    refine ⟨_, w₀, hstart, Steady.fails, Steady.answered hgrow hsum h₀,
      Steady.delaysFrom hgrow hsum h₀, ?_, hroom, fun hends => ?_⟩
    · rw [hfourth]
      rfl
    · have hlt := hends.lt hfourth
      rw [hroom] at hlt
      omega
  · have hgrow : Backoff.grow sixtyDays (.ofMillis 1) = .ok (.ofMillis 1) := by decide +kernel
    have hsum : (Duration.ofSeconds 5184000).nanos + (Duration.ofMillis 1).nanos +
        Duration.nanosPerMilli < 18446744073709551616000000000 := by
      decide +kernel
    obtain ⟨words, w₀, hstart⟩ :=
      Retry.start_runOn Steady.keeps_zero sixtyDays (.start (fun _ => .ofList []) [])
    have h₀ := Steady.After.start hstart
    obtain ⟨s, w, hlast, hafter⟩ := Steady.reached hgrow h₀ (n := 4294967294) (by decide)
      fun k hk => RetryPlan.sixtyDays_room (by omega)
    have hbreaks := hafter.breaks_off hgrow (RetryPlan.sixtyDays_room (Nat.le_refl _)) rfl
    refine ⟨_, w₀, s, w, hstart, Steady.fails, Steady.answered hgrow hsum h₀,
      Steady.delaysFrom hgrow hsum h₀, hlast, ?_, hbreaks, fun hends => hends.goes_on hlast hbreaks⟩
    exact UInt32.toNat_inj.mp hafter.attempt

end WagerLedger
