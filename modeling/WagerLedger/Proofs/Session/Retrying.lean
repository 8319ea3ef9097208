import WagerLedger.Proofs.Backoff.Attempts
import WagerLedger.Proofs.Session.AtOnce
import WagerLedger.Proofs.Session.GivingUp
import WagerLedger.Proofs.Session.Reading

/-! # How often a settlement is attempted, and what it comes to

A settlement makes one attempt after the other, and a further one exactly when the last has
lacked funds, a delay was granted and slept, the context was still open, and there was a number
for it. So its result is that of its last attempt, or the error of a context that was over before
a delay was; where the numbers have run out it breaks off. -/
namespace WagerLedger

namespace Scenario

variable {c : Scenario} {n : Nat} {us us₀ v v' w x : List Turn} {ctx : Context}
  {ext : Identifier} {bet : Decimal} {i j : Nat} {s s' : Settlement}

/-- An attempt begins with the step after `v` and has come to its result at `w`. -/
def Attempts (c : Scenario) (n : Nat) (s : Settlement) (v w : List Turn)
    (r : Except SettlementError Spin) : Prop :=
  c.Ran n (v ++ [.step n]) s.tries w r

/-- In the attempt that begins with the step after `v`, the step after `x` makes a data call. -/
def Sees (c : Scenario) (n : Nat) (s : Settlement) (v x : List Turn) : Prop :=
  ∃ p d, c.Runs n (v ++ [.step n]) s.tries x p ∧ p.request? = some (.data d)

/-- An attempt is up: the first one when the settlement has started, and another one when one
has lacked funds, the delay after it is slept, and there is a number for it. -/
inductive Tries (c : Scenario) (n : Nat) (us₀ : List Turn) (ext : Identifier) (bet : Decimal)
    (ctx : Context) : Nat → List Turn → Settlement → Prop
  | first {us : List Turn} {s : Settlement}
      (start : c.Ran n (us₀ ++ [.step n])
        (Settlement.start (c.after us₀).shared.engine ctx ext bet) us (.inl s)) :
      Tries c n us₀ ext bet ctx 1 us s
  | again {i : Nat} {v w us : List Turn} {s : Settlement} {available required : Decimal}
      {backoff : Backoff} {words : Words} {k : UInt32} (before : Tries c n us₀ ext bet ctx i v s)
      (attempt : c.Attempts n s v w (.error (.insufficientFunds available required)))
      (waits : c.Waits n s.context s.retry w (.insufficientFunds available required) us (.ok ())
        backoff words)
      (number : numberAfter? s.retry.attempt = some k) :
      Tries c n us₀ ext bet ctx (i + 1) us
        { s with retry := ⟨k, s.retry.started, backoff, words⟩ }

/-- Of the attempts that are up by some moment, number `i` is the last, with its result. -/
structure LastAttempt (c : Scenario) (n : Nat) (us₀ : List Turn) (ext : Identifier)
    (bet : Decimal) (ctx : Context) (us : List Turn) (i : Nat) (v : List Turn) (s : Settlement)
    (w : List Turn) (r : Except SettlementError Spin) : Prop where
  tries : c.Tries n us₀ ext bet ctx i v s
  attempt : c.Attempts n s v w r
  last : ∀ j v' s', v' <+: us → c.Tries n us₀ ext bet ctx j v' s' → j ≤ i

/-- The call has returned. -/
def Returned (c : Scenario) (n : Nat) (us : List Turn) (r : Reply) : Prop :=
  ∃ clock, (c.after us).list[n]?.bind (·.ending?) = some (.answered r, clock)

/-- After the attempt, the delay that the backoff draws would end past the budget. -/
def Overruns (c : Scenario) (n : Nat) (plan : RetryPlan) (s : Settlement) (w us : List Turn) :
    Prop :=
  ∃ y delay words, w <+: y ∧ y ++ [.step n] <+: us ∧
    Backoff.drawDelay s.retry.backoff.current plan.randomizationFactor s.retry.words =
      .ok (delay, words) ∧
    plan.maxElapsed.nanos <
      (Duration.ofMillis ((c.after y).world.clock - s.retry.started)).nanos + delay.nanos

/-- What an attempt is made with. -/
structure Fits (c : Scenario) (n : Nat) (us₀ : List Turn) (ext : Identifier) (bet : Decimal)
    (ctx : Context) (i : Nat) (us : List Turn) (s : Settlement) : Prop where
  attempt : s.retry.attempt.toNat = i
  context : s.context = ctx
  externalId : s.externalId = ext
  bet : s.bet = bet
  odds : s.odds = (c.after us₀).shared.engine.odds
  config : s.retry.backoff.config = (c.after us₀).shared.engine.retry
  started : ∃ y, us₀ ++ [.step n] <+: y ∧ y ++ [.step n] <+: us ∧
    s.retry.started = (c.after y).world.clock

theorem program?_round (hq : c.program? v n = some (.done (.inl (.settle s)))) :
    c.program? (v ++ [.step n]) n = some (s.tries >>= s.rest) := by
  rw [program?_stage hq, ← Program.round_eq]
  rfl

theorem Returned.program? {r : Reply} (h : c.Returned n us r) :
    ∃ x, x <+: us ∧ c.program? x n = some (.done (.inr r)) := by
  obtain ⟨moment, hr⟩ := h
  obtain ⟨⟨client, limit, state⟩, ht, he⟩ := Option.bind_eq_some_iff.mp hr
  cases state with
  | inl q => cases he
  | inr e =>
    cases he
    cases ended ht with
    | answered x _ before program => exact ⟨x, before, program⟩

theorem ran_start (hbet : Settlement.acceptsBet bet = true) {config : Settings}
    {r : Settlement ⊕ Except SettlementError Spin}
    (h : c.Ran n w (Settlement.start config ctx ext bet) us r) :
    ∃ y started words, w <+: y ∧ y ++ [.step n] <+: us ∧
      r = .inl ⟨ctx, ext, bet, config.odds, started,
        ⟨1, (c.after y).world.clock, .start config.retry, words⟩⟩ := by
  unfold Settlement.start at h
  rw [if_pos hbet] at h
  obtain ⟨m, started, hstarted, h⟩ := h.bind_cases
  obtain ⟨m', retry, hretry, h⟩ := h.bind_cases
  cases h.of_done
  obtain ⟨m₁, now, hclock, hretry⟩ := hretry.bind_cases
  obtain ⟨m₂, words, hwords, hretry⟩ := hretry.bind_cases
  cases hretry.of_done
  obtain ⟨y, hm, hy, hnow⟩ := hclock.answered
  cases hnow
  have hus : m₁ <+: us := (hwords.isPrefix.trans hretry.isPrefix).trans h.isPrefix
  exact ⟨y, started, words, hstarted.isPrefix.trans hm, hy.trans hus, rfl⟩

theorem Tries.isPrefix (h : c.Tries n us₀ ext bet ctx i us s) : us₀ ++ [.step n] <+: us := by
  induction h with
  | first start => exact start.isPrefix
  | again before attempt waits number ih =>
    exact ((ih.trans (List.prefix_append _ _)).trans attempt.isPrefix).trans waits.isPrefix

theorem Tries.fits (h : c.Tries n us₀ ext bet ctx i us s)
    (hbet : Settlement.acceptsBet bet = true) : c.Fits n us₀ ext bet ctx i us s := by
  induction h with
  | first start =>
    obtain ⟨y, started, words, hy, hy', heq⟩ := ran_start hbet start
    cases heq
    exact ⟨rfl, rfl, rfl, rfl, rfl, rfl, y, hy, hy', rfl⟩
  | again before attempt waits number ih =>
    have hus := ((List.prefix_append _ _).trans attempt.isPrefix).trans waits.isPrefix
    obtain ⟨-, granted, -, -⟩ := waits
    obtain ⟨delay, -, hconfig, -⟩ := Backoff.next_cases granted
    obtain ⟨y, hy, hy', hstarted⟩ := ih.started
    have hnumber := (numberAfter?_eq_some.mp number).trans (congrArg (· + 1) ih.attempt)
    exact ⟨hnumber, ih.context, ih.externalId, ih.bet, ih.odds,
      hconfig.trans ih.config, y, hy, hy'.trans hus, hstarted⟩

theorem Tries.positive (h : c.Tries n us₀ ext bet ctx i us s)
    (hbet : Settlement.acceptsBet bet = true) : s.bet.isPositive = true := by
  rw [(h.fits hbet).bet]
  exact ((Bool.and_eq_true _ _).mp hbet).1

theorem ran_again {available required : Decimal} {backoff : Backoff} {words : Words} {k : UInt32}
    (attempt : c.Attempts n s v w (.error (.insufficientFunds available required)))
    (waits : c.Waits n s.context s.retry w (.insufficientFunds available required) us (.ok ())
      backoff words) (number : numberAfter? s.retry.attempt = some k) :
    c.Ran n (v ++ [.step n]) (s.tries >>= s.rest) us
      (.inl (.settle { s with retry := ⟨k, s.retry.started, backoff, words⟩ })) :=
  Ran.bind attempt ((Runs.bind (waits.ran number) s.close).bind Session.settleRound)

theorem runs_crash {available required : Decimal} {backoff : Backoff} {words : Words}
    (attempt : c.Attempts n s v w (.error (.insufficientFunds available required)))
    (waits : c.Waits n s.context s.retry w (.insufficientFunds available required) us (.ok ())
      backoff words) (number : numberAfter? s.retry.attempt = none) :
    c.Runs n (v ++ [.step n]) (s.tries >>= s.rest) us .crash := by
  have hruns := waits.runs (α := Spin)
  rw [number] at hruns
  exact Ran.bind attempt ((Runs.bind hruns s.close).bind Session.settleRound)

theorem busy {p : Program (Stage ⊕ Reply)} {z : Stage ⊕ Reply} (h : c.Ran n w p us z)
    (hq : c.program? w n = some p) (hv : w <+: v) (hv' : v ++ [.step n] <+: us)
    (a : Stage ⊕ Reply) : c.program? v n ≠ some (.done a) := by
  intro hdone
  obtain ⟨q, hbefore, hafter⟩ := Runs.split h hv ((List.prefix_append _ _).trans hv')
  rw [hbefore.program?_eq hq] at hdone
  rw [Option.some.inj hdone] at hafter
  exact hafter.idle List.prefix_rfl hv'

theorem Runs.before_end {α : Type} {p q : Program α} {a : α} {r : Request}
    (h : c.Runs n v p x q) (hr : q.request? = some r) (hran : c.Ran n v p w a) (hw : w <+: us)
    (hx : x ++ [.step n] <+: us) : x ++ [.step n] <+: w := by
  rcases prefix_or_step hw hx with hpre | hpre
  · obtain ⟨q', hbefore, hafter⟩ := h.split hran.isPrefix hpre
    rw [hbefore.unique hran] at hafter
    rw [hafter.of_done] at hr
    cases hr
  · exact hpre

/-- A call that has made no step yet and was not dropped is at its start. -/
theorem program?_fresh {op : Operation} (hop : c.calls[n]? = some op) (hstep : .step n ∉ us)
    (hdrop : .drop n ∉ us) : c.program? us n = some (.done (.inl (.start op))) := by
  induction us using List.reverseRecOn with
  | nil =>
    refine program?_eq_some.mpr ⟨Session.patience, ?_⟩
    change (c.calls.mapIdx task)[n]? = _
    rw [List.getElem?_mapIdx, hop]
    rfl
  | append_singleton us u ih =>
    rw [List.mem_append, List.mem_singleton, not_or] at hstep hdrop
    have hother : u.task? ≠ some n := by
      intro hu
      cases u with
      | step m =>
        cases hu
        exact hstep.2 rfl
      | drop m =>
        cases hu
        exact hdrop.2 rfl
      | wait millis => cases hu
    rw [program?, list_other hother]
    exact ih hstep.1 hdrop.1

section Settlements

variable (h : c.Begins n us₀ ext bet ctx) (hdrop : .drop n ∉ us₀)
include h hdrop

theorem Begins.started : c.program? (us₀ ++ [.step n]) n =
    some (Settlement.start (c.after us₀).shared.engine ctx ext bet >>= Session.settleRound) := by
  obtain ⟨name, hop, rfl⟩ := h.call
  rw [program?_stage (program?_fresh hop h.first hdrop)]
  rfl

/-- A settlement is in its start, or in the round of an attempt. -/
theorem Begins.round (hrun : us₀ ++ [.step n] <+: us) {q : Program (Stage ⊕ Reply)}
    (hq : c.program? us n = some q) :
    c.Runs n (us₀ ++ [.step n])
        (Settlement.start (c.after us₀).shared.engine ctx ext bet >>= Session.settleRound) us q ∨
      ∃ v s, us₀ ++ [.step n] <+: v ∧ v ++ [.step n] <+: us ∧
        c.program? v n = some (.done (.inl (.settle s))) ∧
        c.Runs n (v ++ [.step n]) (s.tries >>= s.rest) us q := by
  have hfirst : ∀ {x}, ¬x ++ [.step n] <+: us₀ := fun hx =>
    h.first (hx.mem (List.mem_append_right _ (List.mem_singleton_self _)))
  rcases round_of hq with ⟨op, -, -, hnone⟩ | ⟨v, stage, hv, hstage, hruns⟩
  · exact (hnone (hrun.mem (List.mem_append_right _ (List.mem_singleton_self _)))).elim
  rcases prefix_or_step ((List.prefix_append _ _).trans hv) hrun with hv₀ | hv₀
  · rcases prefix_or_step ((List.prefix_append _ _).trans hrun) hv with hv₁ | hv₁
    · obtain rfl := hv₀.eq_of_length_le hv₁.length_le
      have hstarted := h.started hdrop
      rw [program?_stage hstage] at hstarted
      rw [Option.some.inj hstarted] at hruns
      exact .inl hruns
    · exact (hfirst hv₁).elim
  · obtain ⟨g, -, -, s, rfl, -⟩ := h.looks hv₀ hstage
    change c.Runs n _ (s.round.observed >>= Session.settleRound) us _ at hruns
    rw [Program.round_eq] at hruns
    exact .inr ⟨v, s, hv₀, hv, hstage, hruns⟩

theorem Begins.stands (htries : c.Tries n us₀ ext bet ctx i us s) :
    c.program? us n = some (.done (.inl (.settle s))) := by
  induction htries with
  | first start => exact (Runs.bind start Session.settleRound).program?_eq (h.started hdrop)
  | again before attempt waits number ih =>
    exact (ran_again attempt waits number).program?_eq (program?_round ih)

/-- No other attempts are made. -/
theorem Begins.tries (hrun : us₀ ++ [.step n] <+: us)
    (hq : c.program? us n = some (.done (.inl (.settle s)))) :
    ∃ i, c.Tries n us₀ ext bet ctx i us s := by
  induction hlen : us.length using Nat.strong_induction_on generalizing us s with
  | _ k ih =>
    rcases h.round hdrop hrun hq with hruns | ⟨v, s₀, hv₀, hv, hstand, hruns⟩
    · obtain ⟨m, r, hstart, hround⟩ := Ran.bind_cases hruns
      cases r with
      | inl s' =>
        obtain ⟨hstart, heq⟩ := hstart.extend hround
        cases heq
        exact ⟨1, .first hstart⟩
      | inr r => exact (hround.closes (Program.closes_settleRound r)).elim
    · have hlt : v.length < k := by
        have hle := hv.length_le
        rw [List.length_append, List.length_singleton] at hle
        omega
      obtain ⟨i, htries⟩ := ih _ hlt hv₀ hstand rfl
      obtain ⟨w, r, hattempt, hrest⟩ := Ran.bind_cases hruns
      have hq' := (Runs.bind hattempt s₀.rest).program?_eq (program?_round hstand)
      rcases ran_rest hq' hrest with
        ⟨m, reply, -, -, heq⟩ | ⟨available, required, backoff, words, k, rfl, hwaits, hk, heq⟩
      · cases heq
      · cases heq
        exact ⟨i + 1, .again htries hattempt hwaits hk⟩

/-- Where there is no further number the call breaks off. -/
theorem Begins.breaks_off (htries : c.Tries n us₀ ext bet ctx i v s) {available required : Decimal}
    {backoff : Backoff} {words : Words}
    (hattempt : c.Attempts n s v w (.error (.insufficientFunds available required)))
    (hwaits : c.Waits n s.context s.retry w (.insufficientFunds available required) us (.ok ())
      backoff words) (hi : UInt32.size ≤ i + 1) : c.program? us n = some .crash := by
  have hnumber : numberAfter? s.retry.attempt = none :=
    numberAfter?_eq_none.mpr ((htries.fits h.accepted).attempt ▸ hi)
  exact (runs_crash hattempt hwaits hnumber).program?_eq (program?_round (h.stands hdrop htries))

/-- Before an attempt that is up each earlier one has lacked funds. -/
theorem Begins.earlier (htries : c.Tries n us₀ ext bet ctx j us s')
    (hbefore : c.Tries n us₀ ext bet ctx i v s) (hv : v ++ [.step n] <+: us) :
    i < j ∧ ∃ w available required, w <+: us ∧
      c.Attempts n s v w (.error (.insufficientFunds available required)) := by
  have hstand := h.stands hdrop hbefore
  induction htries with
  | first start =>
    exact (busy (Runs.bind start Session.settleRound) (h.started hdrop) hbefore.isPrefix hv _
      hstand).elim
  | @again i₁ v₁ w₁ us s₁ available required backoff words k before attempt waits number ih =>
    have hv₁ : v₁ ++ [.step n] <+: us := attempt.isPrefix.trans waits.isPrefix
    have hstand₁ := h.stands hdrop before
    rcases prefix_or_step ((List.prefix_append _ _).trans hv) hv₁ with hvv | hvv
    · rcases prefix_or_step ((List.prefix_append _ _).trans hv₁) hv with hvv' | hvv'
      · obtain rfl := hvv.eq_of_length_le hvv'.length_le
        cases hstand.symm.trans hstand₁
        have hi : i = i₁ := (hbefore.fits h.accepted).attempt.symm.trans
          (before.fits h.accepted).attempt
        exact ⟨hi ▸ Nat.lt_succ_self i, w₁, available, required, waits.isPrefix, attempt⟩
      · obtain ⟨hlt, w, available, required, hw, hattempt⟩ := ih hvv'
        have hpre : v₁ <+: us := (List.prefix_append _ _).trans hv₁
        exact ⟨hlt.trans (Nat.lt_succ_self _), w, available, required, hw.trans hpre, hattempt⟩
    · have hran := ran_again attempt waits number
      exact (busy hran (program?_round hstand₁) hvv hv _ hstand).elim

theorem Begins.number_le (htries : c.Tries n us₀ ext bet ctx j x s')
    (hafter : c.Tries n us₀ ext bet ctx i v s) (hx : x <+: v) : j ≤ i := by
  have hstand := h.stands hdrop hafter
  have hattempt := (htries.fits h.accepted).attempt
  rcases program?_since hx hstand with hsame | ⟨y, hy, hy', hsame⟩
  · cases hsame.symm.trans (h.stands hdrop htries)
    exact ((hafter.fits h.accepted).attempt.symm.trans hattempt).ge
  · rw [h.stands hdrop htries] at hsame
    obtain ⟨k, hk⟩ := h.tries hdrop (htries.isPrefix.trans hy) hsame
    obtain ⟨hlt, -⟩ := h.earlier hdrop hafter hk hy'
    rw [← hattempt, (hk.fits h.accepted).attempt]
    exact hlt.le

/-- What a settlement returns comes from its last attempt. -/
theorem Begins.result (hrun : us₀ ++ [.step n] <+: us) {reply : Reply}
    (hreturned : c.Returned n us reply) : ∃ i v s w r x,
      c.LastAttempt n us₀ ext bet ctx us i v s w r ∧ c.Results n s w r x reply ∧ x <+: us := by
  obtain ⟨y, hy, hdone⟩ := hreturned.program?
  have hbegan := h.began hrun hy hdone (by rintro op ⟨⟩)
  rcases h.round hdrop hbegan hdone with hruns | ⟨v, s, hv₀, hv, hstand, hruns⟩
  · obtain ⟨m, r, hstart, hround⟩ := Ran.bind_cases hruns
    obtain ⟨y, started, words, -, -, rfl⟩ := ran_start h.accepted hstart
    cases hround.of_done
  · obtain ⟨i, htries⟩ := h.tries hdrop hv₀ hstand
    obtain ⟨w, r, hattempt, hrest⟩ := Ran.bind_cases hruns
    have hq := (Runs.bind hattempt s.rest).program?_eq (program?_round hstand)
    rcases ran_rest hq hrest with
      ⟨x, reply', hx, hresults, heq⟩ | ⟨available, required, _, _, _, -, -, -, heq⟩
    · cases heq
      refine ⟨i, v, s, w, r, x, ⟨htries, hattempt, fun j v' s' hv' hj => ?_⟩, hresults, hx.trans hy⟩
      rcases prefix_or_step hv' (hv.trans hy) with hpre | hpre
      · exact h.number_le hdrop hj htries hpre
      · have hstand' := h.stands hdrop hj
        rcases List.prefix_or_prefix_of_prefix hv' hy with hvy | hyv
        · obtain ⟨q, hbefore, hafter⟩ := Runs.split hruns hpre hvy
          rw [hbefore.program?_eq (program?_round hstand)] at hstand'
          rw [Option.some.inj hstand'] at hafter
          cases hafter.of_done
        · cases program?_of_answer hyv hdone hstand'
    · cases heq

theorem Begins.answer {r : Except SettlementError Spin} {reply : Reply}
    (htries : c.Tries n us₀ ext bet ctx i v s) (hattempt : c.Attempts n s v w r)
    (hresults : c.Results n s w r x reply) (hx : x <+: us) : c.answer? us n = some reply := by
  have hrest := (Runs.bind hattempt s.rest).program?_eq (program?_round (h.stands hdrop htries))
  obtain ⟨q, hq, hcloses⟩ := hresults.closes hrest
  exact answer?_of_closes hq hcloses hx

theorem Begins.sees (htries : c.Tries n us₀ ext bet ctx i v s) {r : Except SettlementError Spin}
    (hattempt : c.Attempts n s v w r) :
    c.Reads n (v ++ [.step n]) w x ↔ c.Sees n s v x ∧ x ++ [.step n] <+: w := by
  have hround := program?_round (h.stands hdrop htries)
  constructor
  · rintro ⟨hv, hx, d, hd⟩
    obtain ⟨q, hbefore, hafter⟩ := Runs.split hattempt hv ((List.prefix_append _ _).trans hx)
    have hnot : ∀ a, q ≠ .done a := by
      rintro a rfl
      exact hafter.idle List.prefix_rfl hx
    rw [request?, hbefore.program? hround] at hd
    exact ⟨⟨q, d, hbefore, Program.request?_of_bind hnot hd⟩, hx⟩
  · rintro ⟨⟨p, d, hruns, hd⟩, hx⟩
    exact ⟨hruns.isPrefix, hx, d, hruns.request? hround hd⟩

theorem Begins.lacks {available required : Decimal} (htries : c.Tries n us₀ ext bet ctx i v s)
    (hattempt : c.Attempts n s v w (.error (.insufficientFunds available required))) :
    required = bet ∧ available.toRat < bet.toRat ∧ (∃ x, c.Sees n s v x ∧ x ++ [.step n] <+: w) ∧
      ∀ x, c.Sees n s v x → x ++ [.step n] <+: w →
        ∃ a, (c.ledger x).find? ext = some a ∧ a.balance = available := by
  have hfits := htries.fits h.accepted
  obtain ⟨hreq, hlt, ⟨x, hx⟩, hall⟩ := short_of_ran h.probes (htries.positive h.accepted)
    (program?_round (h.stands hdrop htries)) hattempt
  rw [hfits.bet] at hreq hlt
  rw [hfits.externalId] at hall
  exact ⟨hreq, hlt, ⟨x, (h.sees hdrop htries hattempt).mp hx⟩, fun x hsees hx =>
    hall x ((h.sees hdrop htries hattempt).mpr ⟨hsees, hx⟩)⟩

theorem Begins.enough {available required : Decimal} {a : Account}
    (htries : c.Tries n us₀ ext bet ctx i v s) (hsees : c.Sees n s v x)
    (hx : x ++ [.step n] <+: us) (ha : (c.ledger x).find? ext = some a)
    (hbalance : bet.toRat ≤ a.balance.toRat) (hw : w <+: us) :
    ¬c.Attempts n s v w (.error (.insufficientFunds available required)) := by
  intro hattempt
  have hpre : x ++ [.step n] <+: w := by
    obtain ⟨p, d, hruns, hd⟩ := hsees
    exact hruns.before_end hd hattempt hw hx
  obtain ⟨-, hlt, -, hall⟩ := h.lacks hdrop htries hattempt
  obtain ⟨a', ha', hb⟩ := hall x hsees hpre
  cases ha.symm.trans ha'
  rw [hb] at hbalance
  exact hbalance.not_gt hlt

theorem Begins.no_further {a : Account} (htries : c.Tries n us₀ ext bet ctx i v s)
    (hsees : c.Sees n s v x) (hx : x ++ [.step n] <+: us)
    (ha : (c.ledger x).find? ext = some a) (hbalance : bet.toRat ≤ a.balance.toRat)
    (hv' : v' <+: us) (hj : c.Tries n us₀ ext bet ctx j v' s') : j ≤ i := by
  have hv : v ++ [.step n] <+: us := by
    obtain ⟨p, d, hruns, -⟩ := hsees
    exact (hruns.isPrefix.trans (List.prefix_append _ _)).trans hx
  rcases prefix_or_step hv' hv with hpre | hpre
  · exact h.number_le hdrop hj htries hpre
  · obtain ⟨-, w, available, required, hw, hattempt⟩ := h.earlier hdrop hj htries hpre
    exact (h.enough hdrop htries hsees hx ha hbalance (hw.trans hv') hattempt).elim

/-- A lack of funds is returned only when the next delay would end past the budget. -/
theorem Begins.overruns (hrun : us₀ ++ [.step n] <+: us) {available required : Decimal}
    (hreturned : c.Returned n us (.settlementError (.insufficientFunds available required))) :
    ∃ i v s w, c.LastAttempt n us₀ ext bet ctx us i v s w
        (.error (.insufficientFunds available required)) ∧
      c.Overruns n (c.after us₀).shared.engine.retry s w us := by
  obtain ⟨i, v, s, w, r, x, hlast, hresults, hx⟩ := h.result hdrop hrun hreturned
  refine ⟨i, v, s, w, ?_⟩
  cases hresults with
  | final enough answer =>
    cases r with
    | error e =>
      cases answer
      exact (enough _ _ rfl).elim
    | ok spin =>
      obtain ⟨net, -, heq⟩ := Option.map_eq_some_iff.mp answer
      cases heq
  | spent spends =>
    obtain ⟨elapsed, backoff, words, clock, refused⟩ := spends
    obtain ⟨y, hw, hy, rfl⟩ := clock.elapsed
    obtain ⟨delay, hdelay, -, ⟨hover, -, -⟩ | ⟨-, hsome, -⟩⟩ := Backoff.next_cases refused
    · rw [(hlast.tries.fits h.accepted).config] at hdelay hover
      exact ⟨hlast, y, delay, words, hw, hy.trans hx, hdelay, hover⟩
    · cases hsome
  | interrupted waits =>
    obtain ⟨-, -, -, z, y, -, -, -, -, hover⟩ := waits
    have herror : SettlementError.insufficientFunds available required = _ := hover.error
    split at herror
    · cases herror
    · cases herror

end Settlements

/-- A settlement makes its attempts one after the other, each with the same account, bet and
odds, numbered from one; each further one exactly when the last has ended for lack of funds, the
backoff has granted a delay, the sleep has come to its end while the context was open, and the
next number is one of 32 bits; if it is not, the call breaks off. What it returns is the result of
its last attempt, or the error of a context that was over before the delay was; and where that is
so it answers. A lack of funds is told with the bet and with the balance that was committed at all
data calls of the attempt, which is less; it is returned only when the next delay would end past
the budget. So an attempt that sees at least the bet does not end for lack of funds, and no other
one follows it. -/
theorem settle_retries (h : c.Begins n us₀ ext bet ctx) (hdrop : .drop n ∉ us₀)
    (hrun : us₀ ++ [.step n] <+: us) :
    (∀ s, c.program? us n = some (.done (.inl (.settle s))) ↔
      ∃ i, c.Tries n us₀ ext bet ctx i us s) ∧
    (∀ i s, c.Tries n us₀ ext bet ctx i us s → c.Fits n us₀ ext bet ctx i us s) ∧
    (∀ i v s w available required backoff words, c.Tries n us₀ ext bet ctx i v s →
      c.Attempts n s v w (.error (.insufficientFunds available required)) →
      c.Waits n s.context s.retry w (.insufficientFunds available required) us (.ok ())
        backoff words → UInt32.size ≤ i + 1 → c.program? us n = some .crash) ∧
    (∀ reply, c.Returned n us reply → ∃ i v s w r x,
      c.LastAttempt n us₀ ext bet ctx us i v s w r ∧ c.Results n s w r x reply ∧ x <+: us) ∧
    (∀ i v s w r x reply, c.Tries n us₀ ext bet ctx i v s → c.Attempts n s v w r →
      c.Results n s w r x reply → x <+: us → c.answer? us n = some reply) ∧
    (∀ i v s w available required, c.Tries n us₀ ext bet ctx i v s →
      c.Attempts n s v w (.error (.insufficientFunds available required)) →
      required = bet ∧ available.toRat < bet.toRat ∧
        (∃ x, c.Sees n s v x ∧ x ++ [.step n] <+: w) ∧
        ∀ x, c.Sees n s v x → x ++ [.step n] <+: w →
          ∃ a, (c.ledger x).find? ext = some a ∧ a.balance = available) ∧
    (∀ available required,
      c.Returned n us (.settlementError (.insufficientFunds available required)) →
      ∃ i v s w, c.LastAttempt n us₀ ext bet ctx us i v s w
          (.error (.insufficientFunds available required)) ∧
        c.Overruns n (c.after us₀).shared.engine.retry s w us) ∧
    ∀ i v s x a, c.Tries n us₀ ext bet ctx i v s → c.Sees n s v x → x ++ [.step n] <+: us →
      (c.ledger x).find? ext = some a → bet.toRat ≤ a.balance.toRat →
      (∀ w available required, w <+: us →
        ¬c.Attempts n s v w (.error (.insufficientFunds available required))) ∧
      ∀ j v' s', v' <+: us → c.Tries n us₀ ext bet ctx j v' s' → j ≤ i := by
  refine ⟨fun s => ⟨h.tries hdrop hrun, fun ⟨i, hi⟩ => h.stands hdrop hi⟩,
    fun i s hi => hi.fits h.accepted, fun i v s w available required backoff words hi => ?_,
    fun reply => h.result hdrop hrun,
    fun i v s w r x reply => h.answer hdrop,
    fun i v s w available required => h.lacks hdrop,
    fun available required => h.overruns hdrop hrun,
    fun i v s x a hi hsees hx ha hbalance => ⟨?_, ?_⟩⟩
  · exact h.breaks_off hdrop hi
  · exact fun w available required => h.enough hdrop hi hsees hx ha hbalance
  · exact fun j v' s' => h.no_further hdrop hi hsees hx ha hbalance

/-- A settlement of more than there is, which is attempted once more after a while. -/
def brokeSpin : Scenario where
  config := .standard
  entropy _ := .ofList []
  probes := []
  calls := [.seed .nil .two, .settle .nil .ten none]

def brokeSpinTurns : List Turn :=
  List.replicate 5 (.step 0) ++ List.replicate 20 (.step 1) ++ [.wait 2000] ++
    List.replicate 20 (.step 1)

theorem settle_retries_brokeSpin :
    brokeSpin.Begins 1 (List.replicate 5 (.step 0)) .nil .ten .background ∧
      .drop 1 ∉ List.replicate 5 (Turn.step 0) ∧
      List.replicate 5 (.step 0) ++ [.step 1] <+: brokeSpinTurns ∧
      brokeSpin.Returned 1 brokeSpinTurns (.settlementError (.insufficientFunds .two .ten)) ∧
      ∃ i v s w, brokeSpin.LastAttempt 1 (List.replicate 5 (.step 0)) .nil .ten .background
          brokeSpinTurns i v s w (.error (.insufficientFunds .two .ten)) ∧
        brokeSpin.Overruns 1 Settings.standard.retry s w brokeSpinTurns := by
  have hbegins : brokeSpin.Begins 1 (List.replicate 5 (.step 0)) .nil .ten .background := by
    refine ⟨rfl, ⟨none, rfl, rfl⟩, ?_, ?_⟩
    · decide +kernel
    · decide
  have hdrop : .drop 1 ∉ List.replicate 5 (Turn.step 0) := by decide
  have hrun : List.replicate 5 (.step 0) ++ [.step 1] <+: brokeSpinTurns := by decide
  have hreturned : brokeSpin.Returned 1 brokeSpinTurns
      (.settlementError (.insufficientFunds .two .ten)) := by
    refine ⟨2000, ?_⟩
    decide +kernel
  have hlast := (settle_retries hbegins hdrop hrun).2.2.2.2.2.2.1 _ _ hreturned
  exact ⟨hbegins, hdrop, hrun, hreturned, hlast⟩

/-- Attempt `i + 1` is up, and so far the same delay was slept after each. -/
structure Stalled (c : Scenario) (n : Nat) (us₀ : List Turn) (k : Stake c.entropy ext)
    (delay budget : Duration) (i : Nat) (us : List Turn) (s : Settlement) : Prop where
  tries : c.Tries n us₀ ext k.bet .background (i + 1) us s
  goes : k.Goes ⟨k.ledger, none, k.source⟩ (.inl (.settle s))
  rests : ∃ now, now ≤ s.retry.started + i * delay.sleepMillis ∧
    c.Rests n us ⟨k.ledger, none, k.source⟩ now
  backoff : s.retry.backoff = .start (.steady delay budget)

section Stalling

variable {k : Stake c.entropy ext} {delay budget : Duration} {available required : Decimal}
  (h : c.Begins n us₀ ext k.bet .background) (hdrop : .drop n ∉ us₀)
  (hlack : adjusted k.bet.neg k.account.balance = .error (.insufficientFunds available required))
  (hgrow : Backoff.grow (.steady delay budget) delay = .ok delay)
  (hdelay : 0 < delay.sleepMillis)
include h hdrop hlack hgrow hdelay

/-- As long as the budget has room for it, the delay is slept after the attempt. -/
theorem Stalled.waits (hs : c.Stalled n us₀ k delay budget i us s)
    (hin : i * delay.sleepMillis * Duration.nanosPerMilli + delay.nanos ≤ budget.nanos) :
    ∃ w us' now, c.Attempts n s us w (.error (.insufficientFunds available required)) ∧
      c.Waits n s.context s.retry w (.insufficientFunds available required) us' (.ok ())
        (.start (.steady delay budget)) s.retry.words ∧
      now ≤ s.retry.started + (i + 1) * delay.sleepMillis ∧
      c.Rests n us' ⟨k.ledger, none, k.source⟩ now := by
  have hstands := h.stands hdrop hs.tries
  obtain ⟨now, hnow, hrests⟩ := hs.rests
  obtain ⟨w, hattempt, hrests'⟩ :=
    exists_ran_lacking (hrests.stage hstands) hs.goes hlack (program?_round hstands)
  have hrest := (Runs.bind hattempt s.rest).program?_eq (program?_round hstands)
  change c.program? w n = some (Retry.afterFailure s.context s.retry
    (.insufficientFunds available required) >>= s.close >>= Session.settleRound) at hrest
  rw [Program.bind_assoc, hs.goes.2.1] at hrest
  have hnext : s.retry.backoff.next (.ofMillis (now - s.retry.started)) s.retry.words =
      .ok (some delay, .start (.steady delay budget), s.retry.words) := by
    rw [hs.backoff]
    refine Steady.next_granted hgrow ?_
    have helapsed : now - s.retry.started ≤ i * delay.sleepMillis := by omega
    have hmillis := Nat.mul_le_mul_right Duration.nanosPerMilli helapsed
    rw [Duration.nanos_ofMillis]
    omega
  obtain ⟨us', hwaits, hrests''⟩ := exists_waits hrests' hdelay hnext hrest
  refine ⟨w, us', _, hattempt, hs.goes.2.1 ▸ hwaits, ?_, hrests''⟩
  rw [Nat.succ_mul]
  omega

omit hlack hgrow hdelay in
theorem exists_stalled_zero {now m : Nat} (hodds : (c.after us₀).shared.engine.odds = k.odds)
    (hretry : (c.after us₀).shared.engine.retry = .steady delay budget)
    (hsource : k.source = m + 1) (hrests : c.Rests n us₀ ⟨k.ledger, none, m⟩ now) :
    ∃ us s, c.Stalled n us₀ k delay budget 0 us s := by
  obtain ⟨name, hop, -⟩ := h.call
  have hstage := program?_fresh hop h.first hdrop
  obtain ⟨us, -, g, hran, hrests', s, rfl, hgoes⟩ := exists_ran (hrests.stage hstage)
    (Program.under_started_alone hodds h.accepted hsource) (h.started hdrop)
  obtain ⟨y, started, words, hy, -, heq⟩ := ran_start h.accepted hran
  cases heq
  obtain rfl := hgoes.1
  refine ⟨us, _, .first hran, hgoes, ⟨now, ?_, hrests'⟩, congrArg Backoff.start hretry⟩
  have hlater := (c.later ((List.prefix_append _ _).trans hy)).clock
  rw [hrests.clock] at hlater
  exact Nat.le_add_right_of_le hlater

theorem exists_stalled (hstart : c.Stalled n us₀ k delay budget 0 us s)
    (hin : ∀ j < i, j * delay.sleepMillis * Duration.nanosPerMilli + delay.nanos ≤ budget.nanos)
    (hi : i + 1 < UInt32.size) : ∃ us s, c.Stalled n us₀ k delay budget i us s := by
  induction i with
  | zero => exact ⟨us, s, hstart⟩
  | succ i ih =>
    obtain ⟨v, s, hs⟩ := ih (fun j hj => hin j (by omega)) (by omega)
    obtain ⟨w, us', now, hattempt, hwaits, hnow, hrests⟩ :=
      hs.waits h hdrop hlack hgrow hdelay (hin i (Nat.lt_succ_self i))
    have hnumber := (hs.tries.fits h.accepted).attempt
    -- `i + 1` attempts have been made, so the next one still has a number.
    obtain ⟨m, hm⟩ : ∃ m, numberAfter? s.retry.attempt = some m := by
      refine Option.ne_none_iff_exists'.mp fun hnone => ?_
      have hsize := numberAfter?_eq_none.mp hnone
      omega
    exact ⟨us', _, .again hs.tries hattempt hwaits hm, hs.goes, ⟨now, hnow, hrests⟩, rfl⟩

end Stalling

/-- A settlement of more than there is, which is attempted every second, and for which there would
be time for more than a hundred and thirty years. -/
def tirelessSpin : Scenario where
  config := { Settings.standard with retry := .steady (.ofSeconds 1) (.ofSeconds 4320432000) }
  entropy _ := .ofList []
  probes := []
  calls := [.seed .nil .two, .settle .nil .ten none]

def tirelessStake : Stake tirelessSpin.entropy .nil where
  ledger := (Ledger.empty.seed .nil .two).2
  account := ⟨1, .nil, .two⟩
  bet := .ten
  odds := Settings.standard.odds
  source := 1
  found := by decide +kernel
  holds := by decide +kernel
  positive := by decide +kernel

theorem tireless_room {j : Nat} (hj : j ≤ 4294967294) :
    j * (Duration.ofSeconds 1).sleepMillis * Duration.nanosPerMilli +
      (Duration.ofSeconds 1).nanos ≤ (Duration.ofSeconds 4320432000).nanos := by
  have hlast : 4294967294 * (Duration.ofSeconds 1).sleepMillis * Duration.nanosPerMilli +
      (Duration.ofSeconds 1).nanos ≤ (Duration.ofSeconds 4320432000).nanos := by
    decide +kernel
  refine le_trans ?_ hlast
  gcongr

/-- There are attempts that lack funds, and after which a delay is granted and slept while the
context is open, but that no further one follows: the numbers are used up, and the call breaks
off. -/
theorem settle_breaks_off : ∃ v s w us backoff words,
    tirelessSpin.Begins 1 (List.replicate 5 (.step 0)) .nil .ten .background ∧
      tirelessSpin.Tries 1 (List.replicate 5 (.step 0)) .nil .ten .background 4294967295 v s ∧
      tirelessSpin.Attempts 1 s v w (.error (.insufficientFunds .two .ten)) ∧
      tirelessSpin.Waits 1 .background s.retry w (.insufficientFunds .two .ten) us (.ok ())
        backoff words ∧
      tirelessSpin.program? us 1 = some .crash := by
  have hbegins : tirelessSpin.Begins 1 (List.replicate 5 (.step 0)) .nil .ten .background := by
    refine ⟨rfl, ⟨none, rfl, rfl⟩, ?_, ?_⟩
    · decide +kernel
    · decide
  have hdrop : .drop 1 ∉ List.replicate 5 (Turn.step 0) := by decide
  have hlack : adjusted tirelessStake.bet.neg tirelessStake.account.balance =
      .error (.insufficientFunds .two .ten) := by
    decide +kernel
  have hgrow : Backoff.grow (.steady (.ofSeconds 1) (.ofSeconds 4320432000)) (.ofSeconds 1) =
      .ok (.ofSeconds 1) := by
    decide +kernel
  have hrests : tirelessSpin.Rests 1 (List.replicate 5 (.step 0)) ⟨tirelessStake.ledger, none, 0⟩
      0 := ⟨⟨rfl, rfl, rfl, rfl, rfl, rfl⟩, rfl, rfl⟩
  have hpositive : 0 < (Duration.ofSeconds 1).sleepMillis := by decide +kernel
  -- All numbers are used up after 4294967295 attempts, the first of which is number one.
  obtain ⟨us₁, s₁, hfirst⟩ := exists_stalled_zero (k := tirelessStake) hbegins hdrop rfl rfl rfl
    hrests
  obtain ⟨v, s, hlast⟩ := exists_stalled (i := 4294967294) hbegins hdrop hlack hgrow hpositive
    hfirst (fun j hj => tireless_room hj.le) (by decide)
  obtain ⟨w, us, now, hattempt, hwaits, -, -⟩ := hlast.waits hbegins hdrop hlack hgrow hpositive
    (tireless_room le_rfl)
  have hcontext : s.context = .background := hlast.goes.2.1
  refine ⟨v, s, w, us, _, _, hbegins, hlast.tries, hattempt, hcontext ▸ hwaits, ?_⟩
  exact hbegins.breaks_off hdrop hlast.tries hattempt hwaits (by decide)

end Scenario

end WagerLedger
