import WagerLedger.Proofs.Session.Retrying

/-! # The errors of a settlement

A bet that is no amount of the ledger is refused before anything is asked for. Every other error
that a settlement returns is that of a context that was over, or the one its last attempt has
failed with; and an attempt fails by an injected fault that has tripped in it, or for a reason
in the ledger that it has read. -/
namespace WagerLedger

open World

theorem Settlement.acceptsBet_eq_false_iff {bet : Decimal} :
    acceptsBet bet = false ↔ bet.toRat ≤ 0 ∨ bet.fitsLedger = false := by
  rw [acceptsBet, Bool.and_eq_false_iff, Bool.eq_false_iff, ne_eq, Decimal.isPositive_iff, not_lt]

namespace Scenario

variable {c : Scenario} {n : Nat} {us us₀ v v' w x : List Turn} {ctx : Context}
  {ext : Identifier} {bet : Decimal} {i j : Nat} {s s' : Settlement} {r : Request}
  {e : SettlementError}

/-- Why the attempt has failed that begins with the step after `v` and has come to its end at
`w`, unless its context was over. -/
inductive Failed (c : Scenario) (n : Nat) (odds : Odds) (ext : Identifier) (bet : Decimal)
    (v w : List Turn) : SettlementError → Prop
  | struck {p : FaultPoint} {x : List Turn} (begun : v ++ [.step n] <+: x)
      (before : x ++ [.step n] <+: w) (strikes : c.Strikes n x p) :
      Failed c n odds ext bet v w (.storage (Faults.error p))
  | unknown {l : Ledger} (saw : c.Saw n (v ++ [.step n]) w l) (missing : l.find? ext = none) :
      Failed c n odds ext bet v w (.accountNotFound ext)
  | lacking {l : Ledger} {a : Account} (saw : c.Saw n (v ++ [.step n]) w l)
      (found : l.find? ext = some a) (short : a.balance.toRat < bet.toRat)
      (unwritten : c.Since n (·.isWrite = false) v w) :
      Failed c n odds ext bet v w (.insufficientFunds a.balance bet)
  | unpaid {l : Ledger} {a : Account} {between : Decimal} {o : Outcome}
      (saw : c.Saw n (v ++ [.step n]) w l) (found : l.find? ext = some a)
      (debit : adjusted bet.neg a.balance = .ok between) (lost : odds.win? bet o = none) :
      Failed c n odds ext bet v w (.payoutOverflow bet (o.multiplier odds))
  | stuck {l : Ledger} {a : Account} {between win : Decimal} {o : Outcome}
      (saw : c.Saw n (v ++ [.step n]) w l) (found : l.find? ext = some a)
      (debit : adjusted bet.neg a.balance = .ok between)
      (drawn : Settlement.payout odds bet o = .ok win) (positive : win.isPositive = true)
      (full : between.add? win = none) :
      Failed c n odds ext bet v w (.storage .balanceOverflow)

/-- In the attempt that begins with the step after `v`, the step after `x` asks for this. -/
def Asks (c : Scenario) (n : Nat) (s : Settlement) (v x : List Turn) (r : Request) : Prop :=
  ∃ p, c.Runs n (v ++ [.step n]) s.tries x p ∧ p.request? = some r

theorem Results.isPrefix {r : Except SettlementError Spin} {reply : Reply}
    (h : c.Results n s w r us reply) : w <+: us := by
  cases h with
  | final enough answer => exact List.prefix_rfl
  | spent spends =>
    obtain ⟨elapsed, backoff, words, clock, -⟩ := spends
    exact clock.isPrefix
  | interrupted waits => exact waits.isPrefix

section Settlements

variable (h : c.Begins n us₀ ext bet ctx) (hdrop : .drop n ∉ us₀)
include h hdrop

theorem Begins.fails (htries : c.Tries n us₀ ext bet ctx i v s)
    (hattempt : c.Attempts n s v w (.error e)) :
    ∃ g : Reading × Marks, c.Readings n (v ++ [.step n]) w g.1 ∧
      c.Marked n (v ++ [.step n]) w g.2 ∧
      Causes (c.after us₀).shared.engine.odds ext bet g e := by
  have hfits := htries.fits h.accepted
  rw [← hfits.odds, ← hfits.externalId, ← hfits.bet]
  exact fails_of_ran h.probes (htries.positive h.accepted)
    (program?_round (h.stands hdrop htries)) hattempt

/-- From a balance that is not negative an attempt fails for these reasons only. -/
theorem Begins.failed (htries : c.Tries n us₀ ext bet ctx i v s)
    (hattempt : c.Attempts n s v w (.error e))
    (hbalance : ∀ x a, us₀ <+: x → x <+: w → (c.ledger x).find? ext = some a →
      0 ≤ a.balance.toRat) :
    e.isOver = true ∨ c.Failed n (c.after us₀).shared.engine.odds ext bet v w e := by
  obtain ⟨hpos, hfits⟩ := (Bool.and_eq_true _ _).mp h.accepted
  obtain ⟨g, hg, hm, hfails⟩ := h.fails hdrop htries hattempt
  cases hfails with
  | ended isOver => exact .inl isOver
  | struck failed =>
    obtain ⟨x, hx, hx', hstrikes⟩ := hm.failures _ failed
    exact .inr (.struck hx hx' hstrikes)
  | unknown saw missing => exact .inr (.unknown (hg.saw saw) missing)
  | @refused l a e saw found unwritten debit =>
    have hsaw := hg.saw saw
    obtain ⟨⟨x, hx⟩, hall⟩ := hsaw
    have hpre : us₀ <+: x := ((List.prefix_append _ _).trans htries.isPrefix).trans
      ((List.prefix_append _ _).trans hx.begun)
    have hnonneg : 0 ≤ a.balance.toRat :=
      hbalance x a hpre ((List.prefix_append _ _).trans hx.turn) ((hall x hx).symm ▸ found)
    rcases adjusted_neg hfits ((Decimal.isPositive_iff bet).mp hpos) hnonneg with ⟨_, hok⟩ | hlack
    · cases debit.symm.trans hok
    · cases debit.symm.trans hlack
      refine .inr (.lacking (hg.saw saw) found (lacking_of_adjusted_neg debit).2.2
        ⟨hattempt.isPrefix, ?_⟩)
      intro y r hy hy' hr
      rw [Bool.eq_false_iff]
      intro hwrite
      cases unwritten.symm.trans (hm.wrote y r hy hy' hr hwrite)
  | unpaid saw found debit lost => exact .inr (.unpaid (hg.saw saw) found debit lost)
  | stuck saw found debit drawn positive credit =>
    obtain ⟨rfl, hfull⟩ := adjusted_positive (fitsLedger_payout drawn) positive credit
    exact .inr (.stuck (hg.saw saw) found debit drawn positive hfull)

/-- What a settlement of an accepted bet fails with. -/
theorem Begins.errors (hrun : us₀ ++ [.step n] <+: us)
    (hbalance : ∀ x a, us₀ <+: x → x <+: us → (c.ledger x).find? ext = some a →
      0 ≤ a.balance.toRat) (hreturned : c.Returned n us (.settlementError e)) :
    e.isOver = true ∨ ∃ i v s w, c.LastAttempt n us₀ ext bet ctx us i v s w (.error e) ∧
      w <+: us ∧ c.Failed n (c.after us₀).shared.engine.odds ext bet v w e := by
  obtain ⟨i, v, s, w, r, x, hlast, hresults, hx⟩ := h.result hdrop hrun hreturned
  have hw : w <+: us := hresults.isPrefix.trans hx
  have hfailed (hr : r = .error e) : e.isOver = true ∨
      ∃ i v s w, c.LastAttempt n us₀ ext bet ctx us i v s w (.error e) ∧
        w <+: us ∧ c.Failed n (c.after us₀).shared.engine.odds ext bet v w e := by
    subst hr
    refine (h.failed hdrop hlast.tries hlast.attempt fun y a hy hyw => ?_).imp_right
      fun hfailed => ⟨i, v, s, w, hlast, hw, hfailed⟩
    exact hbalance y a hy (hyw.trans hw)
  cases hresults with
  | final enough answer =>
    cases r with
    | error e' =>
      cases answer
      exact hfailed rfl
    | ok spin =>
      obtain ⟨net, -, heq⟩ := Option.map_eq_some_iff.mp answer
      cases heq
  | spent spends => exact hfailed rfl
  | interrupted waits =>
    obtain ⟨-, -, -, z, y, -, -, -, -, hover⟩ := waits
    have herror : e = _ := hover.error
    split at herror
    · exact .inl (herror ▸ rfl)
    · exact .inl (herror ▸ rfl)

theorem Begins.written_last (htries : c.Tries n us₀ ext bet ctx i v s) (hasks : c.Asks n s v x r)
    (hwrite : r.isWrite = true) (hx : x ++ [.step n] <+: us) (hv' : v' <+: us)
    (hj : c.Tries n us₀ ext bet ctx j v' s') : j ≤ i := by
  obtain ⟨p, hruns, hr⟩ := hasks
  have hv : v ++ [.step n] <+: us := (hruns.isPrefix.trans (List.prefix_append _ _)).trans hx
  rcases prefix_or_step hv' hv with hpre | hpre
  · exact h.number_le hdrop hj htries hpre
  · obtain ⟨-, w, available, required, hw, hattempt⟩ := h.earlier hdrop hj htries hpre
    obtain ⟨g, -, hm, hfails⟩ := h.fails hdrop htries hattempt
    have hwrote := hm.wrote x r hruns.isPrefix (hruns.before_end hr hattempt (hw.trans hv') hx)
      (hruns.request? (program?_round (h.stands hdrop htries)) hr) hwrite
    cases (hfails.unwritten rfl).symm.trans hwrote

end Settlements

section Refused

variable (hcall : ∃ name, c.calls[n]? = some (.settle ext bet name)) (hfirst : .step n ∉ us₀)
  (hdrop : .drop n ∉ us₀) (hrun : us₀ ++ [.step n] <+: us)
  (hbad : Settlement.acceptsBet bet = false)
include hcall hfirst hdrop hbad

theorem program?_refused : c.program? (us₀ ++ [.step n]) n =
    some (.done (.inr (.settlementError (.invalidBet bet)))) := by
  obtain ⟨name, hop⟩ := hcall
  rw [program?_stage (program?_fresh hop hfirst hdrop)]
  change some (Settlement.start _ _ ext bet >>= Session.settleRound) = _
  rw [Settlement.start, if_neg (by rw [hbad]; decide)]
  rfl

include hrun

theorem answer?_refused :
    c.answer? us n = some (.settlementError (.invalidBet bet)) :=
  answer?_of_closes (program?_refused hcall hfirst hdrop hbad) rfl hrun

theorem returned_refused {reply : Reply} (h : c.Returned n us reply) :
    reply = .settlementError (.invalidBet bet) := by
  obtain ⟨y, hy, hdone⟩ := h.program?
  have hrefused := program?_refused hcall hfirst hdrop hbad
  rcases prefix_or_step hy hrun with hpre | hpre
  · obtain ⟨name, hop⟩ := hcall
    cases (program?_fresh hop (fun hmem => hfirst (hpre.mem hmem))
      fun hmem => hdrop (hpre.mem hmem)).symm.trans hdone
  · cases program?_of_answer hpre hrefused hdone
    rfl

/-- It asks for nothing, and none of its steps changes anything. -/
theorem aloof_refused (hx : x ++ [.step n] <+: us) : c.request? x n = none ∧
    (c.after (x ++ [.step n])).world = (c.after x).world := by
  have hrefused := program?_refused hcall hfirst hdrop hbad
  have hdone : ∀ q, c.program? x n = some q → ∃ z, q = .done z := by
    intro q hq
    rcases prefix_or_step ((List.prefix_append _ _).trans hx) hrun with hpre | hpre
    · obtain ⟨name, hop⟩ := hcall
      exact ⟨_, Option.some.inj (hq.symm.trans (program?_fresh hop
        (fun hmem => hfirst (hpre.mem hmem)) fun hmem => hdrop (hpre.mem hmem)))⟩
    · exact ⟨_, program?_of_answer hpre hrefused hq⟩
  have hnone : c.request? x n = none := by
    cases hq : c.program? x n with
    | none => rw [request?, hq, Option.bind_none]
    | some q =>
      obtain ⟨z, rfl⟩ := hdone q hq
      rw [request?, hq]
      rfl
  have hcrash : c.program? x n ≠ some .crash := by
    intro hq
    obtain ⟨z, hz⟩ := hdone _ hq
    cases hz
  refine ⟨hnone, ?_⟩
  rcases c.world_step x n hcrash with hw | ⟨r, hr, -⟩
  · exact hw
  · cases hnone.symm.trans hr

end Refused

theorem not_tries_refused (hbad : Settlement.acceptsBet bet = false) :
    ¬c.Tries n us₀ ext bet ctx i us s := by
  intro h
  induction h with
  | first start =>
    rw [Settlement.start, if_neg (by rw [hbad]; decide)] at start
    cases start.of_done
  | again before attempt waits number ih => exact ih

section Errors

variable (hprobes : c.probes = [])
  (hcall : ∃ name, c.calls[n]? = some (.settle ext bet name) ∧
    (c.after us₀).shared.context name = ctx)
  (hfirst : .step n ∉ us₀) (hdrop : .drop n ∉ us₀) (hrun : us₀ ++ [.step n] <+: us)
  (hbalance : ∀ x a, us₀ <+: x → x <+: us → (c.ledger x).find? ext = some a →
    0 ≤ a.balance.toRat)
include hprobes hcall hfirst hdrop hrun hbalance

theorem error_cases (hreturned : c.Returned n us (.settlementError e)) :
    Settlement.acceptsBet bet = false ∧ e = .invalidBet bet ∨ e.isOver = true ∨
      ∃ i v s w, c.LastAttempt n us₀ ext bet ctx us i v s w (.error e) ∧ w <+: us ∧
        c.Failed n (c.after us₀).shared.engine.odds ext bet v w e := by
  cases haccepts : Settlement.acceptsBet bet with
  | false =>
    obtain ⟨name, hop, -⟩ := hcall
    cases returned_refused ⟨name, hop⟩ hfirst hdrop hrun haccepts hreturned
    exact .inl ⟨rfl, rfl⟩
  | true =>
    have hbegins : c.Begins n us₀ ext bet ctx := ⟨hprobes, hcall, haccepts, hfirst⟩
    exact .inr (hbegins.errors hdrop hrun hbalance hreturned)

/-- A settlement refuses its bet exactly when the bet is not positive or does not fit the ledger,
and then it asks for nothing and changes nothing. Every other error that it returns is that of a
context that was over, or the one of its last attempt, which has failed because an injected fault
tripped in it, the account was not in the ledger that it read, the bet was more than the balance
there, the win had no value, or the credit of the win no room. So a fault of the storage is one
that was injected or a credit without room; and once an attempt is to write a balance, which it
first does with the debit, no other attempt follows. -/
theorem settle_errors :
    (bet.toRat ≤ 0 ∨ bet.fitsLedger = false →
      c.answer? us n = some (.settlementError (.invalidBet bet)) ∧
      (∀ reply, c.Returned n us reply → reply = .settlementError (.invalidBet bet)) ∧
      ∀ x, x ++ [.step n] <+: us → c.request? x n = none ∧
        (c.after (x ++ [.step n])).world = (c.after x).world) ∧
    (∀ b, c.Returned n us (.settlementError (.invalidBet b)) →
      b = bet ∧ (bet.toRat ≤ 0 ∨ bet.fitsLedger = false)) ∧
    (∀ e, c.Returned n us (.settlementError e) →
      e = .invalidBet bet ∨ e = .cancelled ∨ e = .deadlineExceeded ∨
        ∃ i v s w, c.LastAttempt n us₀ ext bet ctx us i v s w (.error e) ∧ w <+: us ∧
          c.Failed n (c.after us₀).shared.engine.odds ext bet v w e) ∧
    (∀ cause, c.Returned n us (.settlementError (.storage cause)) →
      cause = .balanceOverflow ∨ ∃ p, cause = Faults.error p) ∧
    ∀ i v s x r, c.Tries n us₀ ext bet ctx i v s → c.Asks n s v x r → r.isWrite = true →
      x ++ [.step n] <+: us →
      ∀ j v' s', v' <+: us → c.Tries n us₀ ext bet ctx j v' s' → j ≤ i := by
  -- An error is that of a refused bet, of the context, or of the last attempt.
  have hcases := fun e =>
    error_cases (e := e) hprobes hcall hfirst hdrop hrun hbalance
  refine ⟨fun hbad => ?_, fun b hb => ?_, fun e he => ?_, fun cause hcause => ?_, ?_⟩
  · obtain ⟨name, hop, -⟩ := hcall
    have hrefused := Settlement.acceptsBet_eq_false_iff.mpr hbad
    refine ⟨answer?_refused ⟨name, hop⟩ hfirst hdrop hrun hrefused, fun reply => ?_, fun x => ?_⟩
    · exact returned_refused ⟨name, hop⟩ hfirst hdrop hrun hrefused
    · exact aloof_refused ⟨name, hop⟩ hfirst hdrop hrun hrefused
  · rcases hcases _ hb with ⟨hrefused, heq⟩ | hover | ⟨i, v, s, w, -, -, hfailed⟩
    · cases heq
      exact ⟨rfl, Settlement.acceptsBet_eq_false_iff.mp hrefused⟩
    · cases hover
    · cases hfailed
  · rcases hcases e he with ⟨-, heq⟩ | hover | hlast
    · exact .inl heq
    · cases e with
      | cancelled => exact .inr (.inl rfl)
      | deadlineExceeded => exact .inr (.inr (.inl rfl))
      | _ => cases hover
    · exact .inr (.inr (.inr hlast))
  · rcases hcases _ hcause with ⟨-, heq⟩ | hover | ⟨i, v, s, w, -, -, hfailed⟩
    · cases heq
    · cases hover
    · cases hfailed with
      | struck begun before strikes => exact .inr ⟨_, rfl⟩
      | stuck saw found debit drawn positive full => exact .inl rfl
  · intro i v s x r htries hasks hwrite hx j v' s' hv' hj
    cases haccepts : Settlement.acceptsBet bet with
    | false => exact (not_tries_refused haccepts htries).elim
    | true =>
      have hbegins : c.Begins n us₀ ext bet ctx := ⟨hprobes, hcall, haccepts, hfirst⟩
      exact hbegins.written_last hdrop htries hasks hwrite hx hv' hj

end Errors

/-- A settlement whose spin cannot be appended. -/
def faultySpin : Scenario where
  config := .standard
  entropy _ := .ofList []
  probes := []
  calls := [.seed .nil .ten, .fault .appendSpin 0 1, .settle .nil .two none]

def beforeFaultySpin : List Turn := List.replicate 5 (.step 0) ++ List.replicate 3 (.step 1)

def faultySpinTurns : List Turn := beforeFaultySpin ++ List.replicate 32 (.step 2)

theorem nonneg_faultySpin {x : List Turn} {a : Account} (hx : x <+: faultySpinTurns)
    (ha : (faultySpin.ledger x).find? .nil = some a) : 0 ≤ a.balance.toRat := by
  have hall : ∀ k ≤ 40, ∀ a ∈ (faultySpin.ledger (faultySpinTurns.take k)).find? .nil,
      0 ≤ a.balance.toRat := by
    decide +kernel
  have hlen : x.length ≤ 40 := hx.length_le
  rw [List.prefix_iff_eq_take.mp hx] at ha
  exact hall x.length hlen a ha

theorem settle_errors_faultySpin :
    faultySpin.Returned 2 faultySpinTurns (.settlementError (.storage (Faults.error .appendSpin))) ∧
      ∃ i v s w, faultySpin.LastAttempt 2 beforeFaultySpin .nil .two .background faultySpinTurns
          i v s w (.error (.storage (Faults.error .appendSpin))) ∧ w <+: faultySpinTurns ∧
        faultySpin.Failed 2 Settings.standard.odds .nil .two v w
          (.storage (Faults.error .appendSpin)) := by
  have hreturned : faultySpin.Returned 2 faultySpinTurns
      (.settlementError (.storage (Faults.error .appendSpin))) := by
    refine ⟨0, ?_⟩
    decide +kernel
  have hfirst : .step 2 ∉ beforeFaultySpin := by decide
  have hdrop : .drop 2 ∉ beforeFaultySpin := by decide
  have hrun : beforeFaultySpin ++ [.step 2] <+: faultySpinTurns := by decide
  rcases (settle_errors rfl ⟨none, rfl, rfl⟩ hfirst hdrop hrun
    fun x a _ => nonneg_faultySpin).2.2.1 _ hreturned with heq | heq | heq | hlast
  · cases heq
  · cases heq
  · cases heq
  · exact ⟨hreturned, hlast⟩

end Scenario

end WagerLedger
