import WagerLedger.Proofs.Program.Changing
import WagerLedger.Proofs.Program.Closing
import WagerLedger.Proofs.Program.Reads
import WagerLedger.Proofs.Program.Settling

/-! # What an attempt comes to

A client that is alone makes each attempt on the same ledger. It is refused where a withdrawal of
the bet would be, before any random words are taken, and then the next attempt is refused as
well; otherwise it is the only one, and its outcome, the sum of balance and win and what it
commits are known from the source of words that comes next. -/
namespace WagerLedger

/-- What a client plays for: an account of the ledger, a bet, the odds, and the source of the words
that the outcome is drawn with. -/
structure Stake (entropy : Nat → Words) (ext : Identifier) where
  ledger : Ledger
  account : Account
  bet : Decimal
  odds : Odds
  source : Nat
  found : ledger.find? ext = some account
  holds : ledger.balance? account.id = some account.balance
  positive : bet.isPositive = true

namespace Stake

variable {entropy : Nat → Words} {ext : Identifier}

def win (k : Stake entropy ext) : Except SettlementError Decimal :=
  Settlement.payout k.odds k.bet (k.odds.spin (entropy k.source)).1

/-- The result of an attempt, and what its client finds after it. -/
inductive Attempted (k : Stake entropy ext) : Except SettlementError Spin → Solo → Prop
  | refused {e : LedgerError} (debit : adjusted k.bet.neg k.account.balance = .error e) :
      Attempted k (.error (.ofLedger e)) ⟨k.ledger, none, k.source⟩
  | unpaid {between : Decimal} {e : SettlementError}
      (debit : adjusted k.bet.neg k.account.balance = .ok between) (drawn : k.win = .error e) :
      Attempted k (.error e) ⟨k.ledger, none, k.source + 1⟩
  | stuck {between win : Decimal} {e : LedgerError}
      (debit : adjusted k.bet.neg k.account.balance = .ok between) (drawn : k.win = .ok win)
      (positive : win.isPositive = true) (credit : adjusted win between = .error e) :
      Attempted k (.error (.storage e)) ⟨k.ledger, none, k.source + 1⟩
  | paid {between after : Decimal} {spin : Spin}
      (debit : adjusted k.bet.neg k.account.balance = .ok between) (drawn : k.win = .ok spin.win)
      (credit : if spin.win.isPositive then adjusted spin.win between = .ok after
        else after = between) :
      Attempted k (.ok spin)
        ⟨(k.ledger.setBalance k.account.id after).addSpin spin, none, k.source + 1⟩

theorem Attempted.lacking {k : Stake entropy ext} {available required : Decimal} {g : Solo}
    (h : k.Attempted (.error (.insufficientFunds available required)) g) :
    g = ⟨k.ledger, none, k.source⟩ := by
  generalize hr : (.error (.insufficientFunds available required) :
    Except SettlementError Spin) = r at h
  cases h with
  | refused debit => rfl
  | unpaid debit drawn =>
    cases hr
    cases Settlement.payout_eq_error drawn
  | stuck debit drawn positive credit => cases hr
  | paid debit drawn credit => cases hr

theorem Attempted.ledger {k : Stake entropy ext} {e : SettlementError} {g : Solo}
    (h : k.Attempted (.error e) g) : g.ledger = k.ledger := by
  cases h <;> rfl

theorem Attempted.insufficientFunds_iff {k : Stake entropy ext}
    {r : Except SettlementError Spin} {g : Solo} (h : k.Attempted r g)
    {available required : Decimal} :
    r = .error (.insufficientFunds available required) ↔
      adjusted k.bet.neg k.account.balance = .error (.insufficientFunds available required) := by
  cases h with
  | refused debit =>
    rw [debit, Except.error.injEq, Except.error.injEq]
    refine ⟨Program.ofLedger_insufficientFunds, fun heq => ?_⟩
    rw [heq]
    rfl
  | unpaid debit drawn =>
    rw [debit, Settlement.payout_eq_error drawn]
    exact ⟨nofun, nofun⟩
  | stuck debit drawn positive credit =>
    rw [debit]
    exact ⟨nofun, nofun⟩
  | paid debit drawn credit =>
    rw [debit]
    exact ⟨nofun, nofun⟩

/-- From a balance that is not negative, only the win can find no room. -/
theorem Attempted.balanceOverflow_iff {k : Stake entropy ext} {r : Except SettlementError Spin}
    {g : Solo} (h : k.Attempted r g) (hfits : k.bet.fitsLedger = true)
    (hbalance : 0 ≤ k.account.balance.toRat) :
    r = .error (.storage .balanceOverflow) ↔
      ∃ between win, adjusted k.bet.neg k.account.balance = .ok between ∧ k.win = .ok win ∧
        win.isPositive = true ∧ adjusted win between = .error .balanceOverflow := by
  cases h with
  | refused debit =>
    have hpos := (Decimal.isPositive_iff k.bet).mp k.positive
    rcases adjusted_neg hfits hpos hbalance with ⟨after, hok⟩ | hlack
    · rw [debit] at hok
      cases hok
    · rw [debit] at hlack
      cases hlack
      rw [debit]
      exact ⟨nofun, nofun⟩
  | unpaid debit drawn =>
    rw [drawn, Settlement.payout_eq_error drawn]
    exact ⟨nofun, nofun⟩
  | stuck debit drawn positive credit =>
    constructor
    · intro heq
      cases heq
      exact ⟨_, _, debit, drawn, positive, credit⟩
    · rintro ⟨between, win, debit', drawn', -, credit'⟩
      cases debit.symm.trans debit'
      cases drawn.symm.trans drawn'
      cases credit.symm.trans credit'
      rfl
  | paid debit drawn credit =>
    refine ⟨nofun, ?_⟩
    rintro ⟨between, win, debit', drawn', positive', credit'⟩
    cases debit.symm.trans debit'
    cases drawn.symm.trans drawn'
    rw [if_pos positive', credit'] at credit
    cases credit

/-- What a settlement goes on with between its rounds, and what it has come to. -/
def Goes (k : Stake entropy ext) (g : Solo) : Stage ⊕ Reply → Prop
  | .inl (.start op) => op = .settle ext k.bet none ∧
      ∃ n, k.source = n + 1 ∧ g = ⟨k.ledger, none, n⟩
  | .inl (.settle s) => g = ⟨k.ledger, none, k.source⟩ ∧ s.context = .background ∧
      s.externalId = ext ∧ s.bet = k.bet ∧ s.odds = k.odds
  | .inl _ => False
  | .inr reply => ∃ r, k.Attempted r g ∧ Settlement.reply? r = some reply

end Stake

namespace Program

open LedgerProgram Settlement

variable {α : Type} {entropy : Nat → Words} {patient : Prop} {g : Solo} {l : Ledger} {n : Nat}
  {ext : Identifier} {ok : Solo → α → Prop} {err : Solo → SettlementError → Prop}

theorem leads_raced_alone {p : SpinProgram α} (h : Leads (alone entropy patient) g p ok err) :
    Leads (alone entropy patient) g (ExceptT.mk (p.run.against .background)) ok err := by
  refine leads_against ⟨nofun, trivial⟩ (fun g' hg' => ?_) (fun g r hmay => ⟨?_, hmay.2⟩)
    fun _ _ _ _ _ hover => hover.elim
  · obtain rfl : g' = g := hg'
    exact h
  · rintro c ⟨⟩
    rfl

theorem leads_checkContext_alone {ok : Solo → Unit → Prop} (h : ok g ()) :
    Leads (alone entropy patient) g (checkContext .background) ok err := by
  have hlook : (request (.check .background)).Under (alone entropy patient) g
      fun g' a => a = none ∧ ok g' () := by
    refine ⟨⟨nofun, rfl⟩, ?_⟩
    rintro a g' ⟨rfl, rfl⟩
    exact ⟨rfl, h⟩
  refine leads_bind (leads_lift (Under.mono hlook ?_))
  rintro g' a ⟨rfl, hg'⟩
  exact leads_pure hg'

theorem leads_payWin_alone {id : AccountId} {win between : Decimal} {ok : Solo → Unit → Prop}
    (hb : (Transaction.empty.put id between).balance? l id = some between)
    (hok : ∀ after, (if win.isPositive then adjusted win between = .ok after else after = between) →
      ok ⟨l, some (Transaction.empty.put id after), n⟩ ())
    (herr : ∀ e, win.isPositive = true → adjusted win between = .error e →
      err ⟨l, some (Transaction.empty.put id between), n⟩ (.storage e)) :
    Leads (alone entropy patient) ⟨l, some (Transaction.empty.put id between), n⟩
      (payWin id win) ok err := by
  unfold payWin
  split
  · rename_i hpos
    refine leads_bind (leads_ofLedger (leads_credit_alone hb hpos (fun after hcredit => ?_) ?_))
    · rw [Transaction.put_put]
      exact leads_pure (hok after (by rwa [if_pos hpos]))
    · exact fun e hcredit => herr e hpos hcredit
  · rename_i hpos
    exact leads_pure (hok between (by rw [if_neg hpos]))

/-- All writes of a spin, in a transaction that has seen nothing else. -/
theorem leads_apply_alone (k : Stake entropy ext) :
    Leads (alone entropy patient) ⟨k.ledger, some .empty, k.source⟩
      (Settlement.apply k.odds ext k.bet)
      (fun g spin => ∃ t, g = ⟨k.ledger, some t, k.source + 1⟩ ∧
        k.Attempted (.ok spin) ⟨t.apply k.ledger, none, k.source + 1⟩)
      fun g e => ∃ t n, g = ⟨k.ledger, some t, n⟩ ∧
        k.Attempted (.error e) ⟨k.ledger, none, n⟩ := by
  have hfind : (DataCall.find ext).run k.ledger .empty = (.ok (some k.account), .empty) := by
    rw [DataCall.run, Transaction.find?_empty, k.found]
  have hholds : Transaction.empty.balance? k.ledger k.account.id = some k.account.balance :=
    (Transaction.balance?_empty _ _).trans k.holds
  have hsees : (Transaction.empty.balance? k.ledger k.account.id).isSome = true := by
    rw [hholds]
    rfl
  refine leads_bind (leads_bind (leads_ofLedger (leads_call_alone hfind (leads_pure ?_))))
  refine leads_bind (leads_ofLedger (leads_debit_alone hholds k.positive ?_ ?_))
  swap
  · exact fun e debit => ⟨_, _, rfl, .refused debit⟩
  intro between debit
  have hunraced : ∀ c : Context, none = some c → c = .background := fun c hc => by cases hc
  refine leads_bind (leads_lift ⟨⟨hunraced, trivial⟩, ?_⟩)
  rintro words g' ⟨rfl, rfl⟩
  -- The bet is taken off by now: what fails from here on is final.
  change Leads _ _ (ExceptT.mk (pure k.win) >>= _) _ _
  cases drawn : k.win with
  | error e => exact leads_bind (leads_throw ⟨_, _, rfl, .unpaid debit drawn⟩)
  | ok win =>
    refine leads_bind (leads_pure (leads_bind ?_))
    refine leads_payWin_alone (Transaction.balance?_put hsees between) (fun after credit => ?_) ?_
    · have happend : (DataCall.append ⟨k.account.id, k.bet, win⟩).run k.ledger
          (Transaction.empty.put k.account.id after) = _ :=
        Transaction.append_eq (Transaction.balance?_put hsees after)
      refine leads_bind (leads_ofLedger (leads_call_alone happend ?_))
      refine leads_bind (leads_lift (under_emit_alone (leads_pure ⟨_, rfl, ?_⟩)))
      exact .paid debit drawn credit
    · exact fun e positive credit => ⟨_, _, rfl, .stuck debit drawn positive credit⟩

theorem leads_attempt_alone (k : Stake entropy ext) (j : UInt32) :
    Leads (alone entropy patient) ⟨k.ledger, none, k.source⟩
      (attempt .background k.odds ext k.bet j) (fun g spin => k.Attempted (.ok spin) g)
      fun g e => k.Attempted (.error e) g := by
  refine leads_bind (leads_checkContext_alone ?_)
  refine leads_bind (leads_raced_alone (leads_ofLedger (leads_begin_alone ?_)))
  refine leads_body (leads_bind (leads_raced_alone (Leads.mono (leads_apply_alone k) ?_ ?_)))
  · rintro g spin ⟨t, rfl, hspin⟩
    refine leads_bind (leads_checkContext_alone (leads_pure ?_))
    refine leads_bind (leads_bind (leads_ofLedger (leads_commit_alone (leads_pure ?_))))
    exact leads_bind (leads_lift (under_emit_alone (leads_pure hspin)))
  · rintro g e ⟨t, n, rfl, he⟩
    exact leads_bind (leads_bind (leads_lift (under_rollBack_alone (leads_throw he) _)))

theorem under_clock_alone {Q : Solo → Nat → Prop} (h : ∀ now, Q g now) :
    (request .clock).Under (alone entropy patient) g Q := by
  refine ⟨⟨nofun, trivial⟩, ?_⟩
  rintro now g' rfl
  exact h now

theorem Closes.under {σ ρ : Type} {r : Option ρ} {p : Program (σ ⊕ ρ)} (h : p.Closes r) :
    p.Under (alone entropy True) g fun g' z => g' = g ∧ ∃ a, z = .inr a ∧ r = some a := by
  induction p with
  | done z =>
    cases z with
    | inl s => exact h.elim
    | inr a => exact ⟨rfl, a, rfl, h⟩
  | crash => trivial
  | race c r k => exact h.elim
  | ask r k ih =>
    cases r
    case clock =>
      refine ⟨⟨nofun, trivial⟩, ?_⟩
      rintro now g' rfl
      exact ih now (h now)
    case emit e =>
      refine ⟨⟨nofun, trivial⟩, ?_⟩
      rintro a g' rfl
      exact ih a h
    all_goals exact h.elim

theorem under_afterFailure_alone (s : Retry) (e : SettlementError)
    {Q : Solo → Retry ⊕ Except SettlementError α → Prop} (hagain : ∀ s', Q g (.inl s'))
    (hspent : Q g (.inr (.error e))) :
    (Retry.afterFailure .background s e).Under (alone entropy True) g Q := by
  refine Under.bind (Under.bind (under_clock_alone fun now => ?_))
  dsimp only [pure, Under]
  split
  · trivial
  · refine Under.bind (Under.bind (under_clock_alone fun told => ?_))
    exact Under.bind (under_emit_alone hspent)
  · rename_i delay backoff words _
    refine Under.bind (under_emit_alone (Under.bind ?_))
    rw [pause_eq]
    refine ⟨⟨fun c hc => ?_, trivial⟩, fun _ _ h => h.elim, ?_⟩
    · cases hc
      rfl
    · rintro a g' rfl
      cases hn : numberAfter? s.attempt with
      | some n => exact hagain _
      | none => trivial

theorem under_rest_alone {k : Stake entropy ext} {s : Settlement}
    (hs : k.Goes ⟨k.ledger, none, k.source⟩ (.inl (.settle s)))
    {r : Except SettlementError Spin} (h : k.Attempted r g) :
    (s.rest r).Under (alone entropy True) g k.Goes := by
  have hanswer : ∀ {p : Program (Stage ⊕ Reply)}, p.Closes (Settlement.reply? r) →
      p.Under (alone entropy True) g k.Goes := by
    refine fun hp => Under.mono hp.under ?_
    rintro g' z ⟨rfl, reply, rfl, hreply⟩
    exact ⟨r, h, hreply⟩
  by_cases hlack : ∃ available required, r = .error (.insufficientFunds available required)
  · obtain ⟨available, required, rfl⟩ := hlack
    -- Nothing was drawn and nothing changed, so another attempt stands where this one stood.
    obtain rfl := h.lacking
    change (Retry.afterFailure s.context s.retry (.insufficientFunds available required) >>=
      s.close >>= Session.settleRound).Under _ _ _
    rw [hs.2.1]
    refine Under.bind (Under.bind (under_afterFailure_alone s.retry _ (fun retry => hs) ?_))
    exact Under.bind (hanswer (closes_close s _))
  · exact hanswer (closes_rest s fun available required heq => hlack ⟨available, required, heq⟩)

theorem under_settle_alone {k : Stake entropy ext} {s : Settlement}
    (hs : k.Goes g (.inl (.settle s))) :
    (s.round.observed >>= Session.settleRound).Under (alone entropy True) g k.Goes := by
  obtain ⟨rfl, hcontext, hext, hbet, hodds⟩ := hs
  rw [round_eq]
  refine Under.bind (Under.mono (Under.observed (alone_unprobed entropy True) ?_) fun g' r h =>
    under_rest_alone ⟨rfl, hcontext, hext, hbet, hodds⟩ h)
  rw [hcontext, hext, hbet, hodds]
  refine Under.mono (leads_attempt_alone k s.retry.attempt) fun g' r h => ?_
  cases r <;> exact h

theorem under_started_alone {k : Stake entropy ext} {config : Settings}
    (hodds : config.odds = k.odds) (hbet : acceptsBet k.bet = true) {n : Nat}
    (hn : k.source = n + 1) :
    (Settlement.start config .background ext k.bet).Under (alone entropy patient)
      ⟨k.ledger, none, n⟩ fun g r => ∃ s, r = .inl s ∧ k.Goes g (.inl (.settle s)) := by
  rw [Settlement.start, if_pos hbet]
  refine Under.bind (under_clock_alone fun started => Under.bind (Under.bind ?_))
  refine under_clock_alone fun now => Under.bind ⟨⟨nofun, trivial⟩, ?_⟩
  rintro words g' ⟨-, rfl⟩
  exact ⟨_, rfl, by rw [hn], rfl, rfl, rfl, hodds⟩

theorem under_start_alone {k : Stake entropy ext} {config : Settings} (hodds : config.odds = k.odds)
    (hbet : acceptsBet k.bet = true) {n : Nat} (hn : k.source = n + 1) :
    (Settlement.start config .background ext k.bet >>= Session.settleRound).Under
      (alone entropy True) ⟨k.ledger, none, n⟩ k.Goes := by
  refine Under.bind (Under.mono (under_started_alone hodds hbet hn) ?_)
  rintro g r ⟨s, rfl, hs⟩
  exact hs

theorem under_rounds_alone {k : Stake entropy ext} {d : Desk} (hodds : d.engine.odds = k.odds)
    (hbet : acceptsBet k.bet = true) {stage : Stage} (h : k.Goes g (.inl stage)) :
    (Session.rounds stage d).2 = d ∧
      (Session.rounds stage d).1.Under (alone entropy True) g k.Goes := by
  cases stage with
  | start op =>
    obtain ⟨rfl, n, hn, rfl⟩ := h
    exact ⟨rfl, under_start_alone hodds hbet hn⟩
  | settle s => exact ⟨rfl, under_settle_alone h⟩
  | retry s => exact h.elim
  | name name context handle => exact h.elim

end Program

end WagerLedger
