import WagerLedger.Proofs.Program.Alike
import WagerLedger.Settlement
import WagerLedger.Wallet

/-! # Like calls of the wallet and of the settlements

One rule for each program, in the form of its callers: with like accounts and amounts it goes
the same way. No branch of these programs looks at more of an amount than the tests that a
likeness keeps. -/
namespace WagerLedger

variable {L : Likeness}

namespace Program

open LedgerProgram

variable {α α' : Type} {R : α → α' → Prop} {i i' : AccountId} {x x' y y' : Decimal}
  {ext : Identifier}

theorem alike_call {c c' : DataCall} {A : c.Answer → c'.Answer → Prop} (h : c.Alike L c' A) :
    AlikeT L (LedgerError.Alike L) A (call c) (call c') :=
  alike_request (.data h)

theorem alike_begin : AlikeT L (LedgerError.Alike L) Eq begin begin := by
  refine alikeT_bind (R := Eq) (Alike.mono (alike_plain (r := .arrive) rfl) ?_) fun _ _ _ =>
    alikeT_lift (alike_plain (r := .acquire) rfl)
  rintro a _ rfl
  exact .refl .same a

theorem alike_commit : AlikeT L (LedgerError.Alike L) Eq commit commit := by
  refine Alike.mono (alike_plain (r := .commit) rfl) ?_
  rintro a _ rfl
  exact .refl .same a

theorem alikeT_emit {ε : Type} {E : ε → ε → Prop} (e e' : Event) :
    AlikeT L E Eq (ExceptT.lift (request (.emit e))) (ExceptT.lift (request (.emit e'))) :=
  alikeT_lift (alike_emit e e')

theorem alike_rollBack (cause cause' : String) : (rollBack cause).Alike L Eq (rollBack cause') := by
  refine (alike_plain rfl).bind ?_
  rintro r _ rfl
  cases r with
  | ok _ => exact .done rfl
  | error e => exact alike_emit _ _

theorem alike_applyDelta (hi : L.scope.links i i') (hx : L.amounts.rel x x')
    (hy : L.amounts.rel y y') :
    AlikeT L (LedgerError.Alike L) L.amounts.rel (applyDelta i x y) (applyDelta i' x' y') := by
  have hsum := L.amounts.add? hy hx
  rw [applyDelta, applyDelta, L.amounts.isNegative hx]
  generalize y.add? x = s at hsum ⊢
  generalize y'.add? x' = s' at hsum ⊢
  cases hsum with
  | none => exact alikeT_throw (.same _)
  | some hz =>
    simp only [L.amounts.isNegative hz]
    split
    · exact alikeT_throw (.insufficientFunds hy (L.amounts.neg hx))
    · exact alikeT_bind (alike_call (.writeBalance hi hz)) fun _ _ _ =>
        alikeT_bind (alikeT_emit _ _) fun _ _ _ => alikeT_pure hz

theorem alike_adjust (hi : L.scope.links i i') (hx : L.amounts.rel x x') :
    AlikeT L (LedgerError.Alike L) L.amounts.rel (adjust i x) (adjust i' x') := by
  rw [adjust, adjust, L.amounts.fitsLedger hx]
  split
  · exact alikeT_throw (.invalidAmount (L.amounts.abs hx))
  · refine alikeT_bind (alike_call (.lockBalance hi)) fun b b' hb => ?_
    cases hb with
    | none => exact alikeT_throw (.accountNotFound hi)
    | some hy =>
      simp only [L.amounts.isZero hx]
      split
      · exact alikeT_pure hy
      · exact alike_applyDelta hi hx hy

theorem alike_credit (hi : L.scope.links i i') (hx : L.amounts.rel x x') :
    AlikeT L (LedgerError.Alike L) L.amounts.rel (credit i x) (credit i' x') := by
  rw [credit, credit, L.amounts.isPositive hx]
  split
  · exact alike_adjust hi hx
  · exact alikeT_throw (.invalidAmount hx)

theorem alike_debit (hi : L.scope.links i i') (hx : L.amounts.rel x x') :
    AlikeT L (LedgerError.Alike L) L.amounts.rel (debit i x) (debit i' x') := by
  rw [debit, debit, L.amounts.isPositive hx]
  split
  · exact alike_adjust hi (L.amounts.neg hx)
  · exact alikeT_throw (.invalidAmount hx)

section Wallet

open Wallet

theorem alike_resolve (he : L.scope.names ext) :
    AlikeT L (LedgerError.Alike L) (Account.Alike L) (resolve ext) (resolve ext) := by
  refine alikeT_bind (alike_call (.find he)) fun a a' ha => ?_
  cases ha with
  | none => exact alikeT_throw (.same _)
  | some ha => exact alikeT_pure ha

theorem alike_conclude {body : LedgerProgram α} {body' : LedgerProgram α'}
    (h : AlikeT L (LedgerError.Alike L) R body body') :
    AlikeT L (LedgerError.Alike L) R (conclude body) (conclude body') := by
  refine alikeT_bind (alikeT_lift h) fun r r' hr => ?_
  cases hr with
  | ok ha => exact alikeT_bind alike_commit fun _ _ _ => alikeT_pure ha
  | error he =>
    exact alikeT_bind (alikeT_lift (alike_rollBack _ _)) fun _ _ _ => alikeT_throw he

theorem alike_change (he : L.scope.names ext) (hx : L.amounts.rel x x') :
    AlikeT L (LedgerError.Alike L) L.amounts.rel (change ext x) (change ext x') := by
  refine alikeT_bind alike_begin fun _ _ _ => alike_conclude ?_
  exact alikeT_bind (alike_resolve he) fun a a' ha => alike_adjust ha.id hx

theorem alike_deposit (he : L.scope.names ext) (hx : L.amounts.rel x x') :
    AlikeT L (LedgerError.Alike L) L.amounts.rel (deposit ext x) (deposit ext x') := by
  rw [deposit, deposit, L.amounts.isPositive hx]
  split
  · exact alikeT_bind (alike_change he hx) fun _ _ hb =>
      alikeT_bind (alikeT_emit _ _) fun _ _ _ => alikeT_pure hb
  · exact alikeT_throw (.invalidAmount hx)

theorem alike_withdraw (he : L.scope.names ext) (hx : L.amounts.rel x x') :
    AlikeT L (LedgerError.Alike L) L.amounts.rel (withdraw ext x) (withdraw ext x') := by
  rw [withdraw, withdraw, L.amounts.isPositive hx]
  split
  · exact alikeT_bind (alike_change he (L.amounts.neg hx)) fun _ _ hb =>
      alikeT_bind (alikeT_emit _ _) fun _ _ _ => alikeT_pure hb
  · exact alikeT_throw (.invalidAmount hx)

theorem alike_openAccount (he : L.scope.names ext) :
    AlikeT L (LedgerError.Alike L) (Account.Alike L) (openAccount ext) (openAccount ext) :=
  alikeT_bind alike_begin fun _ _ _ =>
    alikeT_bind (alike_conclude (alike_call (.insert he))) fun _ _ ha =>
      alikeT_bind (alikeT_emit _ _) fun _ _ _ => alikeT_pure ha

theorem alike_account (he : L.scope.names ext) :
    AlikeT L (LedgerError.Alike L) (Account.Alike L) (account ext) (account ext) :=
  alikeT_bind alike_begin fun _ _ _ => alike_conclude (alike_resolve he)

end Wallet

end Program

section Settlement

variable (L)

structure Odds.Alike (o o' : Odds) : Prop where
  threeMatchProbability : o'.threeMatchProbability = o.threeMatchProbability
  twoMatchProbability : o'.twoMatchProbability = o.twoMatchProbability
  threeMatchMultiplier : L.amounts.rel o.threeMatchMultiplier o'.threeMatchMultiplier
  twoMatchMultiplier : L.amounts.rel o.twoMatchMultiplier o'.twoMatchMultiplier

structure Settings.Alike (c c' : Settings) : Prop where
  odds : c.odds.Alike L c'.odds
  retry : c'.retry = c.retry

/-- The same state of a retry, begun at like moments. -/
structure Retry.Alike (s s' : Retry) : Prop where
  attempt : s'.attempt = s.attempt
  started : s.started = s'.started + L.lag
  backoff : s'.backoff = s.backoff
  words : s'.words = s.words

structure Settlement.Alike (s s' : Settlement) : Prop where
  context : s'.context = s.context
  agrees : L.Agrees s.context
  externalId : s'.externalId = s.externalId
  named : L.scope.names s.externalId
  bet : L.amounts.rel s.bet s'.bet
  fits : s.bet.fitsLedger = true
  odds : s.odds.Alike L s'.odds
  started : s.started = s'.started + L.lag
  retry : s.retry.Alike L s'.retry

end Settlement

abbrev Likeness.RoundsAlike (L : Likeness) {σ α α' : Type} (S : σ → σ → Prop) (R : α → α' → Prop) :
    σ ⊕ Except SettlementError α → σ ⊕ Except SettlementError α' → Prop :=
  Sum.LiftRel S (EndsAlike (SettlementError.Alike L) R)

namespace Program

open Settlement

variable {α α' : Type} {R : α → α' → Prop} {i i' : AccountId} {x x' : Decimal}
  {ext : Identifier} {odds odds' : Odds} {c : Context}

theorem alike_elapsed {n n' : Nat} (h : n = n' + L.lag) :
    (Retry.elapsedSince n).Alike L Eq (Retry.elapsedSince n') := by
  refine (alike_request .clock).bind fun m m' hm => .done ?_
  have hm' : m = m' + L.lag := hm
  rw [hm', h, Nat.add_sub_add_right]

theorem alike_retryStart (config : RetryPlan) :
    (Retry.start config).Alike L (Retry.Alike L) (Retry.start config) := by
  refine (alike_request .clock).bind fun n n' hn => (alike_plain rfl).bind ?_
  rintro words _ rfl
  exact .done ⟨rfl, hn, rfl, rfl⟩

theorem alike_pause (hc : L.Agrees c) (d : Duration) :
    AlikeT L (SettlementError.Alike L) Eq (Retry.pause c d) (Retry.pause c d) :=
  Alike.raced hc ((alike_plain rfl).map fun _ _ h => .ok h)

variable {s s' : Retry}

theorem alike_afterFailure (hc : L.Agrees c) (hs : s.Alike L s') {e e' : SettlementError}
    (he : e.Alike L e') : (Retry.afterFailure c s e : Program (_ ⊕ Except _ α)).Alike L
      (L.RoundsAlike (Retry.Alike L) R) (Retry.afterFailure c s' e') := by
  refine (alike_elapsed hs.started).bind ?_
  rintro elapsed _ rfl
  rw [hs.backoff, hs.words]
  cases s.backoff.next elapsed s.words with
  | error _ => exact .crash
  | ok next =>
    obtain ⟨delay, backoff, words⟩ := next
    cases delay with
    | none =>
      exact (alike_elapsed hs.started).bind fun _ _ _ =>
        Alike.bind (alike_emit _ _) fun _ _ _ => alike_pure (.inr (.error he))
    | some delay =>
      refine Alike.bind (alike_emit _ _) fun _ _ _ =>
        Alike.bind (alike_pause hc delay) fun r r' hr => ?_
      cases hr with
      | error he => exact alike_pure (.inr (.error he))
      | ok _ =>
        rw [hs.attempt]
        dsimp only
        split
        · exact alike_pure (.inl ⟨rfl, hs.started, rfl, rfl⟩)
        · exact .crash

theorem alike_round (hc : L.Agrees c) {op : UInt32 → SpinProgram α}
    {op' : UInt32 → SpinProgram α'}
    (hop : ∀ n, AlikeT L (SettlementError.Alike L) R (op n) (op' n)) (hs : s.Alike L s') :
    (Retry.round c op s).Alike L (L.RoundsAlike (Retry.Alike L) R) (Retry.round c op' s') := by
  rw [Retry.round, Retry.round, hs.attempt]
  refine Alike.bind (hop s.attempt) fun r r' hr => ?_
  cases hr with
  | error he =>
    simp only [he.isRecoverable]
    split
    · exact alike_afterFailure hc hs he
    · exact alike_pure (.inr (.error he))
  | ok ha =>
    dsimp only
    split
    · exact Alike.bind (alike_elapsed hs.started) fun _ _ _ =>
        Alike.bind (alike_emit _ _) fun _ _ _ => alike_pure (.inr (.ok ha))
    · exact alike_pure (.inr (.ok ha))

theorem alike_mapError {p : LedgerProgram α} {p' : LedgerProgram α'}
    {f : LedgerError → SettlementError} (h : AlikeT L (LedgerError.Alike L) R p p')
    (hf : ∀ e e', LedgerError.Alike L e e' → (f e).Alike L (f e')) :
    AlikeT L (SettlementError.Alike L) R (ofLedger p f) (ofLedger p' f) := by
  refine Alike.map h fun r r' hr => ?_
  cases hr with
  | ok ha => exact .ok ha
  | error he => exact .error (hf _ _ he)

theorem alike_ofLedger {p : LedgerProgram α} {p' : LedgerProgram α'}
    (h : AlikeT L (LedgerError.Alike L) R p p') :
    AlikeT L (SettlementError.Alike L) R (ofLedger p .ofLedger) (ofLedger p' .ofLedger) :=
  alike_mapError h fun _ _ => SettlementError.alike_ofLedger

theorem alike_resolveSpin (he : L.scope.names ext) :
    AlikeT L (SettlementError.Alike L) (Account.Alike L) (Settlement.resolve ext)
      (Settlement.resolve ext) := by
  refine alikeT_bind (alike_ofLedger (alike_call (.find he))) fun a a' ha => ?_
  cases ha with
  | none => exact alikeT_throw (.same _)
  | some ha => exact alikeT_pure ha

theorem spin_alike (ho : odds.Alike L odds') (words : Words) :
    (odds'.spin words).1 = (odds.spin words).1 := by
  simp only [Odds.spin, ho.threeMatchProbability, ho.twoMatchProbability]

theorem multiplier_alike (ho : odds.Alike L odds') (o : Outcome) :
    L.amounts.rel (o.multiplier odds) (o.multiplier odds') := by
  cases o with
  | threeMatch => exact ho.threeMatchMultiplier
  | twoMatch => exact ho.twoMatchMultiplier
  | noMatch => exact L.amounts.zero

theorem payout_alike (ho : odds.Alike L odds') (hfits : x.fitsLedger = true)
    (hx : L.amounts.rel x x') (o : Outcome) :
    EndsAlike (SettlementError.Alike L) L.amounts.rel (payout odds x o) (payout odds' x' o) := by
  have hm := multiplier_alike ho o
  have hwin := L.amounts.mul? hfits hx hm
  rw [payout, payout, Odds.win?, Odds.win?]
  generalize x.mul? (o.multiplier odds) = win at hwin ⊢
  generalize x'.mul? (o.multiplier odds') = win' at hwin ⊢
  cases hwin with
  | none => exact .error (.payoutOverflow hx hm)
  | some h => exact .ok (L.amounts.truncate h _)

theorem alike_payWin (hi : L.scope.links i i') (hx : L.amounts.rel x x') :
    AlikeT L (SettlementError.Alike L) Eq (payWin i x) (payWin i' x') := by
  rw [payWin, payWin, L.amounts.isPositive hx]
  split
  · exact alikeT_bind (alike_mapError (alike_credit hi hx) fun _ _ => .storage)
      fun _ _ _ => alikeT_pure rfl
  · exact alikeT_pure rfl

theorem alike_apply (he : L.scope.names ext) (ho : odds.Alike L odds')
    (hfits : x.fitsLedger = true) (hx : L.amounts.rel x x') :
    AlikeT L (SettlementError.Alike L) (Spin.Alike L) (apply odds ext x)
      (apply odds' ext x') := by
  refine alikeT_bind (alike_resolveSpin he) fun a a' ha => ?_
  refine alikeT_bind (alike_ofLedger (alike_debit ha.id hx)) fun _ _ _ => ?_
  refine alikeT_bind (alikeT_lift (alike_plain rfl)) ?_
  rintro words _ rfl
  simp only [spin_alike ho]
  refine alikeT_bind (.done (payout_alike ho hfits hx _)) fun win win' hwin => ?_
  refine alikeT_bind (alike_payWin ha.id hwin) fun _ _ _ => ?_
  refine alikeT_bind (alike_ofLedger (alike_call (.append ⟨ha.id, hx, hwin⟩))) fun _ _ hspin => ?_
  exact alikeT_bind (alikeT_emit _ _) fun _ _ _ => alikeT_pure hspin

theorem alike_finish {r : Except SettlementError α} {r' : Except SettlementError α'}
    (h : EndsAlike (SettlementError.Alike L) R r r') :
    AlikeT L (SettlementError.Alike L) R (finish r) (finish r') := by
  cases h with
  | ok ha => exact alikeT_bind (alike_ofLedger alike_commit) fun _ _ _ => alikeT_pure ha
  | error he =>
    exact alikeT_bind (alikeT_lift (alike_rollBack _ _)) fun _ _ _ => alikeT_throw he

theorem alike_checkContext (hc : L.Agrees c) :
    AlikeT L (SettlementError.Alike L) Eq (checkContext c) (checkContext c) := by
  refine alikeT_bind (alikeT_lift (alike_request (.check hc))) ?_
  rintro e _ rfl
  cases e with
  | none => exact alikeT_pure rfl
  | some e => exact alikeT_throw (.same e)

theorem alike_attempt (hc : L.Agrees c) (he : L.scope.names ext) (ho : odds.Alike L odds')
    (hfits : x.fitsLedger = true) (hx : L.amounts.rel x x') (n : UInt32) :
    AlikeT L (SettlementError.Alike L) (Spin.Alike L) (attempt c odds ext x n)
      (attempt c odds' ext x' n) := by
  have happly : AlikeT L (SettlementError.Alike L) (Spin.Alike L)
      (applyChecked c odds ext x) (applyChecked c odds' ext x') :=
    alikeT_bind (Alike.against hc (alike_apply he ho hfits hx)) fun _ _ hspin =>
      alikeT_bind (alike_checkContext hc) fun _ _ _ => alikeT_pure hspin
  refine alikeT_bind (alike_checkContext hc) fun _ _ _ => ?_
  refine alikeT_bind (Alike.against hc (alike_ofLedger alike_begin)) fun _ _ _ => ?_
  refine alikeT_bind (alikeT_lift happly) fun r r' hr => ?_
  exact alikeT_bind (alike_finish hr) fun _ _ hspin =>
    alikeT_bind (alikeT_emit _ _) fun _ _ _ => alikeT_pure hspin

theorem alike_start {config config' : Settings} (hconfig : config.Alike L config')
    (hc : L.Agrees c) (he : L.scope.names ext) (hx : L.amounts.rel x x') :
    (start config c ext x).Alike L (L.RoundsAlike (Settlement.Alike L) (Spin.Alike L))
      (start config' c ext x') := by
  rw [start, start, show acceptsBet x' = acceptsBet x by
    rw [acceptsBet, acceptsBet, L.amounts.isPositive hx, L.amounts.fitsLedger hx]]
  split
  · rename_i hbet
    rw [acceptsBet, Bool.and_eq_true] at hbet
    rw [hconfig.retry]
    exact (alike_request .clock).bind fun _ _ hn => (alike_retryStart _).bind fun _ _ hs =>
      .done (.inl ⟨rfl, hc, rfl, he, hx, hbet.2, hconfig.odds, hn, hs⟩)
  · exact .done (.inr (.error (.invalidBet hx)))

theorem alike_report {s s' : Settlement} (hs : s.Alike L s')
    {r r' : Except SettlementError Spin}
    (hr : EndsAlike (SettlementError.Alike L) (Spin.Alike L) r r') :
    (s.report r).Alike L Eq (s'.report r') := by
  refine (alike_elapsed hs.started).bind fun _ _ _ => ?_
  cases hr with
  | ok _ => exact alike_emit _ _
  | error _ => exact alike_emit _ _

theorem alike_settlementRound {s s' : Settlement} (hs : s.Alike L s') :
    s.round.Alike L (L.RoundsAlike (Settlement.Alike L) (Spin.Alike L)) s'.round := by
  rw [Settlement.round, Settlement.round, hs.context, hs.externalId]
  refine (alike_round hs.agrees (alike_attempt hs.agrees hs.named hs.odds hs.fits hs.bet)
    hs.retry).bind fun r r' hr => ?_
  cases hr with
  | inl hr =>
    exact alike_pure (.inl
      ⟨rfl, hs.agrees, rfl, hs.named, hs.bet, hs.fits, hs.odds, hs.started, hr⟩)
  | inr hr => exact (alike_report hs hr).bind fun _ _ _ => alike_pure (.inr hr)

theorem alike_history (he : L.scope.names ext) (limit : Int) :
    AlikeT L (SettlementError.Alike L) (List.Forall₂ (Spin.Alike L)) (history ext limit)
      (history ext limit) := by
  refine alikeT_bind (alike_ofLedger alike_begin) fun _ _ _ => ?_
  refine alikeT_bind (alikeT_lift (alikeT_bind (alike_resolveSpin he) fun a a' ha =>
    alike_ofLedger (alike_call (.list ha.id _)))) fun r r' hr => ?_
  exact alike_finish hr

end Program

end WagerLedger
