import WagerLedger.Proofs.Program.Calls
import WagerLedger.Settlement

/-! # What a settlement ensures

An attempt that fails, at whatever call and for whatever reason, is outside of the ledger
again; one that ends well is past a commit of bet, win and spin together. The retry loop only
makes another attempt after a failed one, so a settlement passes one commit or none. -/
namespace WagerLedger

theorem Transaction.put_put (id : AccountId) (b b' : Decimal) :
    (empty.put id b).put id b' = empty.put id b' := by
  simp [put, empty, Table.empty, Table.put, Table.write]

namespace Program

open LedgerProgram Settlement

variable {ε α β : Type} {B : Bounds} {φ : Phase}

section Attempts

variable {l : Ledger} {t : Transaction} {ext : Identifier} {odds : Odds} {bet : Decimal}
  {c : Context} {err : Phase → SettlementError → Prop}

theorem ends_ofLedger {p : LedgerProgram α} {f : LedgerError → SettlementError}
    {ok : Phase → α → Prop} (h : Ends B φ p ok fun ψ e => err ψ (f e)) :
    Ends B φ (ofLedger p f) ok err := by
  refine Ensures.map (Ensures.mono h fun ψ r hr => ?_)
  cases r with
  | ok a => exact hr
  | error e => exact hr

theorem ends_against {A : Phase → Prop} {p : SpinProgram α} {ok : Phase → α → Prop} (hφ : A φ)
    (h : Ends ⟨A, B.breaks⟩ φ p ok err) (hB : ∀ ψ, A ψ → B.asks ψ ∧ ψ.Working)
    (hA : ∀ ψ e, A ψ → err ψ e) : Ends B φ (ExceptT.mk (p.run.against c)) ok err :=
  Ensures.against hφ h hB hA

theorem ends_body {p : ExceptT ε Program α} {f : Except ε α → SpinProgram β}
    {ok : Phase → β → Prop} (h : Ends B φ p (fun ψ a => Ends B ψ (f (.ok a)) ok err)
      fun ψ e => Ends B ψ (f (.error e)) ok err) :
    Ends B φ (ExceptT.lift p.run >>= f) ok err := by
  refine ends_bind (ends_lift (Ensures.mono h fun ψ r hr => ?_))
  cases r with
  | ok a => exact hr
  | error e => exact hr

theorem ends_find {ok : Phase → Account → Prop} (hB : B.asks (.inside l t))
    (herr : ∀ e, err (.inside l t) e) (hok : ∀ a, t.find? l ext = some a → ok (.inside l t) a) :
    Ends B (.inside l t) (Settlement.resolve ext) ok err := by
  refine ends_bind (ends_ofLedger (ends_call hB (fun _ => herr _) fun b t' hr => ?_))
  cases hr
  split
  · rename_i a ha
    exact ends_pure (hok a ha)
  · exact ends_throw (herr _)

theorem ends_payWin {id : AccountId} {win between : Decimal} {ok : Phase → Unit → Prop}
    (hB : ∀ t, B.asks (.inside l t)) (herr : ∀ t e, err (.inside l t) e)
    (hb : (Transaction.empty.put id between).balance? l id = some between)
    (hok : ∀ after, (if win.isPositive then Adjusts win between after else after = between) →
      ok (.inside l (Transaction.empty.put id after)) ()) :
    Ends B (.inside l (Transaction.empty.put id between)) (payWin id win) ok err := by
  unfold payWin
  split
  · rename_i hpos
    refine ends_bind (ends_ofLedger (ends_credit hB (fun _ => herr _ _) ?_))
    intro before after hbefore hadj
    rw [hb] at hbefore
    cases hbefore
    rw [Transaction.put_put]
    exact ends_pure (hok after (by rwa [if_pos hpos]))
  · rename_i hpos
    exact ends_pure (hok between (by rw [if_neg hpos]))

/-- All writes of a spin, in a transaction that has seen nothing else. -/
theorem ends_apply {ok : Phase → Spin → Prop} (hB : ∀ t, B.asks (.inside l t))
    (herr : ∀ t e, err (.inside l t) e)
    (hok : ∀ t spin, (∃ o, payout odds bet o = .ok spin.win) →
      (∃ before between after, l.Settles ext bet spin before between after (t.apply l)) →
      ok (.inside l t) spin) :
    Ends B (.inside l .empty) (Settlement.apply odds ext bet) ok err := by
  refine ends_bind (ends_find (hB _) (herr _) fun a ha => ?_)
  rw [Transaction.find?_empty] at ha
  refine ends_bind (ends_ofLedger (ends_debit hB (fun _ => herr _ _) ?_))
  intro before between hb hdebit
  have hsees : (Transaction.empty.balance? l a.id).isSome := by rw [hb]; rfl
  rw [Transaction.balance?_empty] at hb
  refine ends_bind (ends_lift (ensures_request (hB _) ⟨trivial, fun words => ?_⟩))
  dsimp only
  cases hwin : payout odds bet (odds.spin words).1 with
  | error e => exact ends_throw (herr _ e)
  | ok win =>
    refine ends_bind (ends_pure (ends_bind ?_))
    refine ends_payWin hB herr (Transaction.balance?_put hsees between) fun after hcredit => ?_
    refine ends_bind (ends_ofLedger (ends_call (hB _) (fun _ => herr _ _) fun spin t' hr => ?_))
    have happ : Transaction.append l (Transaction.empty.put a.id after) ⟨a.id, bet, win⟩ =
        (.ok spin, t') := hr
    rw [Transaction.append_eq (Transaction.balance?_put hsees after)] at happ
    cases happ
    refine ends_bind (ends_lift (ensures_emit (hB _) (ends_pure (hok _ _ ⟨_, hwin⟩ ?_))))
    have hid : l.lastSpinId + (([] : List Spin).length : Int) + 1 = l.lastSpinId + 1 := by simp
    exact ⟨before, between, after, ⟨a, ha, rfl⟩, hb, hdebit, hcredit, rfl, hid, rfl⟩

theorem ends_checkContext {ok : Phase → Unit → Prop} (hB : B.asks φ) (hφ : φ.Working)
    (herr : ∀ e, err φ e) (hok : ok φ ()) : Ends B φ (checkContext c) ok err := by
  refine ends_bind (ends_lift (ensures_request hB ⟨hφ, fun a => ?_⟩))
  cases a with
  | some e => exact ends_throw (herr e)
  | none => exact ends_pure hok

theorem ends_finish_ok {a : α} {ok : Phase → α → Prop} (hB : ∀ ψ, B.asks ψ)
    (herr : ∀ e, err .outside e) (hok : ok (.past l (t.apply l)) a) :
    Ends B (.inside l t) (finish (.ok a)) ok err :=
  ends_bind (ends_ofLedger (ends_commit (hB _) (fun _ => herr _) (ends_pure hok)))

theorem ends_finish_error {e : SettlementError} {ok : Phase → α → Prop} (hB : ∀ ψ, B.asks ψ)
    (herr : ∀ e, err .outside e) : Ends B (.inside l t) (finish (.error e)) ok err :=
  ends_bind (ends_lift (ensures_rollBack hB (ends_throw (herr e))))

theorem ends_attempt {n : UInt32} {ok : Phase → Spin → Prop} (hB : ∀ ψ, B.asks ψ)
    (herr : ∀ e, err .outside e)
    (hok : ∀ l l' spin, (∃ o, payout odds bet o = .ok spin.win) →
      (∃ before between after, l.Settles ext bet spin before between after l') →
      ok (.past l l') spin) :
    Ends B .outside (attempt c odds ext bet n) ok err := by
  refine ends_bind (ends_checkContext (hB _) trivial herr ?_)
  have hbegin : ∀ ψ e, ψ = Phase.outside → err ψ e := fun ψ e hψ => hψ ▸ herr e
  have hout : ∀ ψ, ψ = Phase.outside → B.asks ψ ∧ ψ.Working := fun ψ hψ => ⟨hB ψ, hψ ▸ trivial⟩
  refine ends_bind (ends_against (A := (· = .outside)) rfl (ends_ofLedger ?_) hout hbegin)
  refine ends_begin rfl (fun _ => herr _) fun l => ends_body (ends_bind ?_)
  -- Inside the transaction a context can end the attempt anywhere, and all ends are alike.
  have hfail : ∀ t e, Ends B (.inside l t) (finish (.error e) >>= fun spin => do
      ExceptT.lift (Program.request (.emit (.attemptCommitted n spin)))
      return spin) ok err := fun t e => ends_bind (ends_finish_error hB herr)
  refine ends_against (A := fun ψ => ∃ t, ψ = .inside l t) ⟨.empty, rfl⟩ ?_ ?_ ?_
  · refine ends_apply (fun t => ⟨t, rfl⟩) hfail fun t spin hwin hset => ?_
    refine ends_bind (ends_checkContext (hB _) trivial (hfail t) (ends_pure ?_))
    refine ends_bind (ends_finish_ok hB herr ?_)
    exact ends_bind (ends_lift (ensures_emit (hB _) (ends_pure (hok _ _ _ hwin hset))))
  · rintro _ ⟨t, rfl⟩
    exact ⟨hB _, trivial⟩
  · rintro _ e ⟨t, rfl⟩
    exact hfail t e

theorem ends_history {limit : Int} {ok : Phase → List Spin → Prop} (hB : ∀ ψ, B.asks ψ)
    (herr : ∀ e, err .outside e)
    (hok : ∀ l a, l.find? ext = some a →
      ok (.past l l) (Transaction.empty.list l a.id (max limit 0))) :
    Ends B .outside (history ext limit) ok err := by
  refine ends_bind (ends_ofLedger (ends_begin (hB _) (fun _ => herr _) fun l => ?_))
  have hfail : ∀ e, Ends B (.inside l .empty) (finish (.error e)) ok err :=
    fun e => ends_finish_error hB herr
  refine ends_body (ends_bind (ends_find (hB _) hfail fun a ha => ?_))
  rw [Transaction.find?_empty] at ha
  refine ends_ofLedger (ends_call (hB _) (fun _ => hfail _) fun spins t' hr => ?_)
  cases hr
  exact ends_finish_ok hB herr (hok l a ha)

end Attempts

theorem ensures_elapsedSince {started : Nat} {Q : Phase → Duration → Prop} (hB : B.asks φ)
    (h : ∀ d, Q φ d) : (Retry.elapsedSince started).Ensures B φ Q :=
  Ensures.bind (ensures_request hB fun _ => h _)

theorem ensures_afterFailure {c : Context} {s : Retry} {e : SettlementError}
    {Q : Phase → Retry ⊕ Except SettlementError α → Prop} (hB : ∀ ψ, B.asks ψ)
    (hcrash : B.breaks .outside) (hagain : ∀ s, Q .outside (.inl s))
    (herr : ∀ e, Q .outside (.inr (.error e))) :
    (Retry.afterFailure c s e).Ensures B .outside Q := by
  refine Ensures.bind (ensures_elapsedSince (hB _) fun elapsed => ?_)
  split
  · exact hcrash
  · refine Ensures.bind (ensures_elapsedSince (hB _) fun told => ?_)
    exact Ensures.bind (ensures_emit (hB _) (herr _))
  · rename_i delay backoff words _
    refine Ensures.bind (ensures_emit (hB _) (Ensures.bind ?_))
    refine Ensures.raced (A := (· = .outside)) ?_ ?_ ?_
    · refine Ensures.map (ensures_request rfl ⟨trivial, fun _ => ?_⟩)
      dsimp only
      split
      · exact hagain _
      · exact hcrash
    · rintro _ rfl
      exact ⟨hB _, trivial⟩
    · rintro _ e rfl
      exact herr e

theorem ensures_round {c : Context} {op : UInt32 → SpinProgram α} {s : Retry}
    {Q : Phase → Retry ⊕ Except SettlementError α → Prop} (hB : ∀ ψ, B.asks ψ)
    (hcrash : B.breaks .outside) (hagain : ∀ s, Q .outside (.inl s))
    (herr : ∀ e, Q .outside (.inr (.error e)))
    (hop : ∀ n, Ends B .outside (op n) (fun ψ a => Q ψ (.inr (.ok a))) fun ψ _ => ψ = .outside) :
    (s.round c op).Ensures B .outside Q := by
  refine Ensures.bind (Ensures.mono (hop s.attempt) fun ψ r hr => ?_)
  cases r with
  | error e =>
    cases hr
    dsimp only
    split
    · exact ensures_afterFailure hB hcrash hagain herr
    · exact herr e
  | ok a =>
    dsimp only
    split
    · refine Ensures.bind (ensures_elapsedSince (hB _) fun elapsed => ?_)
      exact Ensures.bind (ensures_emit (hB _) hr)
    · exact hr

theorem ensures_retryStart {config : RetryPlan} {Q : Phase → Retry → Prop} (hB : B.asks .outside)
    (h : ∀ s, Q .outside s) : (Retry.start config).Ensures B .outside Q := by
  refine Ensures.bind (ensures_request hB fun started => ?_)
  exact Ensures.bind (ensures_request hB ⟨trivial, fun words => h _⟩)

theorem ensures_settlementStart {config : Settings} {c : Context} {ext : Identifier}
    {bet : Decimal} {Q : Phase → Settlement ⊕ Except SettlementError Spin → Prop}
    (hB : B.asks .outside) (herr : ∀ e, Q .outside (.inr (.error e)))
    (hstart : acceptsBet bet = true → ∀ started retry,
      Q .outside (.inl ⟨c, ext, bet, config.odds, started, retry⟩)) :
    (Settlement.start config c ext bet).Ensures B .outside Q := by
  unfold Settlement.start
  split
  · rename_i hbet
    refine Ensures.bind (ensures_request hB fun started => ?_)
    exact Ensures.bind (ensures_retryStart hB fun retry => hstart hbet started retry)
  · exact herr _

theorem ensures_report {s : Settlement} {r : Except SettlementError Spin}
    {Q : Phase → Unit → Prop} (hB : B.asks φ) (h : Q φ ()) : (s.report r).Ensures B φ Q := by
  refine Ensures.bind (ensures_elapsedSince hB fun elapsed => ?_)
  split
  · exact ensures_emit hB h
  · exact ensures_emit hB h

theorem ensures_settlementRound {s : Settlement}
    {Q : Phase → Settlement ⊕ Except SettlementError Spin → Prop} (hB : ∀ ψ, B.asks ψ)
    (hcrash : B.breaks .outside) (hagain : ∀ retry, Q .outside (.inl { s with retry := retry }))
    (herr : ∀ e, Q .outside (.inr (.error e)))
    (hok : ∀ l l' spin, (∃ o, payout s.odds s.bet o = .ok spin.win) →
      (∃ before between after, l.Settles s.externalId s.bet spin before between after l') →
      Q (.past l l') (.inr (.ok spin))) :
    s.round.Ensures B .outside Q := by
  refine Ensures.bind (ensures_round hB hcrash hagain ?_ fun n => ends_attempt hB ?_ ?_)
  · exact fun e => Ensures.bind (ensures_report (hB _) (herr e))
  · exact fun _ => rfl
  · exact fun l l' spin hwin hset =>
      Ensures.bind (ensures_report (hB _) (hok l l' spin hwin hset))

end Program

end WagerLedger
