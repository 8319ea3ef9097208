import WagerLedger.Proofs.Program.Settling
import WagerLedger.Session.Rounds

/-! # What the rounds of an operation ensure

Whatever round an operation is in, it starts outside of the ledger, and it ends there again
with an answer that changes nothing or past the change that goes with its answer. -/
namespace WagerLedger

namespace Operation

/-- An answer, or a break-off, goes with where its client stands. -/
def Outcome (P : Odds → Prop) (op : Operation) (r : Option Reply) : Phase → Prop
  | .outside => op.Refuses r
  | .past l l' => op.Makes P l l' r
  | _ => False

/-- The stages that an operation goes through. -/
def Admits (P : Odds → Prop) (op : Operation) : Stage → Prop
  | .start op' => op' = op
  | .settle s => Settlement.acceptsBet s.bet = true ∧ P s.odds ∧
      ∃ c, op = .settle s.externalId s.bet c
  | .retry _ | .name .. => ∀ r, op.Refuses r

def bounds (P : Odds → Prop) (op : Operation) : Bounds := ⟨fun _ => True, op.Outcome P none⟩

def RoundEnd (P : Odds → Prop) (op : Operation) (φ : Phase) : Stage ⊕ Reply → Prop
  | .inl s => φ = .outside ∧ op.Admits P s
  | .inr r => op.Outcome P (some r) φ

end Operation

namespace Session

open Program Operation

variable {P : Odds → Prop} {op : Operation} {φ : Phase}

theorem asks (ψ : Phase) : (op.bounds P).asks ψ := trivial

theorem ensures_answer {p : Program Reply}
    (h : p.Ensures (op.bounds P) φ fun ψ r => op.Outcome P (some r) ψ) :
    (answer p).Ensures (op.bounds P) φ (op.RoundEnd P) :=
  Ensures.map h

theorem ensures_wallet {α : Type} {p : LedgerProgram α} {f : α → Reply}
    (h : Ends (op.bounds P) φ p (fun ψ a => op.Outcome P (some (f a)) ψ)
      fun ψ e => op.Outcome P (some (.ledgerError e)) ψ) :
    (wallet p f).Ensures (op.bounds P) φ (op.RoundEnd P) := by
  refine ensures_answer (Ensures.map (Ensures.observed (Ensures.mono h fun ψ r hr => ?_)))
  cases r with
  | ok a => exact hr
  | error e => exact hr

theorem ensures_locked {α : Type} {r : Request} {f : r.Answer → α} {B : Bounds}
    {Q : Phase → α → Prop} (hB : ∀ ψ, B.asks ψ)
    (h : ∀ l, (Phase.inside l .empty).Allows r fun a ψ => Q ψ.released (f a)) :
    (locked r f).Ensures B .outside Q := by
  refine Ensures.bind (ensures_request (hB _) ⟨rfl, fun l => ?_⟩)
  refine Ensures.bind (ensures_request (hB _) ((h l).mono fun a ψ ha => ?_))
  exact Ensures.bind (ensures_request (hB _) ha)

theorem ensures_seed {ext : Identifier} {b : Decimal} :
    (answer (locked (.seed ext b) (Reply.ofLedger .account))).Ensures
      ((Operation.seed ext b).bounds P) .outside ((Operation.seed ext b).RoundEnd P) := by
  refine ensures_answer (ensures_locked asks fun l => ⟨l, rfl, fun e _ => ?_, fun a ha => ?_⟩)
  · rintro r ⟨⟩
    exact ⟨e, rfl⟩
  · exact ⟨a, Prod.ext ha rfl, rfl⟩

theorem ensures_deposit {ext : Identifier} {amount : Decimal} :
    (wallet (Wallet.deposit ext amount) .amount).Ensures
      ((Operation.deposit ext amount).bounds P) .outside
      ((Operation.deposit ext amount).RoundEnd P) := by
  refine ensures_wallet (ends_deposit asks (fun e => ?_) fun hpos l l' before after hm => ?_)
  · rintro r ⟨⟩
    exact ⟨e, rfl⟩
  · exact ⟨hpos, before, after, hm, rfl⟩

theorem ensures_withdraw {ext : Identifier} {amount : Decimal} :
    (wallet (Wallet.withdraw ext amount) .amount).Ensures
      ((Operation.withdraw ext amount).bounds P) .outside
      ((Operation.withdraw ext amount).RoundEnd P) := by
  refine ensures_wallet (ends_withdraw asks (fun e => ?_) fun hpos l l' before after hm => ?_)
  · rintro r ⟨⟩
    exact ⟨e, rfl⟩
  · exact ⟨hpos, before, after, hm, rfl⟩

theorem ensures_openAccount {ext : Identifier} :
    (wallet (Wallet.openAccount ext) .account).Ensures
      ((Operation.openAccount ext).bounds P) .outside
      ((Operation.openAccount ext).RoundEnd P) := by
  refine ensures_wallet (ends_openAccount asks (fun e => ?_) fun l l' a ha => ⟨a, ha, rfl⟩)
  rintro r ⟨⟩
  exact ⟨e, rfl⟩

theorem ensures_account {ext : Identifier} :
    (wallet (Wallet.account ext) .account).Ensures ((Operation.account ext).bounds P) .outside
      ((Operation.account ext).RoundEnd P) := by
  refine ensures_wallet (ends_account asks (fun e => ?_) fun l a ha => ⟨rfl, a, ha, rfl⟩)
  rintro r ⟨⟩
  exact ⟨e, rfl⟩

theorem ensures_history {ext : Identifier} {limit : Int} :
    (answer (Reply.ofSpin .spins <$> (Settlement.history ext limit).run.observed)).Ensures
      ((Operation.history ext limit).bounds P) .outside
      ((Operation.history ext limit).RoundEnd P) := by
  have h : Ends ((Operation.history ext limit).bounds P) .outside (Settlement.history ext limit)
      (fun ψ a => (Operation.history ext limit).Outcome P (some (.spins a)) ψ)
      fun ψ e => (Operation.history ext limit).Outcome P (some (.settlementError e)) ψ := by
    refine ends_history asks (fun e => ?_) fun l a ha => ⟨rfl, a, ha, rfl⟩
    rintro r ⟨⟩
    exact ⟨e, rfl⟩
  refine ensures_answer (Ensures.map (Ensures.observed (Ensures.mono h fun ψ r hr => ?_)))
  cases r with
  | ok a => exact hr
  | error e => exact hr

theorem ensures_settleRound {p : Program (Settlement ⊕ Except SettlementError Spin)}
    (h : p.Ensures (op.bounds P) φ fun ψ r => (settleRound r).Ensures (op.bounds P) ψ (op.RoundEnd P)) :
    (p >>= settleRound).Ensures (op.bounds P) φ (op.RoundEnd P) :=
  Ensures.bind h

theorem ensures_settleError {ext : Identifier} {bet : Decimal} {c : Option String}
    (e : SettlementError) :
    (settleRound (.inr (.error e))).Ensures ((Operation.settle ext bet c).bounds P) .outside
      ((Operation.settle ext bet c).RoundEnd P) := by
  rintro r ⟨⟩
  exact ⟨e, rfl⟩

theorem ensures_settled {ext : Identifier} {bet : Decimal} {c : Option String} {l l' : Ledger}
    {spin : Spin} (h : l.SettlesBy P ext bet spin l') :
    (settleRound (.inr (.ok spin))).Ensures ((Operation.settle ext bet c).bounds P) (.past l l')
      ((Operation.settle ext bet c).RoundEnd P) := by
  refine ensures_answer ?_
  unfold settled
  split
  · rename_i net hnet
    exact ⟨spin, h, by rw [hnet]; rfl⟩
  · rename_i hnet
    exact ⟨spin, h, by rw [hnet]; rfl⟩

theorem ensures_settleStart {d : Desk} (hd : P d.engine.odds) {ext : Identifier} {bet : Decimal}
    {c : Option String} :
    (Settlement.start d.engine (d.context c) ext bet >>= settleRound).Ensures
      ((Operation.settle ext bet c).bounds P) .outside ((Operation.settle ext bet c).RoundEnd P) := by
  refine ensures_settleRound (ensures_settlementStart (asks _) ensures_settleError ?_)
  intro hbet started retry
  exact ⟨rfl, hbet, hd, c, rfl⟩

theorem ensures_settleAgain {s : Settlement} (hbet : Settlement.acceptsBet s.bet = true)
    (hodds : P s.odds) {c : Option String} :
    (s.round.observed >>= settleRound).Ensures
      ((Operation.settle s.externalId s.bet c).bounds P) .outside
      ((Operation.settle s.externalId s.bet c).RoundEnd P) := by
  refine ensures_settleRound (Ensures.observed (ensures_settlementRound asks ?_ ?_ ?_ ?_))
  · rintro r ⟨⟩
  · exact fun retry => ⟨rfl, hbet, hodds, c, rfl⟩
  · exact ensures_settleError
  · rintro l l' spin ⟨o, ho⟩ hset
    exact ensures_settled ⟨hbet, ⟨s.odds, o, hodds, ho⟩, hset⟩

section Plain

variable (op) (hop : ∀ r, op.Refuses r)
include hop

theorem ensures_plain {r : Request} {f : r.Answer → Reply}
    (h : Phase.outside.Allows r fun _ ψ => ψ = .outside) :
    (answer (f <$> request r)).Ensures (op.bounds P) .outside (op.RoundEnd P) := by
  refine ensures_answer (Ensures.map (ensures_request (asks _) (h.mono fun a ψ hψ => ?_)))
  rw [hψ]
  exact hop _

theorem ensures_read {r : Request} {f : r.Answer → Reply}
    (h : ∀ l, (Phase.inside l .empty).Allows r fun _ ψ => ψ = .inside l .empty) :
    (answer (locked r f)).Ensures (op.bounds P) .outside (op.RoundEnd P) := by
  refine ensures_answer (ensures_locked asks fun l => (h l).mono fun a ψ hψ => ?_)
  rw [hψ]
  exact hop _

theorem ensures_named {now : Instant} {name : String} {timeouts deadlines : List Duration}
    {c : Context} {handle : Option SignalId} :
    (match addDeadlines now timeouts deadlines c with
      | some c => (return .inl (.name name c handle) : RoundProgram)
      | none => .crash).Ensures (op.bounds P) .outside (op.RoundEnd P) := by
  split
  · exact ⟨rfl, hop⟩
  · exact hop none

theorem ensures_makeContext {d : Desk} {name : String} {cancellable : Bool}
    {source : Option String} {timeouts deadlines : List Duration} :
    (makeContext d name cancellable source timeouts deadlines).Ensures (op.bounds P) .outside
      (op.RoundEnd P) := by
  refine Ensures.bind (ensures_request (asks _) fun clock => ?_)
  cases source with
  | some n => exact ensures_named op hop
  | none =>
    dsimp only
    split
    · exact Ensures.bind (ensures_request (asks _) ⟨trivial, fun s => ensures_named op hop⟩)
    · exact ensures_named op hop

theorem ensures_cancel {s : SignalId} :
    (answer (cancel s)).Ensures (op.bounds P) .outside (op.RoundEnd P) := by
  refine ensures_answer (Ensures.bind (ensures_request (asks _) ⟨trivial, fun before => ?_⟩))
  refine Ensures.bind (ensures_request (asks _) ⟨trivial, fun _ => ?_⟩)
  exact Ensures.bind (ensures_request (asks _) ⟨trivial, fun after => hop _⟩)

theorem ensures_await {c : Context} :
    (answer (await c)).Ensures (op.bounds P) .outside (op.RoundEnd P) := by
  refine ensures_answer (Ensures.bind (Ensures.raced (A := (· = .outside)) ?_ ?_ ?_))
  · exact Ensures.map (ensures_request rfl ⟨trivial, fun a => nomatch a⟩)
  · rintro _ rfl
    exact ⟨trivial, trivial⟩
  · rintro _ e rfl
    exact hop _

theorem ensures_retryRound {s : ScriptedRetry} :
    (retryRound s).Ensures (op.bounds P) .outside (op.RoundEnd P) := by
  refine Ensures.bind (ensures_request (asks _) fun clock => Ensures.bind ?_)
  refine ensures_round asks (hop none) (fun s => ⟨rfl, hop⟩) (fun e => hop _) fun n => ?_
  unfold scripted
  split
  · exact hop none
  · rename_i a _
    refine ends_bind (ends_lift (ensures_request (asks _) ⟨trivial, fun _ => ?_⟩))
    cases h : a.outcome with
    | ok text => exact ends_pure (hop _)
    | error e => exact ends_throw rfl

end Plain

theorem ensures_beginKept :
    beginKept.Ensures (Operation.begin.bounds P) .outside (Operation.begin.RoundEnd P) := by
  have h : Ends (Operation.begin.bounds P) .outside LedgerProgram.begin
      (fun ψ _ => ∃ l, ψ = .inside l .empty) fun ψ _ => ψ = .outside :=
    ends_begin (asks _) (fun _ => rfl) fun l => ⟨l, rfl⟩
  refine Ensures.bind (Ensures.mono (Ensures.observed h) fun ψ r hr => ?_)
  cases r with
  | ok a =>
    obtain ⟨l, rfl⟩ := hr
    exact Ensures.bind (ensures_request (asks _) ⟨l, _, rfl, trivial⟩)
  | error e =>
    cases hr
    trivial

theorem ensures_stays {m : Move} {l : Ledger} {p : Program Reply}
    (hm : ∀ r, (Operation.move m).Refuses r) {t : Transaction}
    (h : p.Ensures ((Operation.move m).bounds P) (.inside l t) fun ψ _ => ∃ t, ψ = .inside l t) :
    (do
      let r ← p.observed
      request .leave
      return r : Program Reply).Ensures ((Operation.move m).bounds P) (.inside l t)
        fun ψ r => (Operation.move m).Outcome P (some r) ψ := by
  refine Ensures.bind (Ensures.mono (Ensures.observed h) fun ψ r hr => ?_)
  obtain ⟨t', rfl⟩ := hr
  exact Ensures.bind (ensures_request (asks _) ⟨l, t', rfl, hm (some r)⟩)

theorem ensures_ofLedger {α : Type} {p : LedgerProgram α} {f : α → Reply} {B : Bounds} {l : Ledger}
    (h : Ends B φ p (fun ψ _ => ∃ t, ψ = .inside l t) fun ψ _ => ∃ t, ψ = .inside l t) :
    (Reply.ofLedger f <$> p.run).Ensures B φ fun ψ _ => ∃ t, ψ = .inside l t := by
  refine Ensures.map (Ensures.mono h fun ψ r hr => ?_)
  cases r with
  | ok a => exact hr
  | error e => exact hr

theorem ensures_move {m : Move} :
    (answer (move m)).Ensures ((Operation.move m).bounds P) .outside
      ((Operation.move m).RoundEnd P) := by
  have hfree : ∀ r, (Operation.move m).Refuses r := fun _ => trivial
  refine ensures_answer (Ensures.bind (ensures_request (asks _)
    ⟨rfl, hfree (some .noTransaction), fun l t => ?_⟩))
  cases m with
  | data c =>
    exact ensures_stays hfree (ensures_ofLedger (ends_call (asks _) (fun _ => ⟨t, rfl⟩)
      fun _ t' _ => ⟨t', rfl⟩))
  | adjust id a =>
    exact ensures_stays hfree (ensures_ofLedger (ends_adjust (fun _ => asks _) (fun _ => ⟨t, rfl⟩)
      (fun _ _ => ⟨t, rfl⟩) fun _ _ _ _ => ⟨_, rfl⟩))
  | credit id a =>
    exact ensures_stays hfree (ensures_ofLedger (ends_credit (fun _ => asks _) (fun _ => ⟨t, rfl⟩)
      fun _ _ _ _ => ⟨_, rfl⟩))
  | debit id a =>
    exact ensures_stays hfree (ensures_ofLedger (ends_debit (fun _ => asks _) (fun _ => ⟨t, rfl⟩)
      fun _ _ _ _ => ⟨_, rfl⟩))
  | commit =>
    refine Ensures.bind (Ensures.observed (Ensures.map (ensures_request (asks _) ?_)))
    exact ⟨l, t, rfl, fun _ => trivial, rfl⟩
  | rollback =>
    refine Ensures.bind (Ensures.observed (Ensures.map (ensures_request (asks _) ?_)))
    exact ⟨l, t, rfl, fun _ => trivial⟩
  | drop =>
    exact Ensures.bind (Ensures.observed (Ensures.map (ensures_request (asks _) trivial)))

theorem ensures_start {d : Desk} (hd : P d.engine.odds) (op : Operation) :
    (start d op).1.Ensures (op.bounds P) .outside (op.RoundEnd P) := by
  cases op with
  | seed ext b => exact ensures_seed
  | openAccount ext => exact ensures_openAccount
  | account ext => exact ensures_account
  | deposit ext amount => exact ensures_deposit
  | withdraw ext amount => exact ensures_withdraw
  | settle ext bet c => exact ensures_settleStart hd
  | history ext limit => exact ensures_history
  | engine config => exact trivial
  | balanceOf id =>
    exact ensures_read (.balanceOf id) (fun _ => trivial) fun l => ⟨trivial, fun _ => rfl⟩
  | spinsOf id =>
    exact ensures_read (.spinsOf id) (fun _ => trivial) fun l => ⟨trivial, fun _ => rfl⟩
  | fault p skip times =>
    exact ensures_plain (.fault p skip times) (fun _ => trivial) ⟨trivial, fun _ => rfl⟩
  | clearFaults => exact ensures_plain .clearFaults (fun _ => trivial) ⟨trivial, fun _ => rfl⟩
  | sleep span => exact ensures_plain (.sleep span) (fun _ => trivial) ⟨trivial, fun _ => rfl⟩
  | context name cancellable source timeouts deadlines =>
    exact ensures_makeContext (.context name cancellable source timeouts deadlines) fun _ => trivial
  | checkContext name =>
    exact ensures_plain (.checkContext name) (fun _ => trivial) ⟨trivial, fun _ => rfl⟩
  | awaitContext name => exact ensures_await (.awaitContext name) fun _ => trivial
  | cancel name =>
    simp only [start]
    split
    · exact ensures_cancel (.cancel name) fun _ => trivial
    · exact trivial
  | dropHandle name =>
    simp only [start]
    split
    · exact ensures_plain (.dropHandle name) (fun _ => trivial) ⟨trivial, fun _ => rfl⟩
    · exact trivial
  | retry config attempts c =>
    exact Ensures.map (ensures_retryStart (asks _) fun s => ⟨rfl, fun _ => trivial⟩)
  | begin => exact ensures_beginKept
  | move m => exact ensures_move

theorem ensures_rounds {d : Desk} (hd : P d.engine.odds) {s : Stage} (hs : op.Admits P s) :
    (rounds s d).1.Ensures (op.bounds P) .outside (op.RoundEnd P) := by
  cases s with
  | start op' =>
    cases hs
    exact ensures_start hd op
  | settle s =>
    obtain ⟨hbet, hodds, c, rfl⟩ := hs
    exact ensures_settleAgain hbet hodds
  | retry s => exact ensures_retryRound op hs
  | name name c handle => exact hs _

theorem rounds_engine {d : Desk} (hd : P d.engine.odds) {s : Stage} (hs : op.Admits P s)
    (hop : ∀ c, op = .engine c → P c.odds) : P (rounds s d).2.engine.odds := by
  cases s with
  | settle s => exact hd
  | retry s => exact hd
  | name name c handle => exact hd
  | start op' =>
    cases hs
    cases op with
    | engine c => exact hop c rfl
    | cancel name =>
      simp only [rounds, start]
      split <;> exact hd
    | dropHandle name =>
      simp only [rounds, start]
      split <;> exact hd
    | _ => exact hd

end Session

end WagerLedger
