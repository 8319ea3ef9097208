import WagerLedger.Proofs.Program.Discreet
import WagerLedger.Proofs.Session.Beats

/-! # Sessions with discreet rollbacks

All that a session does rolls back discreetly, but for the rollbacks of a kept transaction: of
those the caller gets to know himself. After a rollback the attempt has failed with the error
that was the cause, and this is the answer, or a settlement goes on from it. -/
namespace WagerLedger

open Program

/-- What is left of a call after an attempt that has failed because of `cause`: to answer with
that error, or to go on as after any attempt with it. -/
inductive Abandoned (cause : String) : Program (Stage ⊕ Reply) → Prop
  | ledger {e : LedgerError} (h : e.message = cause) : Abandoned cause (.done (.inr (.ledgerError e)))
  | settlement {e : SettlementError} (h : e.message = cause) :
    Abandoned cause (.done (.inr (.settlementError e)))
  | attempt (s : Settlement) {e : SettlementError} (h : e.message = cause) :
    Abandoned cause (s.rest (.error e))

theorem Abandoned.silent {cause : String} {q : Program (Stage ⊕ Reply)} (h : Abandoned cause q) :
    q.silent = q := by
  cases h with
  | ledger _ => rfl
  | settlement _ => rfl
  | @attempt s e _ =>
    have hrest : s.rest (.error e) = (if e.isRecoverable = true
        then Retry.afterFailure s.context s.retry e
        else pure (.inr (.error e))) >>= s.close >>= Session.settleRound := rfl
    rw [hrest]
    split <;> rfl

def Stage.Managed (st : Stage) : Prop := st ≠ .start (.move .rollback)

def Managed : Stage ⊕ Reply → Prop
  | .inl st => st.Managed
  | .inr _ => True

abbrev Session.Discreet (p : Session.RoundProgram) : Prop := p.Discreet Abandoned Managed

namespace Session

variable {α : Type}

theorem discreet_reply (r : Reply) : Discreet (pure (.inr r)) := .done trivial

theorem discreet_answer {p : Program Reply} (h : p.Quiet) : Discreet (answer p) :=
  h.bind discreet_reply

theorem quiet_locked {r : Request} (hr : r.isDiscreet = true) (f : r.Answer → α) :
    (locked r f).Quiet :=
  (quiet_request rfl).bind fun _ => (quiet_request hr).bind fun _ =>
    (quiet_request rfl).bind fun _ => quiet_pure _

theorem discreet_wallet {p : LedgerProgram α} (h : Wallet.Discreet p) (f : α → Reply) :
    Discreet (wallet p f) := by
  have hobserved : p.run.observed.Discreet (Fails LedgerError.message) fun _ => True := by
    refine h.observed ?_
    rintro cause q ⟨e, he, rfl⟩
    exact ⟨e, he, rfl⟩
  change (p.run.observed >>= _ >>= _).Discreet Abandoned Managed
  rw [bind_assoc]
  refine hobserved.bind ?_ fun r _ => .done trivial
  rintro cause q ⟨e, he, rfl⟩
  exact .ledger he

theorem discreet_history (ext : Identifier) (limit : Int) :
    Discreet (answer (Reply.ofSpin .spins <$> (Settlement.history ext limit).run.observed)) := by
  have hobserved : (Settlement.history ext limit).run.observed.Discreet
      (Fails SettlementError.message) fun _ => True := by
    refine (Settlement.discreet_history ext limit).observed ?_
    rintro cause q ⟨e, he, rfl⟩
    exact ⟨e, he, rfl⟩
  change ((Settlement.history ext limit).run.observed >>= _ >>= _).Discreet Abandoned Managed
  rw [bind_assoc]
  refine hobserved.bind ?_ fun r _ => .done trivial
  rintro cause q ⟨e, he, rfl⟩
  exact .settlement he

theorem discreet_settleRound (r : Settlement ⊕ Except SettlementError Spin) :
    Discreet (settleRound r) := by
  rcases r with s | e | spin
  · exact .done nofun
  · exact discreet_reply _
  · refine discreet_answer ?_
    rw [settled]
    cases spin.net? with
    | none => exact .crash
    | some net => exact quiet_pure _

theorem discreet_settle (s : Settlement) : Discreet (s.round.observed >>= settleRound) := by
  rw [Program.round_eq]
  refine (Settlement.discreet_tries s).bind ?_ fun r _ => ?_
  · rintro cause q ⟨e, he, rfl⟩
    exact .attempt s he
  · change (_ >>= s.close >>= settleRound).Discreet Abandoned Managed
    rw [bind_assoc]
    refine (Settlement.quiet_round s.context (fun _ => ?_) s.retry).bind fun r =>
      (Settlement.quiet_close s r).bind discreet_settleRound
    exact quiet_pure r

theorem managed_name (name : String) (c : Context) (handle : Option SignalId) :
    (Stage.name name c handle).Managed := by
  intro heq
  cases heq

theorem discreet_named (now : Instant) (name : String) (timeouts deadlines : List Duration)
    (c : Context) (handle : Option SignalId) :
    Discreet (match addDeadlines now timeouts deadlines c with
      | some c => pure (.inl (.name name c handle))
      | none => .crash) := by
  split
  · exact .done (managed_name _ _ _)
  · exact .crash

theorem discreet_makeContext (d : Desk) (name : String) (cancellable : Bool)
    (source : Option String) (timeouts deadlines : List Duration) :
    Discreet (makeContext d name cancellable source timeouts deadlines) := by
  refine (quiet_request rfl).bind fun clock => ?_
  cases source with
  | some n => exact discreet_named _ _ _ _ _ _
  | none =>
    dsimp only
    split
    · exact (quiet_request rfl).bind fun s => discreet_named _ _ _ _ _ _
    · exact discreet_named _ _ _ _ _ _

theorem quiet_cancel (s : SignalId) : (cancel s).Quiet :=
  (quiet_request rfl).bind fun _ => (quiet_request rfl).bind fun _ =>
    (quiet_request rfl).bind fun _ => quiet_pure _

theorem quiet_await (c : Context) : (await c).Quiet := by
  refine Quiet.bind (Quiet.raced (Quiet.bind (quiet_request rfl) fun a => nomatch a)) fun r => ?_
  cases r with
  | error e => exact quiet_pure _
  | ok _ => exact quiet_pure _

theorem discreet_beginKept : Discreet beginKept := by
  have hbegin : LedgerProgram.begin.run.observed.Quiet :=
    LedgerProgram.quiet_begin.observed fun _ _ hno => hno
  refine hbegin.bind fun r => ?_
  cases r with
  | error e => exact discreet_reply _
  | ok _ => exact (quiet_request rfl).bind fun _ => discreet_reply _

theorem quiet_moveBody {m : Move} (hm : m ≠ .rollback) : (moveBody m).1.Quiet := by
  have hreply {β : Type} {p : LedgerProgram β} (h : p.run.Quiet) (f : β → Reply) :
      (Reply.ofLedger f <$> p.run : Program Reply).Quiet :=
    h.bind fun _ => quiet_pure _
  cases m
  case rollback => exact (hm rfl).elim
  case data c => exact hreply (LedgerProgram.quiet_call c) _
  case adjust id a => exact hreply (LedgerProgram.quiet_adjust id a) _
  case credit id a => exact hreply (LedgerProgram.quiet_credit id a) _
  case debit id a => exact hreply (LedgerProgram.quiet_debit id a) _
  case commit => exact hreply LedgerProgram.quiet_commit _
  case drop => exact (quiet_request rfl).bind fun _ => quiet_pure _

theorem quiet_move {m : Move} (hm : m ≠ .rollback) : (move m).Quiet := by
  have hbody : (moveBody m).1.observed.Quiet := (quiet_moveBody hm).observed fun _ _ hno => hno
  rw [move]
  generalize moveBody m = x at hbody ⊢
  obtain ⟨body, stays⟩ := x
  refine (quiet_request rfl).bind fun taken => ?_
  cases taken with
  | false => exact quiet_pure _
  | true =>
    refine Quiet.bind hbody fun r => ?_
    cases stays with
    | false => exact quiet_pure r
    | true => exact (quiet_request rfl).bind fun _ => quiet_pure r

theorem discreet_retryRound (s : ScriptedRetry) : Discreet (retryRound s) := by
  refine (quiet_request rfl).bind fun clock => ?_
  refine (Settlement.quiet_round s.context (fun n => ?_) s.retry).bind fun r => ?_
  · unfold scripted
    split
    · exact .crash
    · exact quietT_bind (quietT_lift (quiet_request rfl)) fun _ => quiet_pure _
  · cases r with
    | inl retry => exact .done nofun
    | inr r => exact discreet_reply _

theorem discreet_start (d : Desk) {op : Operation} (hop : op ≠ .move .rollback) :
    Discreet (start d op).1 := by
  cases op
  case seed ext b => exact discreet_answer (quiet_locked rfl _)
  case openAccount ext => exact discreet_wallet (Wallet.discreet_openAccount ext) _
  case account ext => exact discreet_wallet (Wallet.discreet_account ext) _
  case deposit ext a => exact discreet_wallet (Wallet.discreet_deposit ext a) _
  case withdraw ext a => exact discreet_wallet (Wallet.discreet_withdraw ext a) _
  case settle ext bet ctx =>
    refine Quiet.bind ?_ discreet_settleRound
    unfold Settlement.start
    split
    · exact (quiet_request rfl).bind fun _ => Quiet.bind
        ((quiet_request rfl).bind fun _ => (quiet_request rfl).bind fun _ => quiet_pure _)
        fun _ => quiet_pure _
    · exact quiet_pure _
  case history ext limit => exact discreet_history ext limit
  case engine config => exact discreet_reply _
  case balanceOf id => exact discreet_answer (quiet_locked rfl _)
  case spinsOf id => exact discreet_answer (quiet_locked rfl _)
  case fault p skip times =>
    exact discreet_answer ((quiet_request rfl).bind fun _ => quiet_pure _)
  case clearFaults => exact discreet_answer ((quiet_request rfl).bind fun _ => quiet_pure _)
  case sleep span => exact discreet_answer ((quiet_request rfl).bind fun _ => quiet_pure _)
  case context name cancellable source timeouts deadlines =>
    exact discreet_makeContext d name cancellable source timeouts deadlines
  case checkContext name =>
    exact discreet_answer ((quiet_request rfl).bind fun _ => quiet_pure _)
  case awaitContext name => exact discreet_answer (quiet_await _)
  case cancel name =>
    rw [start]
    cases d.handles.get? name with
    | some s => exact discreet_answer (quiet_cancel s)
    | none => exact discreet_reply _
  case dropHandle name =>
    rw [start]
    cases d.handles.get? name with
    | some s => exact discreet_answer ((quiet_request rfl).bind fun _ => quiet_pure _)
    | none => exact discreet_reply _
  case retry config attempts ctx =>
    have hmanaged : ∀ r : ScriptedRetry, (Stage.retry r).Managed := fun r heq => by cases heq
    refine Quiet.bind ?_ fun r => .done (hmanaged _)
    exact (quiet_request rfl).bind fun _ => (quiet_request rfl).bind fun _ => quiet_pure _
  case begin => exact discreet_beginKept
  case move m => exact discreet_answer (quiet_move fun hm => hop (congrArg _ hm))

theorem discreet_rounds (d : Desk) {st : Stage} (hst : st.Managed) :
    Discreet (rounds st d).1 := by
  cases st with
  | start op => exact discreet_start d fun hop => hst (congrArg _ hop)
  | settle s => exact discreet_settle s
  | retry s => exact discreet_retryRound s
  | name name c handle => exact discreet_reply _

end Session

end WagerLedger
