import WagerLedger.Proofs.Program.Closing

/-! # Failed rollbacks

A program is discreet if nobody but its operator learns whether a rollback has failed: it tells
the failure, with the error for which it rolls back, and goes on as if there had been none. A
rollback is the last that an attempt asks of its transaction, so what it goes on with is to
fail with that error. -/
namespace WagerLedger

def Event.isRollbackFailure (e : Event) : Bool := e.message == "Rollback failed"

/-- No rollback, and no word of one that has failed. -/
def Request.isDiscreet : Request → Bool
  | .rollback => false
  | .emit e => !e.isRollbackFailure
  | _ => true

theorem Request.ne_rollback {r : Request} (h : r.isDiscreet = true) : r ≠ .rollback := by
  rintro rfl
  cases h

theorem Request.unsaid {e : Event} (h : (Request.emit e).isDiscreet = true) :
    e.isRollbackFailure = false := by
  rw [Request.isDiscreet] at h
  exact (Bool.not_eq_true' _).mp h

def Request.Unprobed : (r : Request) → r.Answer → Prop
  | .note _, ps => ps = []
  | _, _ => True

namespace Program

variable {α β ε : Type}

/-- All rollbacks of the program are discreet, and what it goes on with after one that it makes
because of `cause` is one of its `own` ends with that cause. -/
inductive Discreet (own : String → Program α → Prop) (Q : α → Prop) : Program α → Prop
  | done {a : α} (h : Q a) : Discreet own Q (.done a)
  | crash : Discreet own Q .crash
  | ask {r : Request} {k : r.Answer → Program α} (hr : r.isDiscreet = true)
    (hk : ∀ a, r.Unprobed a → Discreet own Q (k a)) : Discreet own Q (.ask r k)
  | rollback {k : Request.rollback.Answer → Program α} (cause : String)
    (hown : own cause (k (.ok ())))
    (herror : ∀ e, k (.error e) = .ask (.emit (.rollbackFailed cause e)) fun _ => k (.ok ()))
    (hk : Discreet own Q (k (.ok ()))) : Discreet own Q (.ask .rollback k)
  | race {c : Context} {r : Request} {k : Except SettlementError r.Answer → Program α}
    (hr : r.isDiscreet = true) (he : ∀ e, Discreet own Q (k (.error e)))
    (hk : ∀ a, r.Unprobed a → Discreet own Q (k (.ok a))) : Discreet own Q (.race c r k)

abbrev Quiet (p : Program α) : Prop := p.Discreet (fun _ _ => False) fun _ => True

variable {own : String → Program α → Prop} {own' : String → Program β → Prop}
  {P : α → Prop} {Q : β → Prop}

theorem Discreet.mono {p : Program α} {own' : String → Program α → Prop} {P' : α → Prop}
    (h : p.Discreet own P) (hown : ∀ cause q, own cause q → own' cause q)
    (hP : ∀ a, P a → P' a) : p.Discreet own' P' := by
  induction h with
  | done h => exact .done (hP _ h)
  | crash => exact .crash
  | ask hr _ ih => exact .ask hr ih
  | rollback cause ho herror _ ih => exact .rollback cause (hown _ _ ho) herror ih
  | race hr _ _ ihe ih => exact .race hr ihe ih

theorem Quiet.discreet {p : Program α} (h : p.Quiet) : p.Discreet own fun _ => True :=
  h.mono (fun _ _ hno => hno.elim) fun _ h => h

theorem Discreet.bind {p : Program α} {f : α → Program β} (h : p.Discreet own P)
    (hown : ∀ cause q, own cause q → own' cause (q >>= f))
    (hf : ∀ a, P a → (f a).Discreet own' Q) : (p >>= f).Discreet own' Q := by
  change (p.bind f).Discreet own' Q
  induction h with
  | done h => exact hf _ h
  | crash => exact .crash
  | ask hr _ ih => exact .ask hr ih
  | @rollback k cause ho herror _ ih =>
    refine .rollback cause (hown cause (k (.ok ())) ho) (fun e => ?_) ih
    rw [herror]
    rfl
  | race hr _ _ ihe ih => exact .race hr ihe ih

theorem Quiet.bind {p : Program α} {f : α → Program β} (h : p.Quiet)
    (hf : ∀ a, (f a).Discreet own' Q) : (p >>= f).Discreet own' Q :=
  Discreet.bind h (fun _ _ hno => hno.elim) fun a _ => hf a

theorem quiet_pure (a : α) : (pure a : Program α).Quiet := .done trivial

theorem quiet_request {r : Request} (hr : r.isDiscreet = true) : (request r).Quiet :=
  .ask hr fun _ _ => .done trivial

theorem Quiet.raced {p : Program (Except SettlementError α)} {c : Context} (h : p.Quiet) :
    (p.raced c).Quiet := by
  induction h with
  | done _ => exact .done trivial
  | crash => exact .crash
  | ask hr _ ih =>
    rw [Program.raced]
    exact .race hr (fun _ => .done trivial) ih
  | rollback _ hno _ _ _ => exact hno.elim
  | race hr _ _ ihe ih =>
    rw [Program.raced]
    exact .race hr ihe ih

theorem Quiet.against {p : Program (Except SettlementError α)} {c : Context} (h : p.Quiet) :
    (p.against c).Quiet :=
  .race rfl (fun _ => .done trivial) fun _ _ => h.raced

/-- Unprobed, a program that is observed asks for what it has asked for, noting its calls. -/
theorem Discreet.observed {p : Program α} {own' : String → Program α → Prop}
    (h : p.Discreet own P) (hown : ∀ cause q, own cause q → own' cause q.observed) :
    p.observed.Discreet own' P := by
  induction h with
  | done h => exact .done h
  | crash => exact .crash
  | @ask r k hr _ ih =>
    rw [Program.observed]
    split
    · refine .ask rfl fun ps hps => ?_
      obtain rfl : ps = [] := hps
      exact .ask hr ih
    · exact .ask hr ih
  | @rollback k cause ho herror _ ih =>
    change Discreet own' P (.ask (.note .rollback) _)
    refine .ask rfl fun ps hps => ?_
    obtain rfl : ps = [] := hps
    refine .rollback cause (hown _ _ ho) (fun e => ?_) ih
    rw [herror]
    rfl
  | @race c r k hr _ _ ihe ih =>
    rw [Program.observed]
    split
    · refine .race rfl ihe fun ps hps => ?_
      obtain rfl : ps = [] := hps
      exact .race hr ihe ih
    · exact .race hr ihe ih

/-- It ends with an error whose message is the cause. -/
def Fails (message : ε → String) (cause : String) (q : Program (Except ε α)) : Prop :=
  ∃ e, message e = cause ∧ q = .done (.error e)

def DiscreetT (message : ε → String) (p : ExceptT ε Program α) : Prop :=
  p.run.Discreet (Fails message) fun _ => True

variable {message : ε → String}

theorem quietT_throw (e : ε) : (throw e : ExceptT ε Program α).run.Quiet := .done trivial

theorem quietT_pure (a : α) : (pure a : ExceptT ε Program α).run.Quiet := .done trivial

theorem quietT_lift {p : Program α} (h : p.Quiet) :
    (ExceptT.lift p : ExceptT ε Program α).run.Quiet :=
  h.bind fun _ => .done trivial

theorem quietT_bind {p : ExceptT ε Program α} {f : α → ExceptT ε Program β} (h : p.run.Quiet)
    (hf : ∀ a, (f a).run.Quiet) : (p >>= f).run.Quiet := by
  refine Quiet.bind h fun r => ?_
  cases r with
  | ok a => exact hf a
  | error e => exact .done trivial

theorem discreetT_bind {p : ExceptT ε Program α} {f : α → ExceptT ε Program β}
    (h : DiscreetT message p) (hf : ∀ a, DiscreetT message (f a)) :
    DiscreetT message (p >>= f) := by
  refine Discreet.bind h ?_ fun r _ => ?_
  · rintro cause q ⟨e, he, rfl⟩
    exact ⟨e, he, rfl⟩
  · cases r with
    | ok a => exact hf a
    | error e => exact .done trivial

theorem discreetT_rollBack (e : ε) :
    DiscreetT message (do ExceptT.lift (rollBack (message e)); throw e : ExceptT ε Program α) :=
  .rollback (message e) ⟨e, rfl, rfl⟩ (fun _ => rfl) (.done trivial)

end Program

namespace LedgerProgram

open Program

theorem quiet_begin : begin.run.Quiet :=
  quietT_bind (quiet_request rfl) fun () => quietT_lift (quiet_request rfl)

theorem quiet_call (c : DataCall) : (call c).run.Quiet := quiet_request rfl

theorem quiet_commit : commit.run.Quiet := quiet_request rfl

theorem quiet_emit {e : Event} (he : e.isRollbackFailure = false) : (emit e).run.Quiet :=
  quietT_lift (quiet_request (by rw [Request.isDiscreet, he]; rfl))

theorem quiet_adjust (id : AccountId) (delta : Decimal) : (adjust id delta).run.Quiet := by
  unfold adjust applyDelta
  split
  · exact quietT_throw _
  · refine quietT_bind (quiet_call _) fun b => ?_
    split
    · exact quietT_throw _
    · split
      · exact quietT_pure _
      · split
        · exact quietT_throw _
        · split
          · exact quietT_throw _
          · exact quietT_bind (quiet_call _) fun _ =>
              quietT_bind (quiet_emit rfl) fun _ => quietT_pure _

theorem quiet_credit (id : AccountId) (amount : Decimal) : (credit id amount).run.Quiet := by
  unfold credit
  split
  · exact quiet_adjust id amount
  · exact quietT_throw _

theorem quiet_debit (id : AccountId) (amount : Decimal) : (debit id amount).run.Quiet := by
  unfold debit
  split
  · exact quiet_adjust id amount.neg
  · exact quietT_throw _

end LedgerProgram

namespace Wallet

open Program LedgerProgram

abbrev Discreet {α : Type} (p : LedgerProgram α) : Prop := DiscreetT LedgerError.message p

theorem discreet_conclude {α : Type} {body : LedgerProgram α} (h : body.run.Quiet) :
    Discreet (conclude body) := by
  refine discreetT_bind (quietT_lift h).discreet fun r => ?_
  cases r with
  | ok a => exact (quietT_bind quiet_commit fun _ => quietT_pure a).discreet
  | error e => exact discreetT_rollBack e

theorem quiet_resolve (ext : Identifier) : (resolve ext).run.Quiet := by
  refine quietT_bind (quiet_call _) fun a => ?_
  cases a with
  | none => exact quietT_throw _
  | some a => exact quietT_pure a

theorem discreet_openAccount (ext : Identifier) : Discreet (openAccount ext) := by
  refine discreetT_bind quiet_begin.discreet fun _ => ?_
  refine discreetT_bind (discreet_conclude (quiet_call _)) fun a => ?_
  exact (quietT_bind (quiet_emit rfl) fun _ => quietT_pure a).discreet

theorem discreet_account (ext : Identifier) : Discreet (account ext) :=
  discreetT_bind quiet_begin.discreet fun _ => discreet_conclude (quiet_resolve ext)

theorem discreet_change (ext : Identifier) (delta : Decimal) : Discreet (change ext delta) :=
  discreetT_bind quiet_begin.discreet fun _ =>
    discreet_conclude (quietT_bind (quiet_resolve ext) fun a => quiet_adjust a.id delta)

theorem discreet_deposit (ext : Identifier) (amount : Decimal) : Discreet (deposit ext amount) := by
  unfold deposit
  split
  · refine discreetT_bind (discreet_change ext amount) fun b => ?_
    exact (quietT_bind (quiet_emit rfl) fun _ => quietT_pure b).discreet
  · exact (quietT_throw _).discreet

theorem discreet_withdraw (ext : Identifier) (amount : Decimal) :
    Discreet (withdraw ext amount) := by
  unfold withdraw
  split
  · refine discreetT_bind (discreet_change ext amount.neg) fun b => ?_
    exact (quietT_bind (quiet_emit rfl) fun _ => quietT_pure b).discreet
  · exact (quietT_throw _).discreet

end Wallet

namespace Settlement

open Program LedgerProgram

abbrev Discreet {α : Type} (p : SpinProgram α) : Prop := DiscreetT SettlementError.message p

variable {α : Type}

theorem quiet_ofLedger {p : LedgerProgram α} (h : p.run.Quiet) (f : LedgerError → SettlementError) :
    (ofLedger p f).run.Quiet :=
  Quiet.bind h fun _ => .done trivial

theorem quiet_resolve (ext : Identifier) : (resolve ext).run.Quiet := by
  refine quietT_bind (quiet_ofLedger (quiet_call _) _) fun a => ?_
  cases a with
  | none => exact quietT_throw _
  | some a => exact quietT_pure a

theorem quiet_payWin (id : AccountId) (win : Decimal) : (payWin id win).run.Quiet := by
  unfold payWin
  split
  · exact quietT_bind (quiet_ofLedger (quiet_credit id win) _) fun _ => quietT_pure ()
  · exact quietT_pure ()

theorem quiet_apply (odds : Odds) (ext : Identifier) (bet : Decimal) :
    (apply odds ext bet).run.Quiet := by
  refine quietT_bind (quiet_resolve ext) fun a => ?_
  refine quietT_bind (quiet_ofLedger (quiet_debit a.id bet) _) fun _ => ?_
  refine quietT_bind (quietT_lift (quiet_request rfl)) fun words => ?_
  refine quietT_bind (quiet_pure _) fun win => ?_
  refine quietT_bind (quiet_payWin a.id win) fun _ => ?_
  refine quietT_bind (quiet_ofLedger (quiet_call _) _) fun spin => ?_
  exact quietT_bind (quietT_lift (quiet_request rfl)) fun _ => quietT_pure spin

theorem discreet_finish (r : Except SettlementError α) : Discreet (finish r) := by
  cases r with
  | ok a => exact (quietT_bind (quiet_ofLedger quiet_commit _) fun _ => quietT_pure a).discreet
  | error e => exact discreetT_rollBack e

theorem quiet_checkContext (c : Context) : (checkContext c).run.Quiet := by
  refine quietT_bind (quietT_lift (quiet_request rfl)) fun e => ?_
  cases e with
  | none => exact quietT_pure ()
  | some e => exact quietT_throw e

theorem quiet_applyChecked (c : Context) (odds : Odds) (ext : Identifier) (bet : Decimal) :
    (applyChecked c odds ext bet).run.Quiet := by
  refine quietT_bind (Quiet.against (quiet_apply odds ext bet)) fun spin => ?_
  exact quietT_bind (quiet_checkContext c) fun _ => quietT_pure spin

theorem discreet_attempt (c : Context) (odds : Odds) (ext : Identifier) (bet : Decimal)
    (n : UInt32) : Discreet (attempt c odds ext bet n) := by
  refine discreetT_bind (quiet_checkContext c).discreet fun _ => ?_
  refine discreetT_bind (Quiet.against (quiet_ofLedger quiet_begin _)).discreet fun _ => ?_
  refine discreetT_bind (quietT_lift (quiet_applyChecked c odds ext bet)).discreet fun r => ?_
  refine discreetT_bind (discreet_finish r) fun spin => ?_
  exact (quietT_bind (quietT_lift (quiet_request rfl)) fun _ => quietT_pure spin).discreet

theorem discreet_history (ext : Identifier) (limit : Int) : Discreet (history ext limit) := by
  refine discreetT_bind (quiet_ofLedger quiet_begin _).discreet fun _ => ?_
  refine discreetT_bind (quietT_lift ?_).discreet fun r => discreet_finish r
  exact quietT_bind (quiet_resolve ext) fun a => quiet_ofLedger (quiet_call _) _

theorem quiet_elapsedSince (started : Nat) : (Retry.elapsedSince started).Quiet :=
  (quiet_request rfl).bind fun _ => quiet_pure _

theorem quiet_pause (c : Context) (delay : Duration) : (Retry.pause c delay).run.Quiet :=
  Quiet.raced (Quiet.bind (quiet_request rfl) fun _ => quiet_pure _)

theorem quiet_afterFailure (c : Context) (s : Retry) (e : SettlementError) :
    (Retry.afterFailure (α := α) c s e).Quiet := by
  refine (quiet_elapsedSince _).bind fun elapsed => ?_
  split
  · exact .crash
  · exact (quiet_elapsedSince _).bind fun _ => (quiet_request rfl).bind fun _ => quiet_pure _
  · refine (quiet_request rfl).bind fun _ => (quiet_pause c _).bind fun r => ?_
    cases r with
    | error e => exact quiet_pure _
    | ok _ =>
      dsimp only
      split
      · exact quiet_pure _
      · exact .crash

theorem quiet_round (c : Context) {op : UInt32 → SpinProgram α} (h : ∀ n, (op n).run.Quiet)
    (s : Retry) : (s.round c op).Quiet := by
  refine (h _).bind fun r => ?_
  cases r with
  | error e =>
    dsimp only
    split
    · exact quiet_afterFailure c s e
    · exact quiet_pure _
  | ok a =>
    dsimp only
    split
    · exact (quiet_elapsedSince _).bind fun _ => (quiet_request rfl).bind fun _ => quiet_pure _
    · exact quiet_pure _

theorem quiet_report (s : Settlement) (r : Except SettlementError Spin) : (s.report r).Quiet := by
  refine (quiet_elapsedSince _).bind fun elapsed => ?_
  have htold (spin : Spin) : (Request.emit (.settled spin elapsed)).isDiscreet = true := by
    rw [Request.isDiscreet, Event.isRollbackFailure, Event.settled]
    split <;> rfl
  cases r with
  | error e => exact quiet_request (r := .emit _) rfl
  | ok spin => exact quiet_request (htold spin)

theorem quiet_close (s : Settlement) (r : Retry ⊕ Except SettlementError Spin) :
    (s.close r).Quiet := by
  cases r with
  | inl retry => exact quiet_pure _
  | inr r => exact (quiet_report s r).bind fun _ => quiet_pure _

theorem discreet_tries (s : Settlement) :
    s.tries.Discreet (Fails SettlementError.message) fun _ => True := by
  refine (discreet_attempt _ _ _ _ _).observed ?_
  rintro cause q ⟨e, he, rfl⟩
  exact ⟨e, he, rfl⟩

end Settlement

end WagerLedger
