import WagerLedger.Proofs.Program.Discreet

/-! # What an attempt tells

A settlement tells its operator when it is attempted again, and how it has ended. All that is
told before it has started and inside of its attempts is told for debugging only, but for the
rollbacks that have failed. -/
namespace WagerLedger

/-- Told for debugging, or of a rollback that has failed. -/
def Event.isMinor (e : Event) : Bool := e.level == .debug || e.isRollbackFailure

def Request.isMurmur : Request → Bool
  | .emit e => e.isMinor
  | _ => true

namespace Program

variable {α β ε : Type}

/-- All events that the program tells are minor, whatever the answers. -/
def Murmurs : Program α → Prop
  | done _ | crash => True
  | ask r k => r.isMurmur = true ∧ ∀ a, (k a).Murmurs
  | race _ r k => r.isMurmur = true ∧ ∀ a, (k a).Murmurs

theorem murmurs_bind {p : Program α} {f : α → Program β} (hp : p.Murmurs)
    (hf : ∀ a, (f a).Murmurs) : (p >>= f).Murmurs := by
  change (p.bind f).Murmurs
  induction p with
  | done a => exact hf a
  | crash => trivial
  | ask r k ih => exact ⟨hp.1, fun a => ih a (hp.2 a)⟩
  | race c r k ih => exact ⟨hp.1, fun a => ih a (hp.2 a)⟩

theorem murmurs_request {r : Request} (h : r.isMurmur = true) : (request r).Murmurs :=
  ⟨h, fun _ => trivial⟩

theorem murmurs_raced {p : Program (Except SettlementError α)} {c : Context}
    (h : p.Murmurs) : (p.raced c).Murmurs := by
  induction p with
  | done a => trivial
  | crash => trivial
  | ask r k ih =>
    rw [raced]
    refine ⟨h.1, fun a => ?_⟩
    cases a with
    | ok a => exact ih a (h.2 a)
    | error e => trivial
  | race c' r k ih =>
    rw [raced]
    exact ⟨h.1, fun a => ih a (h.2 a)⟩

theorem murmurs_against {p : Program (Except SettlementError α)} {c : Context}
    (h : p.Murmurs) : (p.against c).Murmurs := by
  refine ⟨rfl, fun a => ?_⟩
  cases a with
  | ok _ => exact murmurs_raced h
  | error e => trivial

theorem murmurs_heldUp {call : StoreCall} {wait : Duration → Program α → Program α}
    {refuse : LedgerError → Program α} {go : Program α}
    (hwait : ∀ d p, p.Murmurs → (wait d p).Murmurs) (hrefuse : ∀ e, (refuse e).Murmurs)
    (hgo : go.Murmurs) (ps : List Probe) : (heldUp call wait refuse go ps).Murmurs := by
  induction ps with
  | nil => exact hgo
  | cons p ps ih =>
    have hrefused : ∀ e, (if call.isLast then ask .discard fun _ => refuse e
        else refuse e).Murmurs := by
      intro e
      split
      · exact ⟨rfl, fun _ => hrefuse _⟩
      · exact hrefuse _
    rw [heldUp]
    cases p.refusal with
    | none =>
      cases p.delay with
      | none => exact ih
      | some d => exact hwait d _ ih
    | some e =>
      cases p.delay with
      | none => exact hrefused e
      | some d => exact hwait d _ (hrefused e)

/-- What observers are told of is no event. -/
theorem Murmurs.observed {p : Program α} (h : p.Murmurs) : p.observed.Murmurs := by
  induction p with
  | done a => trivial
  | crash => trivial
  | ask r k ih =>
    have hk : ∀ a, ((k a).observed).Murmurs := fun a => ih a (h.2 a)
    have hgo : (ask r fun a => (k a).observed).Murmurs := ⟨h.1, hk⟩
    rw [Program.observed]
    split
    · refine ⟨rfl, fun ps => murmurs_heldUp ?_ (fun e => hk _) hgo ps⟩
      exact fun d p hp => ⟨rfl, fun _ => hp⟩
    · exact hgo
  | race c r k ih =>
    have hk : ∀ a, ((k a).observed).Murmurs := fun a => ih a (h.2 a)
    have hgo : (race c r fun a => (k a).observed).Murmurs := ⟨h.1, hk⟩
    rw [Program.observed]
    split
    · refine ⟨rfl, fun a => ?_⟩
      cases a with
      | error e => exact hk _
      | ok ps =>
        refine murmurs_heldUp ?_ (fun e => hk _) hgo ps
        refine fun d p hp => ⟨rfl, fun a => ?_⟩
        cases a with
        | ok _ => exact hp
        | error e => exact hk _
    · exact hgo

theorem murmursE_bind {p : ExceptT ε Program α} {f : α → ExceptT ε Program β}
    (hp : p.run.Murmurs) (hf : ∀ a, (f a).run.Murmurs) : (p >>= f).run.Murmurs := by
  refine murmurs_bind hp fun r => ?_
  cases r with
  | ok a => exact hf a
  | error e => trivial

theorem murmursE_lift {p : Program α} (h : p.Murmurs) :
    (ExceptT.lift p : ExceptT ε Program α).run.Murmurs :=
  murmurs_bind h fun _ => trivial

theorem murmurs_rollBack (cause : String) : (rollBack cause).Murmurs := by
  refine murmurs_bind (murmurs_request rfl) fun r => ?_
  cases r with
  | ok _ => trivial
  | error e => exact murmurs_request (r := .emit (.rollbackFailed cause e)) rfl

theorem murmurs_elapsedSince (started : Nat) : (Retry.elapsedSince started).Murmurs :=
  murmurs_bind (murmurs_request rfl) fun _ => trivial

theorem murmurs_pause (c : Context) (delay : Duration) : (Retry.pause c delay).run.Murmurs :=
  murmurs_raced (murmurs_bind (murmurs_request rfl) fun _ => trivial)

end Program

namespace LedgerProgram

open Program

theorem murmurs_adjust (id : AccountId) (delta : Decimal) : (adjust id delta).run.Murmurs := by
  unfold adjust applyDelta
  split
  · trivial
  refine murmursE_bind (murmurs_request rfl) fun b => ?_
  split
  · trivial
  split
  · trivial
  split
  · trivial
  split
  · trivial
  · refine murmursE_bind (murmurs_request rfl) fun _ => murmursE_bind ?_ fun _ => trivial
    exact murmursE_lift (murmurs_request rfl)

theorem murmurs_credit (id : AccountId) (amount : Decimal) : (credit id amount).run.Murmurs := by
  unfold credit
  split
  · exact murmurs_adjust id amount
  · trivial

theorem murmurs_debit (id : AccountId) (amount : Decimal) : (debit id amount).run.Murmurs := by
  unfold debit
  split
  · exact murmurs_adjust id amount.neg
  · trivial

end LedgerProgram

namespace Settlement

open Program LedgerProgram

variable {α : Type}

theorem murmurs_ofLedger {p : LedgerProgram α} {f : LedgerError → SettlementError}
    (h : p.run.Murmurs) : (ofLedger p f).run.Murmurs :=
  murmurs_bind h fun _ => trivial

theorem murmurs_payWin (id : AccountId) (win : Decimal) : (payWin id win).run.Murmurs := by
  unfold payWin
  split
  · exact murmursE_bind (murmurs_ofLedger (murmurs_credit id win)) fun _ => trivial
  · trivial

theorem murmurs_apply (odds : Odds) (ext : Identifier) (bet : Decimal) :
    (apply odds ext bet).run.Murmurs := by
  have hcall : ∀ (d : DataCall) (f : LedgerError → SettlementError),
      (ofLedger (call d) f).run.Murmurs := fun d f => murmurs_ofLedger (murmurs_request rfl)
  refine murmursE_bind (murmursE_bind (hcall _ _) fun a => by cases a <;> trivial) fun a => ?_
  refine murmursE_bind (murmurs_ofLedger (murmurs_debit a.id bet)) fun _ => ?_
  refine murmursE_bind (murmursE_lift (murmurs_request rfl)) fun words => ?_
  refine murmursE_bind trivial fun win => ?_
  refine murmursE_bind (murmurs_payWin a.id win) fun _ => ?_
  refine murmursE_bind (hcall _ _) fun spin => ?_
  exact murmursE_bind (murmursE_lift (murmurs_request rfl)) fun _ => trivial

theorem murmurs_finish (r : Except SettlementError α) : (finish r).run.Murmurs := by
  cases r with
  | ok a => exact murmursE_bind (murmurs_ofLedger (murmurs_request rfl)) fun _ => trivial
  | error e => exact murmursE_bind (murmursE_lift (murmurs_rollBack _)) fun _ => trivial

theorem murmurs_checkContext (c : Context) : (checkContext c).run.Murmurs :=
  murmursE_bind (murmursE_lift (murmurs_request rfl)) fun a => by cases a <;> trivial

theorem murmurs_attempt (c : Context) (odds : Odds) (ext : Identifier) (bet : Decimal)
    (n : UInt32) : (attempt c odds ext bet n).run.Murmurs := by
  have hbegin : begin.run.Murmurs :=
    murmursE_bind (murmurs_request rfl) fun _ => murmursE_lift (murmurs_request rfl)
  have happly : (applyChecked c odds ext bet).run.Murmurs :=
    murmursE_bind (murmurs_against (murmurs_apply odds ext bet)) fun spin =>
      murmursE_bind (murmurs_checkContext c) fun _ => trivial
  refine murmursE_bind (murmurs_checkContext c) fun _ => ?_
  refine murmursE_bind (murmurs_against (murmurs_ofLedger hbegin)) fun _ => ?_
  refine murmursE_bind (murmursE_lift happly) fun r => ?_
  refine murmursE_bind (murmurs_finish r) fun spin => ?_
  exact murmursE_bind (murmursE_lift (murmurs_request rfl)) fun _ => trivial

theorem murmurs_tries (s : Settlement) : s.tries.Murmurs :=
  Murmurs.observed (murmurs_attempt s.context s.odds s.externalId s.bet s.retry.attempt)

theorem murmurs_start (config : Settings) (c : Context) (ext : Identifier) (bet : Decimal) :
    (start config c ext bet).Murmurs := by
  unfold start
  split
  · refine murmurs_bind (murmurs_request rfl) fun started => murmurs_bind ?_ fun _ => trivial
    refine murmurs_bind (murmurs_request rfl) fun _ => ?_
    exact murmurs_bind (murmurs_request rfl) fun _ => trivial
  · trivial

end Settlement

end WagerLedger
