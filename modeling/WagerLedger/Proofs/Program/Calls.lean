import WagerLedger.Proofs.Decimal.Value
import WagerLedger.Proofs.Ledger.Change
import WagerLedger.Proofs.Ledger.Store
import WagerLedger.Proofs.Program.Ensures
import WagerLedger.Wallet

/-! # What the programs of the wallet ensure

One rule for each program over a ledger, in the form of its callers: what has to hold of its
results for it to end as they want. A failed call leaves the open transaction as it was, and a
transaction ends in a change of the ledger or without a trace. -/
namespace WagerLedger

namespace Program

open LedgerProgram

/-- Run from a phase, the program ends as `ok` says if it ends well, and as `err` says if it
ends with an error. -/
def Ends {ε α : Type} (B : Bounds) (φ : Phase) (p : ExceptT ε Program α)
    (ok : Phase → α → Prop) (err : Phase → ε → Prop) : Prop :=
  p.run.Ensures B φ fun ψ r =>
    match r with
    | .ok a => ok ψ a
    | .error e => err ψ e

variable {ε α β : Type} {B : Bounds} {φ : Phase}

theorem ends_pure {a : α} {ok : Phase → α → Prop} {err : Phase → ε → Prop} (h : ok φ a) :
    Ends B φ (pure a) ok err := h

theorem ends_throw {e : ε} {ok : Phase → α → Prop} {err : Phase → ε → Prop} (h : err φ e) :
    Ends B φ (throw e) ok err := h

theorem ends_bind {p : ExceptT ε Program α} {f : α → ExceptT ε Program β}
    {ok : Phase → β → Prop} {err : Phase → ε → Prop}
    (h : Ends B φ p (fun ψ a => Ends B ψ (f a) ok err) err) : Ends B φ (p >>= f) ok err := by
  refine Ensures.bind (Ensures.mono h fun ψ r hr => ?_)
  cases r with
  | ok a => exact hr
  | error e => exact hr

theorem ends_lift {p : Program α} {ok : Phase → α → Prop} {err : Phase → ε → Prop}
    (h : p.Ensures B φ ok) : Ends B φ (ExceptT.lift p) ok err :=
  Ensures.map h

section Calls

variable {l : Ledger} {t : Transaction} {err : Phase → LedgerError → Prop}

theorem ends_call {c : DataCall} {ok : Phase → c.Answer → Prop} (hB : B.asks (.inside l t))
    (herr : ∀ e, err (.inside l t) e)
    (hok : ∀ a t', c.run l t = (.ok a, t') → ok (.inside l t') a) :
    Ends B (.inside l t) (call c) ok err := by
  refine ensures_request hB ⟨l, t, rfl, herr, ?_⟩
  cases hr : (c.run l t).1 with
  | ok a => exact hok a _ (Prod.ext hr rfl)
  | error e =>
    rw [DataCall.run_of_error hr]
    exact herr e

theorem ends_emit {e : Event} {ok : Phase → Unit → Prop} (hB : B.asks φ) (h : ok φ ()) :
    Ends B φ (emit e) ok err :=
  ends_lift (ensures_emit hB h)

theorem ends_begin {ok : Phase → Unit → Prop} (hB : B.asks .outside)
    (herr : ∀ e, err .outside e) (hok : ∀ l, ok (.inside l .empty) ()) :
    Ends B .outside begin ok err := by
  refine ends_bind (ensures_request hB ⟨rfl, fun a => ?_⟩)
  cases a with
  | ok _ => exact ends_lift (ensures_request hB ⟨rfl, hok⟩)
  | error e => exact herr e

theorem ends_commit {ok : Phase → Unit → Prop} (hB : B.asks (.inside l t))
    (herr : ∀ e, err .outside e) (hok : ok (.past l (t.apply l)) ()) :
    Ends B (.inside l t) commit ok err :=
  ensures_request hB ⟨l, t, rfl, herr, hok⟩

theorem ensures_rollBack {cause : String} {Q : Phase → Unit → Prop} (hB : ∀ ψ, B.asks ψ)
    (h : Q .outside ()) : (rollBack cause).Ensures B (.inside l t) Q := by
  refine Ensures.bind (ensures_request (hB _) ⟨l, t, rfl, fun a => ?_⟩)
  cases a with
  | ok _ => exact h
  | error e => exact ensures_emit (hB _) h

theorem ends_applyDelta {id : AccountId} {delta before : Decimal} {ok : Phase → Decimal → Prop}
    (hB : ∀ t, B.asks (.inside l t)) (herr : ∀ e, err (.inside l t) e)
    (hfits : delta.fitsLedger = true) (hb : t.balance? l id = some before)
    (hok : ∀ after, Adjusts delta before after → ok (.inside l (t.put id after)) after) :
    Ends B (.inside l t) (applyDelta id delta before) ok err := by
  unfold applyDelta
  split
  · exact ends_throw (herr _)
  · rename_i after hsum
    split
    · exact ends_throw (herr _)
    · rename_i hneg
      have hadj : Adjusts delta before after := ⟨hfits, hsum, fun hd => by simpa [hd] using hneg⟩
      refine ends_bind (ends_call (hB t) herr fun _ t' hr => ?_)
      rw [DataCall.run, Transaction.writeBalance_eq hb] at hr
      cases hr
      exact ends_bind (ends_emit (hB _) (ends_pure (hok after hadj)))

theorem ends_adjust {id : AccountId} {delta : Decimal} {ok : Phase → Decimal → Prop}
    (hB : ∀ t, B.asks (.inside l t)) (herr : ∀ e, err (.inside l t) e)
    (hsame : delta.isZero = true → ∀ b, ok (.inside l t) b)
    (hput : ∀ before after, t.balance? l id = some before → Adjusts delta before after →
      ok (.inside l (t.put id after)) after) :
    Ends B (.inside l t) (adjust id delta) ok err := by
  unfold adjust
  split
  · exact ends_throw (herr _)
  · rename_i hfits
    refine ends_bind (ends_call (hB t) herr fun b t' hr => ?_)
    cases hr
    split
    · exact ends_throw (herr _)
    · rename_i before hb
      split
      · rename_i hzero
        exact ends_pure (hsame hzero before)
      · exact ends_applyDelta hB herr (by simpa using hfits) hb fun after => hput before after hb

theorem ends_credit {id : AccountId} {amount : Decimal} {ok : Phase → Decimal → Prop}
    (hB : ∀ t, B.asks (.inside l t)) (herr : ∀ e, err (.inside l t) e)
    (hput : ∀ before after, t.balance? l id = some before → Adjusts amount before after →
      ok (.inside l (t.put id after)) after) :
    Ends B (.inside l t) (credit id amount) ok err := by
  unfold credit
  split
  · rename_i hpos
    refine ends_adjust hB herr (fun hz => ?_) hput
    rw [Decimal.isZero_of_isPositive hpos] at hz
    cases hz
  · exact ends_throw (herr _)

theorem ends_debit {id : AccountId} {amount : Decimal} {ok : Phase → Decimal → Prop}
    (hB : ∀ t, B.asks (.inside l t)) (herr : ∀ e, err (.inside l t) e)
    (hput : ∀ before after, t.balance? l id = some before → Adjusts amount.neg before after →
      ok (.inside l (t.put id after)) after) :
    Ends B (.inside l t) (debit id amount) ok err := by
  unfold debit
  split
  · rename_i hpos
    refine ends_adjust hB herr (fun hz => ?_) hput
    rw [Decimal.isZero_neg, Decimal.isZero_of_isPositive hpos] at hz
    cases hz
  · exact ends_throw (herr _)

end Calls

open Wallet

section Wallet

variable {l : Ledger} {t : Transaction} {err : Phase → LedgerError → Prop}

theorem ends_resolve {ext : Identifier} {ok : Phase → Account → Prop}
    (hB : B.asks (.inside l t)) (herr : ∀ e, err (.inside l t) e)
    (hok : ∀ a, t.find? l ext = some a → ok (.inside l t) a) :
    Ends B (.inside l t) (resolve ext) ok err := by
  refine ends_bind (ends_call hB herr fun b t' hr => ?_)
  cases hr
  split
  · rename_i a ha
    exact ends_pure (hok a ha)
  · exact ends_throw (herr _)

theorem ends_conclude {body : LedgerProgram α} {ok : Phase → α → Prop} (hB : ∀ ψ, B.asks ψ)
    (herr : ∀ e, err .outside e)
    (h : Ends B φ body (fun ψ a => ∃ l t, ψ = .inside l t ∧ ok (.past l (t.apply l)) a)
      fun ψ _ => ∃ l t, ψ = .inside l t) :
    Ends B φ (conclude body) ok err := by
  refine ends_bind (ends_lift (Ensures.mono h fun ψ r hr => ?_))
  cases r with
  | ok a =>
    obtain ⟨l, t, rfl, ha⟩ := hr
    exact ends_bind (ends_commit (hB _) herr (ends_pure ha))
  | error e =>
    obtain ⟨l, t, rfl⟩ := hr
    exact ends_bind (ends_lift (ensures_rollBack hB (ends_throw (herr e))))

theorem ends_change {ext : Identifier} {delta : Decimal} {ok : Phase → Decimal → Prop}
    (hB : ∀ ψ, B.asks ψ) (herr : ∀ e, err .outside e) (hz : delta.isZero = false)
    (hok : ∀ l l' before after, l.Moves ext delta before after l' → ok (.past l l') after) :
    Ends B .outside (change ext delta) ok err := by
  refine ends_bind (ends_begin (hB _) herr fun l => ends_conclude hB herr ?_)
  refine ends_bind (ends_resolve (hB _) (fun _ => ⟨l, _, rfl⟩) fun a ha => ?_)
  rw [Transaction.find?_empty] at ha
  refine ends_adjust (fun _ => hB _) (fun _ => ⟨l, _, rfl⟩) (fun h => ?_) ?_
  · rw [hz] at h
    cases h
  · intro before after hb hadj
    rw [Transaction.balance?_empty] at hb
    exact ⟨l, _, rfl, hok _ _ _ _ ⟨⟨a, ha, hb, rfl⟩, hadj⟩⟩

theorem ends_deposit {ext : Identifier} {amount : Decimal} {ok : Phase → Decimal → Prop}
    (hB : ∀ ψ, B.asks ψ) (herr : ∀ e, err .outside e)
    (hok : amount.isPositive = true → ∀ l l' before after,
      l.Moves ext amount before after l' → ok (.past l l') after) :
    Ends B .outside (deposit ext amount) ok err := by
  unfold deposit
  split
  · rename_i hpos
    refine ends_bind (ends_change hB herr (Decimal.isZero_of_isPositive hpos) ?_)
    intro l l' before after hm
    exact ends_bind (ends_emit (hB _) (ends_pure (hok hpos l l' before after hm)))
  · exact ends_throw (herr _)

theorem ends_withdraw {ext : Identifier} {amount : Decimal} {ok : Phase → Decimal → Prop}
    (hB : ∀ ψ, B.asks ψ) (herr : ∀ e, err .outside e)
    (hok : amount.isPositive = true → ∀ l l' before after,
      l.Moves ext amount.neg before after l' → ok (.past l l') after) :
    Ends B .outside (withdraw ext amount) ok err := by
  unfold withdraw
  split
  · rename_i hpos
    have hz : amount.neg.isZero = false := by
      rw [Decimal.isZero_neg, Decimal.isZero_of_isPositive hpos]
    refine ends_bind (ends_change hB herr hz ?_)
    intro l l' before after hm
    exact ends_bind (ends_emit (hB _) (ends_pure (hok hpos l l' before after hm)))
  · exact ends_throw (herr _)

theorem ends_openAccount {ext : Identifier} {ok : Phase → Account → Prop}
    (hB : ∀ ψ, B.asks ψ) (herr : ∀ e, err .outside e)
    (hok : ∀ l l' a, l.seed ext .zero = (.ok a, l') → ok (.past l l') a) :
    Ends B .outside (openAccount ext) ok err := by
  refine ends_bind (ends_begin (hB _) herr fun l => ?_)
  refine ends_bind (ends_conclude hB herr (ends_call (hB _) (fun _ => ⟨l, _, rfl⟩) ?_))
  intro a t' hr
  obtain ⟨ha, hl⟩ := Transaction.insert_empty l ext
  have hr' : Transaction.empty.insert l ext = (.ok a, t') := hr
  rw [hr'] at ha hl
  exact ⟨l, t', rfl, ends_bind (ends_emit (hB _) (ends_pure
    (hok l (t'.apply l) a (Prod.ext ha.symm hl.symm))))⟩

theorem ends_account {ext : Identifier} {ok : Phase → Account → Prop}
    (hB : ∀ ψ, B.asks ψ) (herr : ∀ e, err .outside e)
    (hok : ∀ l a, l.find? ext = some a → ok (.past l l) a) :
    Ends B .outside (account ext) ok err := by
  refine ends_bind (ends_begin (hB _) herr fun l => ends_conclude hB herr ?_)
  refine ends_resolve (hB _) (fun _ => ⟨l, _, rfl⟩) fun a ha => ?_
  rw [Transaction.find?_empty] at ha
  exact ⟨l, _, rfl, hok l a ha⟩

end Wallet

end Program

end WagerLedger
