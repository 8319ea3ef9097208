import WagerLedger.Proofs.Decimal.Faithful
import WagerLedger.Proofs.Program.Solo
import WagerLedger.Wallet

/-! # What a change of a balance comes to

For a client that is alone a change fails for one reason only, the sum itself. So what a
deposit or a withdrawal comes to is known from the balance and the amount, and a credit or debit
inside a longer transaction comes to the same. -/
namespace WagerLedger

/-- What becomes of a balance by a change other than zero. -/
def adjusted (delta before : Decimal) : Except LedgerError Decimal :=
  if !delta.fitsLedger then .error (.invalidAmount delta.abs)
  else match before.add? delta with
    | none => .error .balanceOverflow
    | some after =>
      if delta.isNegative && after.isNegative then .error (.insufficientFunds before delta.neg)
      else .ok after

theorem adjusted_neg {amount before : Decimal} (hfits : amount.fitsLedger = true)
    (hpos : 0 < amount.toRat) (hbefore : 0 ≤ before.toRat) :
    (∃ after, adjusted amount.neg before = .ok after) ∨
      adjusted amount.neg before = .error (.insufficientFunds before amount) := by
  obtain ⟨after, hsum, -⟩ := Decimal.sub?_decides hbefore hpos.le
  have hgo : ¬(!amount.neg.fitsLedger) = true := by
    rw [amount.fitsLedger_neg, hfits]
    decide
  rw [adjusted, if_neg hgo, hsum, Decimal.neg_neg]
  dsimp only
  split
  · exact .inr rfl
  · exact .inl ⟨after, rfl⟩

theorem lacking_of_adjusted_neg {amount before available required : Decimal}
    (h : adjusted amount.neg before = .error (.insufficientFunds available required)) :
    available = before ∧ required = amount ∧ before.toRat < amount.toRat := by
  unfold adjusted at h
  split at h
  · cases h
  · cases hsum : before.add? amount.neg with
    | none =>
      rw [hsum] at h
      cases h
    | some after =>
      rw [hsum] at h
      dsimp only at h
      split at h
      · rename_i hneg
        rw [Bool.and_eq_true, Decimal.isNegative_add? hsum, Decimal.toRat_neg] at hneg
        cases h
        exact ⟨rfl, amount.neg_neg, by linarith [hneg.2]⟩
      · cases h

theorem adjusted_positive {amount before : Decimal} {e : LedgerError}
    (hfits : amount.fitsLedger = true) (hpos : amount.isPositive = true)
    (h : adjusted amount before = .error e) :
    e = .balanceOverflow ∧ before.add? amount = none := by
  have hgo : ¬(!amount.fitsLedger) = true := by
    rw [hfits]
    decide
  have hneg : ¬amount.isNegative = true := by
    rw [Decimal.isNegative_iff]
    exact ((Decimal.isPositive_iff amount).mp hpos).le.not_gt
  rw [adjusted, if_neg hgo] at h
  cases hsum : before.add? amount with
  | none =>
    rw [hsum] at h
    cases h
    exact ⟨rfl, rfl⟩
  | some after =>
    rw [hsum] at h
    dsimp only at h
    rw [if_neg (by rw [Bool.and_eq_true]; exact fun hboth => hneg hboth.1)] at h
    cases h

namespace Program

open LedgerProgram

variable {α : Type} {entropy : Nat → Words} {patient : Prop} {g : Solo} {l : Ledger}
  {t : Transaction} {n : Nat} {id : AccountId} {before delta amount : Decimal}
  {err : Solo → LedgerError → Prop}

theorem under_emit_alone {e : Event} {Q : Solo → Unit → Prop} (h : Q g ()) :
    (request (.emit e)).Under (alone entropy patient) g Q := by
  refine ⟨⟨nofun, trivial⟩, ?_⟩
  rintro a g' rfl
  exact h

theorem leads_begin_alone {ok : Solo → Unit → Prop} (h : ok ⟨l, some .empty, n⟩ ()) :
    Leads (alone entropy patient) ⟨l, none, n⟩ begin ok err := by
  refine leads_bind ⟨⟨nofun, trivial⟩, ?_⟩
  rintro a g' ⟨rfl, rfl⟩
  refine leads_lift ⟨⟨nofun, rfl⟩, ?_⟩
  rintro a g' rfl
  exact h

theorem leads_call_alone {c : DataCall} {a : c.Answer} {t' : Transaction}
    (hr : c.run l t = (.ok a, t')) {ok : Solo → c.Answer → Prop} (h : ok ⟨l, some t', n⟩ a) :
    Leads (alone entropy patient) ⟨l, some t, n⟩ (call c) ok err := by
  refine ⟨⟨nofun, rfl⟩, ?_⟩
  rintro b g' ⟨t₁, ht, rfl, rfl⟩
  cases ht
  rw [hr]
  exact h

theorem leads_commit_alone {ok : Solo → Unit → Prop} (h : ok ⟨t.apply l, none, n⟩ ()) :
    Leads (alone entropy patient) ⟨l, some t, n⟩ commit ok err := by
  refine ⟨⟨nofun, rfl⟩, ?_⟩
  rintro a g' ⟨rfl, t₁, ht, rfl⟩
  cases ht
  exact h

theorem under_rollBack_alone {Q : Solo → Unit → Prop} (h : Q ⟨l, none, n⟩ ()) (cause : String) :
    (rollBack cause).Under (alone entropy patient) ⟨l, some t, n⟩ Q := by
  refine Under.bind ⟨⟨nofun, rfl⟩, ?_⟩
  rintro a g' ⟨rfl, rfl⟩
  exact h

/-- An adjustment stages the new balance, or fails and stages nothing. -/
theorem leads_adjust_alone (hb : t.balance? l id = some before) (hzero : delta.isZero = false)
    {ok : Solo → Decimal → Prop}
    (hok : ∀ after, adjusted delta before = .ok after → ok ⟨l, some (t.put id after), n⟩ after)
    (herr : ∀ e, adjusted delta before = .error e → err ⟨l, some t, n⟩ e) :
    Leads (alone entropy patient) ⟨l, some t, n⟩ (adjust id delta) ok err := by
  unfold adjusted at hok herr
  unfold adjust
  split
  · rename_i hfits
    rw [if_pos hfits] at herr
    exact leads_throw (herr _ rfl)
  · rename_i hfits
    rw [if_neg hfits] at hok herr
    have hread : (DataCall.lockBalance id).run l t = (.ok (some before), t) := by
      rw [DataCall.run, hb]
    refine leads_bind (leads_call_alone hread ?_)
    dsimp only
    rw [if_neg (by rw [hzero]; decide)]
    unfold applyDelta
    cases hsum : before.add? delta with
    | none =>
      rw [hsum] at herr
      exact leads_throw (herr _ rfl)
    | some after =>
      rw [hsum] at hok herr
      dsimp only at hok herr ⊢
      split
      · rename_i hneg
        rw [if_pos hneg] at herr
        exact leads_throw (herr _ rfl)
      · rename_i hneg
        rw [if_neg hneg] at hok
        have hwrite : (DataCall.writeBalance id after).run l t = (.ok (), t.put id after) :=
          Transaction.writeBalance_eq hb after
        refine leads_bind (leads_call_alone hwrite ?_)
        exact leads_bind (leads_lift (under_emit_alone (leads_pure (hok _ rfl))))

theorem leads_credit_alone (hb : t.balance? l id = some before)
    (hpos : amount.isPositive = true) {ok : Solo → Decimal → Prop}
    (hok : ∀ after, adjusted amount before = .ok after → ok ⟨l, some (t.put id after), n⟩ after)
    (herr : ∀ e, adjusted amount before = .error e → err ⟨l, some t, n⟩ e) :
    Leads (alone entropy patient) ⟨l, some t, n⟩ (credit id amount) ok err := by
  rw [credit, if_pos hpos]
  exact leads_adjust_alone hb (Decimal.isZero_of_isPositive hpos) hok herr

theorem leads_debit_alone (hb : t.balance? l id = some before)
    (hpos : amount.isPositive = true) {ok : Solo → Decimal → Prop}
    (hok : ∀ after, adjusted amount.neg before = .ok after →
      ok ⟨l, some (t.put id after), n⟩ after)
    (herr : ∀ e, adjusted amount.neg before = .error e → err ⟨l, some t, n⟩ e) :
    Leads (alone entropy patient) ⟨l, some t, n⟩ (debit id amount) ok err := by
  rw [debit, if_pos hpos]
  exact leads_adjust_alone hb (amount.isZero_neg.trans (Decimal.isZero_of_isPositive hpos))
    hok herr

section Wallet

open Wallet

variable {ext : Identifier} {a : Account}

/-- What a change of the balance of account `id` comes to, and what its client finds after it. -/
structure Changed (l : Ledger) (id : AccountId) (delta before : Decimal) (n : Nat) (g : Solo)
    (r : Except LedgerError Decimal) : Prop where
  result : r = adjusted delta before
  ok : ∀ after, r = .ok after → g = ⟨l.setBalance id after, none, n⟩
  error : ∀ e, r = .error e → g = ⟨l, none, n⟩

theorem changed_ok {after : Decimal} (h : adjusted delta before = .ok after) :
    Changed l id delta before n ⟨l.setBalance id after, none, n⟩ (.ok after) :=
  ⟨h.symm, fun _ heq => by cases heq; rfl, nofun⟩

theorem changed_error {e : LedgerError} (h : adjusted delta before = .error e) :
    Changed l id delta before n ⟨l, none, n⟩ (.error e) :=
  ⟨h.symm, nofun, fun _ _ => rfl⟩

theorem leads_conclude_alone {body : LedgerProgram α} {ok : Solo → α → Prop}
    (h : Leads (alone entropy patient) g body
      (fun g' a => ∃ l t n, g' = ⟨l, some t, n⟩ ∧ ok ⟨t.apply l, none, n⟩ a)
      fun g' e => ∃ l t n, g' = ⟨l, some t, n⟩ ∧ err ⟨l, none, n⟩ e) :
    Leads (alone entropy patient) g (conclude body) ok err := by
  refine leads_bind (leads_lift (Under.mono h fun g' r hr => ?_))
  cases r with
  | ok a =>
    obtain ⟨l, t, n, rfl, ha⟩ := hr
    exact leads_bind (leads_commit_alone (leads_pure ha))
  | error e =>
    obtain ⟨l, t, n, rfl, he⟩ := hr
    exact leads_bind (leads_lift (under_rollBack_alone (leads_throw he) _))

theorem under_change (ha : l.find? ext = some a) (hb : l.balance? a.id = some before)
    (hzero : delta.isZero = false) :
    (change ext delta).run.Under (alone entropy patient) ⟨l, none, n⟩
      (Changed l a.id delta before n) := by
  have hfind : (DataCall.find ext).run l .empty = (.ok (some a), .empty) := by
    rw [DataCall.run, Transaction.find?_empty, ha]
  have hleads : Leads (alone entropy patient) ⟨l, none, n⟩ (change ext delta)
      (fun g after => Changed l a.id delta before n g (.ok after))
      fun g e => Changed l a.id delta before n g (.error e) := by
    refine leads_bind (leads_begin_alone (leads_conclude_alone ?_))
    refine leads_bind (leads_bind (leads_call_alone hfind (leads_pure ?_)))
    exact leads_adjust_alone ((Transaction.balance?_empty l a.id).trans hb) hzero
      (fun after h => ⟨l, _, n, rfl, changed_ok h⟩) fun e h => ⟨l, _, n, rfl, changed_error h⟩
  refine Under.mono hleads fun g' r hr => ?_
  cases r <;> exact hr

theorem under_told {e : Decimal → Event} {p : LedgerProgram Decimal}
    {Q : Solo → Except LedgerError Decimal → Prop} (h : p.run.Under (alone entropy patient) g Q) :
    (do
      let balance ← p
      emit (e balance)
      return balance : LedgerProgram Decimal).run.Under (alone entropy patient) g Q := by
  refine Under.bind (Under.mono h fun g' r hr => ?_)
  cases r with
  | ok b =>
    refine Under.bind (Under.map (under_emit_alone ?_))
    exact hr
  | error e => exact hr

theorem under_deposit (ha : l.find? ext = some a) (hb : l.balance? a.id = some before)
    (hpos : amount.isPositive = true) :
    (deposit ext amount).run.Under (alone entropy patient) ⟨l, none, n⟩
      (Changed l a.id amount before n) := by
  rw [deposit, if_pos hpos]
  exact under_told (under_change ha hb (Decimal.isZero_of_isPositive hpos))

theorem under_withdraw (ha : l.find? ext = some a) (hb : l.balance? a.id = some before)
    (hpos : amount.isPositive = true) :
    (withdraw ext amount).run.Under (alone entropy patient) ⟨l, none, n⟩
      (Changed l a.id amount.neg before n) := by
  rw [withdraw, if_pos hpos]
  exact under_told (under_change ha hb
    (amount.isZero_neg.trans (Decimal.isZero_of_isPositive hpos)))

variable {i : ClientId} {w : World}

theorem runIn_deposit (hw : w.Shows i entropy ⟨l, none, n⟩) (ha : l.find? ext = some a)
    (hb : l.balance? a.id = some before) (hpos : amount.isPositive = true) :
    ∃ w' g, (deposit ext amount).run.runIn i w = some (adjusted amount before, w') ∧
      w'.Shows i entropy g ∧ Changed l a.id amount before n g (adjusted amount before) := by
  obtain ⟨r, w', g, hrun, hw', hg⟩ := (under_deposit ha hb hpos).runIn hw
  obtain rfl := hg.result
  exact ⟨w', g, hrun, hw', hg⟩

theorem runIn_withdraw (hw : w.Shows i entropy ⟨l, none, n⟩) (ha : l.find? ext = some a)
    (hb : l.balance? a.id = some before) (hpos : amount.isPositive = true) :
    ∃ w' g, (withdraw ext amount).run.runIn i w = some (adjusted amount.neg before, w') ∧
      w'.Shows i entropy g ∧ Changed l a.id amount.neg before n g (adjusted amount.neg before) := by
  obtain ⟨r, w', g, hrun, hw', hg⟩ := (under_withdraw ha hb hpos).runIn hw
  obtain rfl := hg.result
  exact ⟨w', g, hrun, hw', hg⟩

end Wallet

end Program

end WagerLedger
