import WagerLedger.Proofs.Decimal.Faithful
import WagerLedger.Proofs.Program.Adjusting

/-! # Whether a balance suffices

A debit is refused by the sign of a difference that may have been rounded. Rounding keeps that
sign, and whether the difference is zero, so the balance is compared with the amount exactly;
and a difference of two amounts always has a value, so a debit never overflows. -/
namespace WagerLedger

namespace LedgerProgram

variable {i : ClientId} {w : World} {t : Transaction} {id : AccountId} {before amount : Decimal}

theorem runIn_call_untripped (ht : w.transaction? i = some t) {c : DataCall}
    (hc : w.store.trips c = false) :
    ∃ w', (call c).run.runIn i w = some ((c.run w.store.ledger t).1, w') ∧
      w'.store.ledger = w.store.ledger ∧
      w'.transaction? i = some (c.run w.store.ledger t).2 ∧
      ∀ d : DataCall, c.point? ≠ d.point? → w'.store.trips d = w.store.trips d := by
  have hrun := runIn_call_eq ht c
  have htrips := fun (d : DataCall) (h : c.point? ≠ d.point?) => w.store.trips_call t h
  rcases w.store.call_cases t c with ⟨htrip, -⟩ | ⟨-, f, h⟩
  · rw [hc] at htrip
    cases htrip
  · rw [h] at hrun htrips
    exact ⟨_, hrun, rfl, World.transaction?_of_holder rfl, htrips⟩

theorem runIn_adjust (ht : w.transaction? i = some t)
    (hb : t.balance? w.store.ledger id = some before) {delta : Decimal}
    (hfits : delta.fitsLedger = true) (hzero : delta.isZero = false)
    (hlock : w.store.trips (.lockBalance id) = false) :
    ∃ w', (adjust id delta).run.runIn i w = (applyDelta id delta before).run.runIn i w' ∧
      w'.store.ledger = w.store.ledger ∧ w'.transaction? i = some t ∧
      ∀ b, w'.store.trips (.writeBalance id b) = w.store.trips (.writeBalance id b) := by
  obtain ⟨w₁, hr, hl, ht₁, htrips⟩ := runIn_call_untripped ht hlock
  simp only [DataCall.run, hb] at hr ht₁
  have hapart : ∀ b, (DataCall.lockBalance id).point? ≠ (DataCall.writeBalance id b).point? := by
    intro b heq
    cases heq
  refine ⟨w₁, ?_, hl, ht₁, fun b => htrips _ (hapart b)⟩
  have hfits' : ¬(!delta.fitsLedger) = true := by
    rw [hfits]
    decide
  rw [adjust, if_neg hfits', runIn_ok hr]
  dsimp only
  rw [if_neg (by rw [hzero]; decide)]

theorem runIn_applyDelta_ok (ht : w.transaction? i = some t)
    (hb : t.balance? w.store.ledger id = some before) {delta after : Decimal}
    (hsum : before.add? delta = some after)
    (hcovered : (delta.isNegative && after.isNegative) = false)
    (hwrite : w.store.trips (.writeBalance id after) = false) :
    ∃ w', (applyDelta id delta before).run.runIn i w = some (.ok after, w') ∧
      w'.store.ledger = w.store.ledger ∧ w'.transaction? i = some (t.put id after) := by
  obtain ⟨w₁, hr, hl, ht₁, -⟩ := runIn_call_untripped ht hwrite
  rw [DataCall.run, Transaction.writeBalance_eq hb after] at hr ht₁
  have hgo : ¬(delta.isNegative && after.isNegative) = true := by
    rw [hcovered]
    decide
  rw [applyDelta, hsum]
  dsimp only
  rw [if_neg hgo, runIn_ok hr]
  exact ⟨_, rfl, hl, ht₁⟩

theorem runIn_debit_refused (ht : w.transaction? i = some t)
    (hb : t.balance? w.store.ledger id = some before) (hbefore : 0 ≤ before.toRat)
    (hpos : 0 < amount.toRat) (hfits : amount.fitsLedger = true)
    (hlock : w.store.trips (.lockBalance id) = false) (hlt : before.toRat < amount.toRat) :
    ∃ w', (debit id amount).run.runIn i w =
        some (.error (.insufficientFunds before amount), w') ∧
      w'.store.ledger = w.store.ledger ∧ w'.transaction? i = some t := by
  obtain ⟨after, hsum, hneg, -⟩ := Decimal.sub?_decides hbefore hpos.le
  have hp : amount.isPositive = true := (Decimal.isPositive_iff amount).mpr hpos
  obtain ⟨w₁, hr, hl, ht₁, -⟩ := runIn_adjust ht hb (amount.fitsLedger_neg.trans hfits)
    (amount.isZero_neg.trans (Decimal.isZero_of_isPositive hp)) hlock
  refine ⟨w₁, ?_, hl, ht₁⟩
  have hgo : (amount.neg.isNegative && after.isNegative) = true := by
    rw [Decimal.isNegative_neg, hp, hneg.mpr hlt]
    rfl
  rw [debit, if_pos hp, hr, applyDelta, hsum]
  dsimp only
  rw [if_pos hgo, Decimal.neg_neg]
  rfl

theorem runIn_debit_covered (ht : w.transaction? i = some t)
    (hb : t.balance? w.store.ledger id = some before) (hbefore : 0 ≤ before.toRat)
    (hpos : 0 < amount.toRat) (hfits : amount.fitsLedger = true)
    (hlock : w.store.trips (.lockBalance id) = false) (hle : amount.toRat ≤ before.toRat)
    (hwrite : ∀ b, w.store.trips (.writeBalance id b) = false) :
    ∃ b w', (debit id amount).run.runIn i w = some (.ok b, w') ∧
      w'.store.ledger = w.store.ledger ∧ w'.transaction? i = some (t.put id b) ∧
      0 ≤ b.toRat ∧ b.toRat ≤ before.toRat ∧ (b.toRat = 0 ↔ before.toRat = amount.toRat) := by
  obtain ⟨after, hsum, hneg, hafter⟩ := Decimal.sub?_decides hbefore hpos.le
  have hp : amount.isPositive = true := (Decimal.isPositive_iff amount).mpr hpos
  obtain ⟨w₁, hr, hl, ht₁, htrips⟩ := runIn_adjust ht hb (amount.fitsLedger_neg.trans hfits)
    (amount.isZero_neg.trans (Decimal.isZero_of_isPositive hp)) hlock
  have hcovered : (amount.neg.isNegative && after.isNegative) = false := by
    rw [Bool.and_eq_false_iff, Bool.eq_false_iff, Bool.eq_false_iff, ne_eq, ne_eq, hneg]
    exact .inr (not_lt.mpr hle)
  obtain ⟨w₂, hr₂, hl₂, ht₂⟩ := runIn_applyDelta_ok ht₁ (hl.symm ▸ hb) hsum hcovered
    ((htrips after).trans (hwrite after))
  refine ⟨after, w₂, ?_, hl₂.trans hl, ht₂, hafter hle⟩
  rw [debit, if_pos hp, hr, hr₂]

/-- Whatever a credit comes to, it does not lack funds; what it writes is at least the balance
before. -/
theorem runIn_credit (ht : w.transaction? i = some t)
    (hb : t.balance? w.store.ledger id = some before) (hbefore : 0 ≤ before.toRat)
    (hpos : 0 < amount.toRat) :
    ∃ r w' t', (credit id amount).run.runIn i w = some (r, w') ∧
      w'.store.ledger = w.store.ledger ∧ w'.transaction? i = some t' ∧
      match r with
      | .error e => t' = t ∧ ∀ available required, e ≠ .insufficientFunds available required
      | .ok b => t' = t.put id b ∧ before.toRat ≤ b.toRat := by
  have hp : amount.isPositive = true := (Decimal.isPositive_iff amount).mpr hpos
  have hneg : ¬amount.isNegative = true := by
    rw [Decimal.isNegative_iff]
    exact not_lt.mpr hpos.le
  have hfault : ∀ p available required,
      Faults.error p ≠ .insufficientFunds available required := by
    intro p available required heq
    cases heq
  rw [credit, if_pos hp, adjust]
  split
  · refine ⟨_, w, t, rfl, rfl, ht, rfl, fun available required heq => ?_⟩
    cases heq
  · obtain ⟨r, w₁, hr, hl, h⟩ := runIn_call ht (.lockBalance id)
    rcases h with ⟨p, rfl, ht₁⟩ | ⟨rfl, ht₁⟩
    · exact ⟨_, w₁, t, runIn_error hr _, hl, ht₁, rfl, hfault p⟩
    · simp only [DataCall.run, hb] at hr ht₁
      rw [runIn_ok hr]
      dsimp only
      rw [if_neg (by rw [Decimal.isZero_of_isPositive hp]; decide), applyDelta]
      -- The sum is no decimal, is not written, or is staged; it is never too little.
      cases hsum : before.add? amount with
      | none =>
        refine ⟨_, w₁, t, rfl, hl, ht₁, rfl, fun available required heq => ?_⟩
        cases heq
      | some after =>
        dsimp only
        rw [if_neg (by rw [Bool.and_eq_true]; exact fun h => hneg h.1)]
        obtain ⟨r, w₂, hr₂, hl₂, h⟩ := runIn_call ht₁ (.writeBalance id after)
        rcases h with ⟨p, rfl, ht₂⟩ | ⟨rfl, ht₂⟩
        · exact ⟨_, w₂, t, runIn_error hr₂ _, hl₂.trans hl, ht₂, rfl, hfault p⟩
        · have hb₁ : t.balance? w₁.store.ledger id = some before := hl.symm ▸ hb
          rw [DataCall.run, Transaction.writeBalance_eq hb₁ after] at hr₂ ht₂
          rw [runIn_ok hr₂]
          exact ⟨.ok after, _, _, rfl, hl₂.trans hl, ht₂, rfl,
            Decimal.le_add? hbefore hpos.le hsum⟩

/-- Where no fault trips, a debit is refused exactly if the balance is less than the amount, with
both as they are and nothing staged; otherwise it stages a balance between zero and the one
before, which is zero exactly if the two were equal. A credit never lacks funds, and never leaves
less than there was. -/
theorem sufficiency_exact (ht : w.transaction? i = some t)
    (hb : t.balance? w.store.ledger id = some before) (hbefore : 0 ≤ before.toRat)
    (hpos : 0 < amount.toRat) (hfits : amount.fitsLedger = true)
    (hlock : w.store.trips (.lockBalance id) = false)
    (hwrite : amount.toRat ≤ before.toRat → ∀ b, w.store.trips (.writeBalance id b) = false) :
    (∃ r w' t', (debit id amount).run.runIn i w = some (r, w') ∧
      w'.store.ledger = w.store.ledger ∧ w'.transaction? i = some t' ∧
      if before.toRat < amount.toRat then
        r = .error (.insufficientFunds before amount) ∧ t' = t
      else ∃ b, r = .ok b ∧ t' = t.put id b ∧ 0 ≤ b.toRat ∧ b.toRat ≤ before.toRat ∧
        (b.toRat = 0 ↔ before.toRat = amount.toRat)) ∧
    ∃ r w' t', (credit id amount).run.runIn i w = some (r, w') ∧
      w'.store.ledger = w.store.ledger ∧ w'.transaction? i = some t' ∧
      match r with
      | .error e => t' = t ∧ ∀ available required, e ≠ .insufficientFunds available required
      | .ok b => t' = t.put id b ∧ before.toRat ≤ b.toRat := by
  refine ⟨?_, runIn_credit ht hb hbefore hpos⟩
  rcases lt_or_ge before.toRat amount.toRat with hlt | hle
  · obtain ⟨w', hr, hl, ht'⟩ := runIn_debit_refused ht hb hbefore hpos hfits hlock hlt
    refine ⟨_, w', t, hr, hl, ht', ?_⟩
    rw [if_pos hlt]
    exact ⟨rfl, rfl⟩
  · obtain ⟨b, w', hr, hl, ht', hafter⟩ :=
      runIn_debit_covered ht hb hbefore hpos hfits hlock hle (hwrite hle)
    refine ⟨_, w', _, hr, hl, ht', ?_⟩
    rw [if_neg (not_lt.mpr hle)]
    exact ⟨b, rfl, rfl, hafter⟩

/-- Four tenths are taken off the largest balance, although nothing comes off it. -/
theorem sufficiency_exact_largest :
    ((openedOn largest).transaction? 1 = some .empty ∧
      Transaction.empty.balance? (openedOn largest).store.ledger 1 = some largest ∧
      0 ≤ largest.toRat ∧ 0 < fourTenths.toRat ∧ fourTenths.fitsLedger = true ∧
      (openedOn largest).store.trips (.lockBalance 1) = false ∧
      ∀ b, (openedOn largest).store.trips (.writeBalance 1 b) = false) ∧
    (∃ r w' t', (debit 1 fourTenths).run.runIn 1 (openedOn largest) = some (r, w') ∧
      w'.store.ledger = (openedOn largest).store.ledger ∧ w'.transaction? 1 = some t' ∧
      if largest.toRat < fourTenths.toRat then
        r = .error (.insufficientFunds largest fourTenths) ∧ t' = .empty
      else ∃ b, r = .ok b ∧ t' = Transaction.empty.put 1 b ∧ 0 ≤ b.toRat ∧
        b.toRat ≤ largest.toRat ∧ (b.toRat = 0 ↔ largest.toRat = fourTenths.toRat)) ∧
    ∃ r w' t', (credit 1 fourTenths).run.runIn 1 (openedOn largest) = some (r, w') ∧
      w'.store.ledger = (openedOn largest).store.ledger ∧ w'.transaction? 1 = some t' ∧
      match r with
      | .error e => t' = .empty ∧ ∀ available required, e ≠ .insufficientFunds available required
      | .ok b => t' = Transaction.empty.put 1 b ∧ largest.toRat ≤ b.toRat := by
  have hbefore : 0 ≤ largest.toRat := by decide +kernel
  have hpos : 0 < fourTenths.toRat := by decide +kernel
  have hfits : fourTenths.fitsLedger = true := by decide +kernel
  have hwrite : ∀ b, (openedOn largest).store.trips (.writeBalance 1 b) = false :=
    fun b => Store.trips_quiet _ _
  exact ⟨⟨rfl, rfl, hbefore, hpos, hfits, Store.trips_quiet _ _, hwrite⟩,
    sufficiency_exact rfl rfl hbefore hpos hfits (Store.trips_quiet _ _) fun _ => hwrite⟩

end LedgerProgram

end WagerLedger
