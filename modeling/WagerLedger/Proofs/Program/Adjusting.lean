import WagerLedger.Ledger.Calls
import WagerLedger.Proofs.Decimal.Same
import WagerLedger.Proofs.Ledger.Change
import WagerLedger.Proofs.Ledger.Store
import WagerLedger.Proofs.World.Lock

/-! # What an adjustment writes

A balance is changed by adding to it, and the sum of two decimals has a value as long as some
decimal is near enough. Whether money is lost in a change is therefore a question of the sum
alone: it is written exactly when it is the number of a decimal, and near the largest decimal
there are amounts of the ledger whose sum is not. -/
namespace WagerLedger

namespace Program

variable {α β : Type} {i : ClientId} {w w' : World}

/-- Runs a program of client `i` to its end while nobody else does anything. One that has to
wait or breaks off has no end. -/
def runIn (i : ClientId) : World → Program α → Option (α × World)
  | w, done a => some (a, w)
  | _, crash => none
  | w, ask r k =>
    match w.perform i r with
    | (some a, w) => (k a).runIn i w
    | (none, _) => none
  | w, race c r k =>
    match w.ended? i c r with
    | some e => (k (.error e)).runIn i (w.giveUp i r)
    | none =>
      match w.perform i r with
      | (some a, w) => (k (.ok a)).runIn i w
      | (none, _) => none

theorem runIn_bind {p : Program α} {a : α} (h : p.runIn i w = some (a, w'))
    (f : α → Program β) : (p.bind f).runIn i w = (f a).runIn i w' := by
  induction p generalizing w with
  | done b => cases h; rfl
  | crash => cases h
  | ask r k ih =>
    rw [runIn] at h
    rw [bind, runIn]
    split at h
    · exact ih _ h
    · cases h
  | race c r k ih =>
    rw [runIn] at h
    rw [bind, runIn]
    split at h
    · exact ih _ h
    · split at h
      · exact ih _ h
      · cases h

end Program

namespace LedgerProgram

variable {α β : Type} {i : ClientId} {w w' : World} {t : Transaction}

theorem runIn_ok {p : LedgerProgram α} {a : α} (h : p.run.runIn i w = some (.ok a, w'))
    (f : α → LedgerProgram β) : (p >>= f).run.runIn i w = (f a).run.runIn i w' :=
  Program.runIn_bind h _

theorem runIn_error {p : LedgerProgram α} {e : LedgerError}
    (h : p.run.runIn i w = some (.error e, w')) (f : α → LedgerProgram β) :
    (p >>= f).run.runIn i w = some (.error e, w') :=
  Program.runIn_bind h _

theorem runIn_call_eq (ht : w.transaction? i = some t) (c : DataCall) :
    (call c).run.runIn i w = some ((w.store.call t c).1,
      { w with store := (w.store.call t c).2.2, holder := some (i, (w.store.call t c).2.1) }) := by
  show (Program.ask (.data c) .done).runIn i w = _
  rw [Program.runIn]
  simp only [World.perform, World.data, ht]
  rfl

/-- A call on the open transaction runs on the committed ledger, or fails by a fault that
leaves the transaction as it was. -/
theorem runIn_call (ht : w.transaction? i = some t) (c : DataCall) :
    ∃ r w', (call c).run.runIn i w = some (r, w') ∧ w'.store.ledger = w.store.ledger ∧
      ((∃ p, r = .error (Faults.error p) ∧ w'.transaction? i = some t) ∨
        r = (c.run w.store.ledger t).1 ∧
          w'.transaction? i = some (c.run w.store.ledger t).2) := by
  have hopen : ∀ (s : Store) (t' : Transaction),
      World.transaction? { w with store := s, holder := some (i, t') } i = some t' :=
    fun s t' => World.transaction?_of_holder rfl
  refine ⟨_, _, runIn_call_eq ht c, ?_⟩
  rcases w.store.call_cases t c with ⟨-, p, f, -, h⟩ | ⟨-, f, h⟩
  · rw [h]
    exact ⟨rfl, .inl ⟨p, rfl, hopen _ _⟩⟩
  · rw [h]
    exact ⟨rfl, .inr ⟨rfl, hopen _ _⟩⟩

theorem runIn_applyDelta (ht : w.transaction? i = some t) {id : AccountId}
    {before delta after : Decimal} (hb : t.balance? w.store.ledger id = some before)
    (hsum : before.add? delta = some after) :
    ∃ r w', (applyDelta id delta before).run.runIn i w = some (r, w') ∧
      w'.store.ledger = w.store.ledger ∧
      ((∃ e, r = .error e ∧ e ≠ .balanceOverflow ∧ w'.transaction? i = some t) ∨
        r = .ok after ∧ w'.transaction? i = some (t.put id after)) := by
  rw [applyDelta, hsum]
  dsimp only
  split
  · exact ⟨_, w, rfl, rfl, .inl ⟨_, rfl, nofun, ht⟩⟩
  · obtain ⟨r, w₁, hr, hl, h⟩ := runIn_call ht (.writeBalance id after)
    rcases h with ⟨p, rfl, ht₁⟩ | ⟨rfl, ht₁⟩
    · exact ⟨_, w₁, runIn_error hr _, hl, .inl ⟨_, rfl, nofun, ht₁⟩⟩
    · have hwrite := Transaction.writeBalance_eq hb after
      rw [DataCall.run, hwrite] at hr ht₁
      refine ⟨.ok after, _, runIn_ok hr _, hl, .inr ⟨rfl, ht₁⟩⟩

/-- Whatever an adjustment in an open transaction comes to, the committed ledger stands. A
failure stages nothing, and is told as an overflow only if no decimal is the sum; a success
stages the balance that it tells, which is the sum exactly if some decimal is. -/
theorem adjust_exact_iff_representable (ht : w.transaction? i = some t) {id : AccountId}
    {before : Decimal} (hb : t.balance? w.store.ledger id = some before) (delta : Decimal) :
    ∃ r w' t', (adjust id delta).run.runIn i w = some (r, w') ∧
      w'.store.ledger = w.store.ledger ∧ w'.transaction? i = some t' ∧
      match r with
      | .error e => t' = t ∧
          (e = .balanceOverflow → ¬∃ d : Decimal, d.toRat = before.toRat + delta.toRat)
      | .ok after => t'.balance? w.store.ledger id = some after ∧
          (after.toRat = before.toRat + delta.toRat ↔
            ∃ d : Decimal, d.toRat = before.toRat + delta.toRat) := by
  rw [adjust]
  split
  · exact ⟨_, w, t, rfl, rfl, ht, rfl, nofun⟩
  · obtain ⟨r, w₁, hr, hl, h⟩ := runIn_call ht (.lockBalance id)
    rcases h with ⟨p, rfl, ht₁⟩ | ⟨rfl, ht₁⟩
    · exact ⟨_, w₁, t, runIn_error hr _, hl, ht₁, rfl, nofun⟩
    · simp only [DataCall.run, hb] at hr ht₁
      rw [runIn_ok hr]
      dsimp only
      split
      · rename_i hzero
        have hsum : before.toRat + delta.toRat = before.toRat := by
          rw [(Decimal.isZero_iff delta).mp hzero, add_zero]
        exact ⟨.ok before, w₁, t, rfl, hl, ht₁, hb, iff_of_true hsum.symm ⟨before, hsum.symm⟩⟩
      · cases hsum : before.add? delta with
        | none =>
          rw [applyDelta, hsum]
          refine ⟨_, w₁, t, rfl, hl, ht₁, rfl, ?_⟩
          rintro - ⟨d, hd⟩
          obtain ⟨e, he, -⟩ := Decimal.add?_exact hd
          rw [hsum] at he
          cases he
        | some after =>
          have hb₁ : t.balance? w₁.store.ledger id = some before := hl.symm ▸ hb
          obtain ⟨r, w₂, hr₂, hl₂, h⟩ := runIn_applyDelta ht₁ hb₁ hsum
          rcases h with ⟨e, rfl, he, ht₂⟩ | ⟨rfl, ht₂⟩
          · exact ⟨_, w₂, t, hr₂, hl₂.trans hl, ht₂, rfl, fun h => (he h).elim⟩
          · refine ⟨_, w₂, _, hr₂, hl₂.trans hl, ht₂,
              Transaction.balance?_put (by rw [hb]; rfl) after, fun h => ⟨after, h⟩, ?_⟩
            rintro ⟨d, hd⟩
            obtain ⟨e, he, hexact⟩ := Decimal.add?_exact hd
            rw [hsum] at he
            cases he
            exact hexact

/-- A new ledger with one account, and the transaction that client 1 has opened on it. -/
def openedOn (balance : Decimal) : World :=
  { World.start (fun _ => .ofList []) [] with
    store := ⟨(Ledger.empty.seed .nil balance).2, .none⟩
    holder := some (1, .empty) }

def twelve : Decimal := ⟨12, 0, false, by decide, Decimal.zero.scale_le, nofun⟩

theorem adjust_exact_iff_representable_ten :
    ((openedOn .ten).transaction? 1 = some .empty ∧
      Transaction.empty.balance? (openedOn .ten).store.ledger 1 = some .ten) ∧
      ∃ w' t', (adjust 1 .two).run.runIn 1 (openedOn .ten) = some (.ok twelve, w') ∧
        w'.store.ledger = (openedOn .ten).store.ledger ∧ w'.transaction? 1 = some t' ∧
        t'.balance? (openedOn .ten).store.ledger 1 = some twelve ∧
        twelve.toRat = Decimal.ten.toRat + Decimal.two.toRat := by
  have hopen : (openedOn .ten).transaction? 1 = some .empty := rfl
  have hbefore : Transaction.empty.balance? (openedOn .ten).store.ledger 1 = some .ten := rfl
  obtain ⟨r, w', t', hadjust, hledger, htransaction, hr⟩ :=
    adjust_exact_iff_representable hopen hbefore .two
  have hsuccess : r = .ok twelve := by
    have hrun := congrArg (Option.map Prod.fst) hadjust
    exact (Option.some.inj hrun).symm
  subst hsuccess
  have hsum : twelve.toRat = Decimal.ten.toRat + Decimal.two.toRat := by decide +kernel
  exact ⟨⟨hopen, hbefore⟩, w', t', hadjust, hledger, htransaction, hr.1, hr.2.mpr ⟨twelve, hsum⟩⟩

def largest : Decimal :=
  ⟨79228162514264337593543950335, 0, false, by decide, Decimal.zero.scale_le, nofun⟩

def fourTenths : Decimal := ⟨4, 1, false, by decide, by decide, nofun⟩

/-- Taken off the largest balance, four tenths come back as a success that takes nothing: no
decimal is the difference, and the nearest one is the balance itself. -/
theorem adjust_takes_nothing_at_limit :
    largest.fitsLedger = true ∧ 0 ≤ largest.toRat ∧ fourTenths.neg.fitsLedger = true ∧
      Transaction.empty.balance? (openedOn largest).store.ledger 1 = some largest ∧
      (∃ w', (adjust 1 fourTenths.neg).run.runIn 1 (openedOn largest) = some (.ok largest, w') ∧
        w'.transaction? 1 = some (Transaction.empty.put 1 largest)) ∧
      largest.toRat ≠ largest.toRat + fourTenths.neg.toRat := by
  refine ⟨by decide +kernel, by decide +kernel, by decide +kernel, rfl, ⟨_, rfl, rfl⟩, ?_⟩
  decide +kernel

end LedgerProgram

end WagerLedger
