import WagerLedger.Session.Operation
import WagerLedger.Settlement

/-! # What a call makes of the ledger

Each call that changes the committed ledger does so once, in a way that depends on the ledger
before: it creates an account, moves one balance, or moves one balance and appends a spin.
`Operation.Makes` says which change goes with which call and answer, and `Operation.Refuses`
which answers go with no change. -/
namespace WagerLedger

def Ledger.find? (l : Ledger) (ext : Identifier) : Option Account :=
  (l.index.get? ext).bind l.accounts.get?

namespace Transaction

def put (t : Transaction) (id : AccountId) (b : Decimal) : Transaction :=
  { t with balances := t.balances.put id b }

theorem account?_empty (l : Ledger) (id : AccountId) :
    empty.account? l id = l.accounts.get? id := by
  simp [account?, empty, Option.map_id']

theorem find?_empty (l : Ledger) (ext : Identifier) : empty.find? l ext = l.find? ext := by
  rw [find?, Ledger.find?, show empty.account? l = l.accounts.get? from funext (account?_empty l)]
  rfl

theorem balance?_empty (l : Ledger) (id : AccountId) : empty.balance? l id = l.balance? id := by
  rw [balance?, account?_empty, Ledger.balance?]

theorem balance?_put {l : Ledger} {t : Transaction} {id : AccountId}
    (h : (t.balance? l id).isSome) (b' : Decimal) : (t.put id b').balance? l id = some b' := by
  simp only [balance?, account?, put, Option.isSome_map] at h ⊢
  obtain ⟨a, ha⟩ := Option.isSome_iff_exists.mp h
  simp [ha, Table.get?_put]

theorem writeBalance_eq {l : Ledger} {t : Transaction} {id : AccountId} {b : Decimal}
    (h : t.balance? l id = some b) (b' : Decimal) :
    t.writeBalance l id b' = (.ok (), t.put id b') := by
  rw [balance?, Option.map_eq_some_iff] at h
  obtain ⟨a, ha, -⟩ := h
  simp [writeBalance, ha, put]

theorem append_eq {l : Ledger} {t : Transaction} {s : Wager} {b : Decimal}
    (h : t.balance? l s.accountId = some b) :
    t.append l s = (.ok { s with id := l.lastSpinId + t.spins.length + 1 },
      { t with spins := t.spins ++ [{ s with id := l.lastSpinId + t.spins.length + 1 }] }) := by
  rw [balance?, Option.map_eq_some_iff] at h
  obtain ⟨a, ha, -⟩ := h
  simp [append, ha]

theorem insert_empty (l : Ledger) (ext : Identifier) :
    (empty.insert l ext).1 = (l.seed ext .zero).1 ∧
      (empty.insert l ext).2.apply l = (l.seed ext .zero).2 := by
  have hid : empty.accountId? l ext = l.index.get? ext := rfl
  have h0 : l.lastAccountId + (empty.newAccounts.length : Int) + 1 = l.lastAccountId + 1 := by
    simp [empty]
  cases h : l.index.get? ext with
  | none =>
    simp only [insert, Ledger.seed, hid, h, h0]
    exact ⟨trivial, rfl⟩
  | some id =>
    simp only [insert, Ledger.seed, hid, h]
    exact ⟨trivial, rfl⟩

end Transaction

/-- What an adjustment writes: the sum of the balance and a change that fits the ledger, and
never a negative balance for a debit. -/
structure Adjusts (delta before after : Decimal) : Prop where
  fits : delta.fitsLedger = true
  sum : before.add? delta = some after
  covered : delta.isNegative = true → after.isNegative = false

/-- One balance goes from `before` to `after`, and nothing else changes. -/
structure Ledger.Moves (l : Ledger) (ext : Identifier) (delta before after : Decimal)
    (l' : Ledger) : Prop where
  account : ∃ a, l.find? ext = some a ∧ l.balance? a.id = some before ∧
    l' = l.setBalance a.id after
  adjusts : Adjusts delta before after

/-- The bet is taken off a balance once, a win is added once and one spin is appended; nothing
else changes. -/
structure Ledger.Settles (l : Ledger) (ext : Identifier) (bet : Decimal) (spin : Spin)
    (before between after : Decimal) (l' : Ledger) : Prop where
  account : ∃ a, l.find? ext = some a ∧ spin.accountId = a.id
  balance : l.balance? spin.accountId = some before
  debit : Adjusts bet.neg before between
  credit : if spin.win.isPositive then Adjusts spin.win between after else after = between
  bet_eq : spin.bet = bet
  id_eq : spin.id = l.lastSpinId + 1
  ledger_eq : l' = (l.setBalance spin.accountId after).addSpin spin

/-- A settled spin whose win was drawn from acceptable odds. -/
def Ledger.SettlesBy (P : Odds → Prop) (l : Ledger) (ext : Identifier) (bet : Decimal)
    (spin : Spin) (l' : Ledger) : Prop :=
  Settlement.acceptsBet bet = true ∧
    (∃ odds o, P odds ∧ Settlement.payout odds bet o = .ok spin.win) ∧
      ∃ before between after, l.Settles ext bet spin before between after l'

namespace Operation

/-- The call changes the ledger from `l` to `l'` and answers `r`; no answer stands for a call
that breaks off after its change. -/
def Makes (P : Odds → Prop) (l l' : Ledger) (r : Option Reply) : Operation → Prop
  | .seed ext b => ∃ a, l.seed ext b = (.ok a, l') ∧ r = some (.account a)
  | .openAccount ext => ∃ a, l.seed ext .zero = (.ok a, l') ∧ r = some (.account a)
  | .account ext => l' = l ∧ ∃ a, l.find? ext = some a ∧ r = some (.account a)
  | .deposit ext amount => amount.isPositive = true ∧
      ∃ before after, l.Moves ext amount before after l' ∧ r = some (.amount after)
  | .withdraw ext amount => amount.isPositive = true ∧
      ∃ before after, l.Moves ext amount.neg before after l' ∧ r = some (.amount after)
  | .settle ext bet _ =>
      ∃ spin, l.SettlesBy P ext bet spin l' ∧ r = spin.net?.map (.settled spin)
  | .history ext limit => l' = l ∧
      ∃ a, l.find? ext = some a ∧ r = some (.spins (Transaction.empty.list l a.id (max limit 0)))
  | .move .commit => r = some .nothing
  | _ => False

/-- The answers of a call that changes nothing; none stands for a call that has not answered. -/
def Refuses (r : Option Reply) : Operation → Prop
  | .seed .. | .openAccount _ | .account _ | .deposit .. | .withdraw .. =>
      ∀ a ∈ r, ∃ e, a = .ledgerError e
  | .settle .. | .history .. => ∀ a ∈ r, ∃ e, a = .settlementError e
  | _ => True

end Operation

end WagerLedger
