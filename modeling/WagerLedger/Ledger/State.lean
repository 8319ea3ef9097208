import WagerLedger.Ledger.Error
import WagerLedger.Ledger.Table

/-! # The committed ledger

Accounts by id, the index from external ids to them, the log of spins, and the last id given
to either. A read sees committed state only. -/
namespace WagerLedger

structure Ledger where
  accounts : Table AccountId Account
  index : Table Identifier AccountId
  spins : List Spin
  lastAccountId : AccountId
  lastSpinId : SpinId

namespace Ledger

def empty : Ledger := ⟨.empty, .empty, [], 0, 0⟩

def balance? (l : Ledger) (id : AccountId) : Option Decimal :=
  (l.accounts.get? id).map (·.balance)

/-- The spins of an account, oldest first. -/
def spinsOf (l : Ledger) (id : AccountId) : List Spin :=
  l.spins.filter (·.accountId = id)

def addAccount (l : Ledger) (a : Account) : Ledger :=
  { l with
    lastAccountId := max l.lastAccountId a.id
    index := l.index.put a.externalId a.id
    accounts := l.accounts.put a.id a }

/-- Overwrites a balance; an id without account changes nothing. -/
def setBalance (l : Ledger) (id : AccountId) (b : Decimal) : Ledger :=
  { l with accounts := l.accounts.modify id ({ · with balance := b }) }

def addSpin (l : Ledger) (s : Spin) : Ledger :=
  { l with lastSpinId := max l.lastSpinId s.id, spins := l.spins ++ [s] }

/-- Creates an account with an opening balance, outside any transaction. -/
def seed (l : Ledger) (ext : Identifier) (b : Decimal) : Except LedgerError Account × Ledger :=
  match l.index.get? ext with
  | some _ => (.error (.duplicateAccount ext), l)
  | none =>
    let a : Account := ⟨l.lastAccountId + 1, ext, b⟩
    (.ok a, l.addAccount a)

end Ledger

end WagerLedger
