import WagerLedger.Ledger.State

/-! # Transactions

A transaction stages new accounts, balances and spins over the committed ledger and reads
its own writes. Committing applies all of them; nothing else does. -/
namespace WagerLedger

structure Transaction where
  newAccounts : List Account
  balances : Table AccountId Decimal
  spins : List Spin

namespace Transaction

def empty : Transaction := ⟨[], .empty, []⟩

/-- An account as the transaction sees it. -/
def account? (l : Ledger) (t : Transaction) (id : AccountId) : Option Account :=
  ((t.newAccounts.find? (·.id = id)).or (l.accounts.get? id)).map fun a =>
    { a with balance := (t.balances.get? id).getD a.balance }

def accountId? (l : Ledger) (t : Transaction) (ext : Identifier) : Option AccountId :=
  ((t.newAccounts.find? (·.externalId = ext)).map (·.id)).or (l.index.get? ext)

def find? (l : Ledger) (t : Transaction) (ext : Identifier) : Option Account :=
  (t.accountId? l ext).bind (t.account? l)

def insert (l : Ledger) (t : Transaction) (ext : Identifier) :
    Except LedgerError Account × Transaction :=
  match t.accountId? l ext with
  | some _ => (.error (.duplicateAccount ext), t)
  | none =>
    let a : Account := ⟨l.lastAccountId + t.newAccounts.length + 1, ext, .zero⟩
    (.ok a, { t with newAccounts := t.newAccounts ++ [a] })

def balance? (l : Ledger) (t : Transaction) (id : AccountId) : Option Decimal :=
  (t.account? l id).map (·.balance)

def writeBalance (l : Ledger) (t : Transaction) (id : AccountId) (b : Decimal) :
    Except LedgerError Unit × Transaction :=
  match t.account? l id with
  | none => (.error (.accountNotFound id), t)
  | some _ => (.ok (), { t with balances := t.balances.put id b })

def append (l : Ledger) (t : Transaction) (s : Wager) : Except LedgerError Spin × Transaction :=
  match t.account? l s.accountId with
  | none => (.error (.accountNotFound s.accountId), t)
  | some _ =>
    let spin : Spin := { s with id := l.lastSpinId + t.spins.length + 1 }
    (.ok spin, { t with spins := t.spins ++ [spin] })

/-- The spins of an account, newest first, at most `limit` of them. -/
def list (l : Ledger) (t : Transaction) (id : AccountId) (limit : Int) : List Spin :=
  (((l.spins ++ t.spins).reverse).filter (·.accountId = id)).take limit.toNat

def apply (t : Transaction) (l : Ledger) : Ledger :=
  let l := t.newAccounts.foldl Ledger.addAccount l
  let l := t.balances.entries.foldl (fun l e => l.setBalance e.1 e.2) l
  t.spins.foldl Ledger.addSpin l

end Transaction

end WagerLedger
