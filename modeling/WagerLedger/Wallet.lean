import WagerLedger.Ledger.Calls

/-! # The wallet

Opening and reading accounts, deposits and withdrawals. Each runs in one transaction of its
own: it is committed if all goes well and rolled back otherwise, and the first error is the
one that the caller sees. -/
namespace WagerLedger.Wallet

open LedgerProgram

/-- Ends a transaction by the result of what was done in it. -/
def conclude {α : Type} (body : LedgerProgram α) : LedgerProgram α := do
  match ← ExceptT.lift body.run with
  | .ok a => do
    commit
    return a
  | .error e => do
    ExceptT.lift (Program.rollBack e.message)
    throw e

def openAccount (ext : Identifier) : LedgerProgram Account := do
  begin
  let a ← conclude (call (.insert ext))
  emit (.accountOpened a)
  return a

def resolve (ext : Identifier) : LedgerProgram Account := do
  match ← call (.find ext) with
  | some a => return a
  | none => throw (.unknownAccount ext)

def account (ext : Identifier) : LedgerProgram Account := do
  begin
  conclude (resolve ext)

def change (ext : Identifier) (delta : Decimal) : LedgerProgram Decimal := do
  begin
  conclude do
    let a ← resolve ext
    adjust a.id delta

def deposit (ext : Identifier) (amount : Decimal) : LedgerProgram Decimal :=
  if amount.isPositive then do
    let balance ← change ext amount
    emit (.depositApplied ext amount balance)
    return balance
  else throw (.invalidAmount amount)

def withdraw (ext : Identifier) (amount : Decimal) : LedgerProgram Decimal :=
  if amount.isPositive then do
    let balance ← change ext amount.neg
    emit (.withdrawalApplied ext amount balance)
    return balance
  else throw (.invalidAmount amount)

end WagerLedger.Wallet
