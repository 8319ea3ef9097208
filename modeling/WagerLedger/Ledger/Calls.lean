import WagerLedger.Program

/-! # Programs over a ledger

The calls of the store as programs, and the balance adjuster: the one place from which a
balance is written. The check for funds and the write see the same transaction, so no other
client comes between them. -/
namespace WagerLedger

/-- A program that may end with an error of the ledger. -/
abbrev LedgerProgram (α : Type) := ExceptT LedgerError Program α

namespace LedgerProgram

def begin : LedgerProgram Unit := do
  let () ← ExceptT.mk (.request .arrive)
  ExceptT.lift (.request .acquire)

def call (c : DataCall) : LedgerProgram c.Answer := ExceptT.mk (.request (.data c))

def commit : LedgerProgram Unit := ExceptT.mk (.request .commit)

def emit (e : Event) : LedgerProgram Unit := ExceptT.lift (.request (.emit e))

/-- Writes the sum of a balance and a change, unless it is out of range or a debit makes it
negative. -/
def applyDelta (id : AccountId) (delta current : Decimal) : LedgerProgram Decimal :=
  match current.add? delta with
  | none => throw .balanceOverflow
  | some updated =>
    if delta.isNegative && updated.isNegative then
      throw (.insufficientFunds current delta.neg)
    else do
      call (.writeBalance id updated)
      emit (.balanceAdjusted id delta current updated)
      return updated

/-- Changes a balance by a signed amount; a change of zero writes nothing. -/
def adjust (id : AccountId) (delta : Decimal) : LedgerProgram Decimal :=
  if !delta.fitsLedger then throw (.invalidAmount delta.abs)
  else do
    match ← call (.lockBalance id) with
    | none => throw (.accountNotFound id)
    | some current => if delta.isZero then return current else applyDelta id delta current

def credit (id : AccountId) (amount : Decimal) : LedgerProgram Decimal :=
  if amount.isPositive then adjust id amount else throw (.invalidAmount amount)

def debit (id : AccountId) (amount : Decimal) : LedgerProgram Decimal :=
  if amount.isPositive then adjust id amount.neg else throw (.invalidAmount amount)

end LedgerProgram

/-- Rolls back after a failure that is told as `cause`; a second failure is only logged. -/
def Program.rollBack (cause : String) : Program Unit := do
  match ← Program.request .rollback with
  | .ok () => return ()
  | .error e => Program.request (.emit (.rollbackFailed cause e))

end WagerLedger
