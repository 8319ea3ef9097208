import WagerLedger.Ledger.Fault
import WagerLedger.Ledger.Transaction

/-! # The store

The calls that a client can make, each of which may hit an injected fault. A data call that
fails leaves the transaction as it was; a commit or rollback ends it whatever happens. -/
namespace WagerLedger

inductive DataCall
  | find (externalId : Identifier)
  | insert (externalId : Identifier)
  | lockBalance (id : AccountId)
  | writeBalance (id : AccountId) (balance : Decimal)
  | append (spin : Wager)
  | list (id : AccountId) (limit : Int)
deriving DecidableEq

namespace DataCall

abbrev Answer : DataCall → Type
  | .find _ => Option Account
  | .insert _ => Account
  | .lockBalance _ => Option Decimal
  | .writeBalance .. => Unit
  | .append _ => Spin
  | .list .. => List Spin

/-- Inserting accounts and listing spins never fail by injection. -/
def point? : DataCall → Option FaultPoint
  | .find _ => some .findAccount
  | .insert _ => none
  | .lockBalance _ => some .lockBalance
  | .writeBalance .. => some .writeBalance
  | .append _ => some .appendSpin
  | .list .. => none

/-- The call itself, past any fault. -/
def run (l : Ledger) (t : Transaction) : (c : DataCall) → Except LedgerError c.Answer × Transaction
  | .find ext => (.ok (t.find? l ext), t)
  | .insert ext => t.insert l ext
  | .lockBalance id => (.ok (t.balance? l id), t)
  | .writeBalance id b => t.writeBalance l id b
  | .append s => t.append l s
  | .list id limit => (.ok (t.list l id limit), t)

end DataCall

structure Store where
  ledger : Ledger
  faults : Faults

namespace Store

def empty : Store := ⟨.empty, .none⟩

def visit (s : Store) (p : FaultPoint) : Except LedgerError Unit × Store :=
  let (r, f) := s.faults.visit p
  (r, { s with faults := f })

def visit? (s : Store) : Option FaultPoint → Except LedgerError Unit × Store
  | none => (.ok (), s)
  | some p => s.visit p

def trips (s : Store) (c : DataCall) : Bool :=
  match (s.visit? c.point?).1 with
  | .error _ => true
  | .ok () => false

def call (s : Store) (t : Transaction) (c : DataCall) :
    Except LedgerError c.Answer × Transaction × Store :=
  match s.visit? c.point? with
  | (.error e, s) => (.error e, t, s)
  | (.ok (), s) => let (r, t) := c.run s.ledger t; (r, t, s)

/-- Ends a transaction and keeps its writes, unless the call fails. -/
def commit (s : Store) (t : Transaction) : Except LedgerError Unit × Store :=
  match s.visit .commit with
  | (.error e, s) => (.error e, s)
  | (.ok (), s) => (.ok (), { s with ledger := t.apply s.ledger })

/-- Ends a transaction and drops its writes, also when the call fails. -/
def rollback (s : Store) : Except LedgerError Unit × Store := s.visit .rollback

end Store

end WagerLedger
