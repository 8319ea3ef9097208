import WagerLedger.Config.Settings
import WagerLedger.Ledger.Store
import WagerLedger.Settlement.Context

/-! # What a session can do

Operations of the wallet and the engine, single calls on a transaction that stays open between
operations, injected faults, and contexts with their handles; what each answers; and what they
share besides their world. -/
namespace WagerLedger

/-- One scripted attempt of an operation: how long it takes and what it comes to. -/
structure ScriptedAttempt where
  span : Duration
  outcome : Except SettlementError String

/-- Something done with the transaction that the session keeps open. -/
inductive Move
  | data (call : DataCall)
  | adjust (id : AccountId) (amount : Decimal)
  | credit (id : AccountId) (amount : Decimal)
  | debit (id : AccountId) (amount : Decimal)
  | commit
  | rollback
  | drop

inductive Operation
  | seed (externalId : Identifier) (balance : Decimal)
  | openAccount (externalId : Identifier)
  | account (externalId : Identifier)
  | deposit (externalId : Identifier) (amount : Decimal)
  | withdraw (externalId : Identifier) (amount : Decimal)
  | settle (externalId : Identifier) (bet : Decimal) (context : Option String)
  | history (externalId : Identifier) (limit : Int)
  | engine (config : Settings)
  | balanceOf (id : AccountId)
  | spinsOf (id : AccountId)
  | fault (point : FaultPoint) (skip times : Nat)
  | clearFaults
  | sleep (span : Duration)
  | context (name : String) (cancellable : Bool) (source : Option String)
      (timeouts deadlines : List Duration)
  | checkContext (name : String)
  | awaitContext (name : String)
  | cancel (name : String)
  | dropHandle (name : String)
  | retry (config : RetryPlan) (attempts : List ScriptedAttempt) (context : Option String)
  | begin
  | move (m : Move)

inductive Reply
  | nothing
  | account (a : Account)
  | amount (d : Decimal)
  | spin (s : Spin)
  | settled (s : Spin) (net : Decimal)
  | spins (l : List Spin)
  | point (p : FaultPoint)
  | flag (b : Bool)
  | flags (before after : Bool)
  | millis (n : Nat)
  | config (c : Settings)
  | retried (result : Except SettlementError String) (attempts : List (UInt32 × Nat))
  | ledgerError (e : LedgerError)
  | settlementError (e : SettlementError)
  | noTransaction
deriving DecidableEq

namespace Reply

def ofOption {α : Type} (f : α → Reply) : Option α → Reply
  | some a => f a
  | none => .nothing

def ofLedger {α : Type} (f : α → Reply) : Except LedgerError α → Reply
  | .ok a => f a
  | .error e => .ledgerError e

def ofSpin {α : Type} (f : α → Reply) : Except SettlementError α → Reply
  | .ok a => f a
  | .error e => .settlementError e

end Reply

/-- What the operations of a session share besides their world: the engine's configuration
and the contexts and handles by name. -/
structure Desk where
  engine : Settings
  contexts : Table String Context
  handles : Table String SignalId

/-- An unnamed or unknown context never ends. -/
def Desk.context (d : Desk) (name : Option String) : Context :=
  (name.bind d.contexts.get?).getD .background

end WagerLedger
