import WagerLedger.Event
import WagerLedger.Ledger.Store
import WagerLedger.Settlement.Context
import WagerLedger.Words

/-! # Programs

What a client does is a program: a tree that asks its world for one thing after the other and
goes on with the answer. A program may race a request against a context, and is then handed
the context's error if that comes first. Where a request is answered at once there is no
look at the context. -/
namespace WagerLedger

/-- A call on a ledger, as an observer sees it. -/
inductive StoreCall
  | begin
  | data (call : DataCall)
  | commit
  | rollback
deriving DecidableEq

namespace StoreCall

def name : StoreCall → String
  | .begin => "begin"
  | .data (.find _) => "find_account"
  | .data (.insert _) => "insert_account"
  | .data (.lockBalance _) => "lock_balance"
  | .data (.writeBalance ..) => "write_balance"
  | .data (.append _) => "append_spin"
  | .data (.list ..) => "list_spins"
  | .commit => "commit"
  | .rollback => "rollback"

def arguments : StoreCall → List String
  | .begin | .commit | .rollback => []
  | .data (.find ext) | .data (.insert ext) => [toString ext]
  | .data (.lockBalance id) => [toString id]
  | .data (.writeBalance id b) => [toString id, toString b]
  | .data (.append s) => [toString s.accountId, toString s.bet, toString s.win]
  | .data (.list id limit) => [toString id, toString limit]

protected def toString (c : StoreCall) : String := " ".intercalate (c.name :: c.arguments)

end StoreCall

/-- Holds up, and perhaps refuses, the `nth` call of a name. -/
structure Probe where
  name : String
  nth : Nat
  delay : Option Duration
  refusal : Option LedgerError

/-- What a program can ask for. -/
inductive Request
  /-- A transaction is to begin: the call reaches the store. -/
  | arrive
  /-- Waits for the lock of the store and opens a transaction. -/
  | acquire
  | data (call : DataCall)
  | commit
  | rollback
  /-- Drops the open transaction, if there is one. -/
  | discard
  /-- Leaves the open transaction to whoever takes it up next. -/
  | leave
  /-- Takes up a transaction that was left. -/
  | takeUp
  | seed (externalId : Identifier) (balance : Decimal)
  | balanceOf (id : AccountId)
  | spinsOf (id : AccountId)
  | inject (point : FaultPoint) (skip times : Nat)
  | clearFaults
  | createSignal
  | isCancelled (signal : SignalId)
  | cancel (signal : SignalId)
  | dropHandle (signal : SignalId)
  | check (context : Context)
  /-- Begins something that a context may end. -/
  | poll
  /-- Tells an observer of a call that is about to be made. -/
  | note (call : StoreCall)
  | sleep (span : Duration)
  /-- Waits for ever. -/
  | never
  /-- The milliseconds since the start of the clock. -/
  | clock
  /-- A fresh source of random words. -/
  | entropy
  | emit (event : Event)

abbrev Request.Answer : Request → Type
  | .arrive | .commit | .rollback => Except LedgerError Unit
  | .data c => Except LedgerError c.Answer
  | .takeUp => Bool
  | .seed .. => Except LedgerError Account
  | .balanceOf _ => Option Decimal
  | .spinsOf _ => List Spin
  | .createSignal => SignalId
  | .isCancelled _ => Bool
  | .check _ => Option SettlementError
  | .note _ => List Probe
  | .never => Empty
  | .clock => Nat
  | .entropy => Words
  | _ => Unit

inductive Program (α : Type) where
  | done (a : α)
  /-- The run breaks off: an amount or a span of time has no value. -/
  | crash
  | ask (r : Request) (k : r.Answer → Program α)
  | race (c : Context) (r : Request) (k : Except SettlementError r.Answer → Program α)

namespace Program

def bind {α β : Type} : Program α → (α → Program β) → Program β
  | done a, f => f a
  | crash, _ => crash
  | ask r k, f => ask r fun a => (k a).bind f
  | race c r k, f => race c r fun a => (k a).bind f

instance : Monad Program where
  pure := done
  bind := bind

def request (r : Request) : Program r.Answer := ask r done

/-- Has each request of a program raced against a context. A race inside keeps its own
context. -/
def raced {α : Type} (c : Context) :
    Program (Except SettlementError α) → Program (Except SettlementError α)
  | done a => done a
  | crash => crash
  | ask r k => race c r fun
    | .ok a => (k a).raced c
    | .error e => done (.error e)
  | race c' r k => race c' r fun a => (k a).raced c

/-- Runs a program against a context, which is looked at before the program begins. -/
def against {α : Type} (c : Context) (p : Program (Except SettlementError α)) :
    Program (Except SettlementError α) :=
  race c .poll fun
    | .ok () => p.raced c
    | .error e => done (.error e)

end Program

/-- The call that a request makes on the store, and how an observer may refuse it. -/
def Request.observed? : (r : Request) → Option (StoreCall × (LedgerError → r.Answer))
  | .arrive => some (.begin, .error)
  | .data c => some (.data c, .error)
  | .commit => some (.commit, .error)
  | .rollback => some (.rollback, .error)
  | _ => none

/-- Whether a refused call still ends its transaction. -/
def StoreCall.isLast : StoreCall → Bool
  | .commit | .rollback => true
  | _ => false

namespace Program

/-- What a noted call comes to: its probes hold it up one after the other, until one of them
refuses it or it is made. -/
def heldUp {α : Type} (c : StoreCall) (wait : Duration → Program α → Program α)
    (refuse : LedgerError → Program α) (go : Program α) : List Probe → Program α
  | [] => go
  | p :: ps =>
    let proceed := match p.refusal with
      | some e => if c.isLast then ask .discard fun _ => refuse e else refuse e
      | none => heldUp c wait refuse go ps
    match p.delay with
    | some d => wait d proceed
    | none => proceed

/-- Has every call on the store noted, held up and refused as its probes say. -/
def observed {α : Type} : Program α → Program α
  | done a => done a
  | crash => crash
  | ask r k =>
    match r.observed? with
    | some (c, refuse) =>
      ask (.note c)
        (heldUp c (fun d rest => ask (.sleep d) fun _ => rest)
          (fun e => (k (refuse e)).observed) (ask r fun a => (k a).observed))
    | none => ask r fun a => (k a).observed
  | race ctx r k =>
    match r.observed? with
    | some (c, refuse) =>
      race ctx (.note c) fun
        | .ok ps =>
          heldUp c
            (fun d rest => race ctx (.sleep d) fun
              | .ok () => rest
              | .error e => (k (.error e)).observed)
            (fun e => (k (.ok (refuse e))).observed) (race ctx r fun a => (k a).observed) ps
        | .error e => (k (.error e)).observed
    | none => race ctx r fun a => (k a).observed

end Program

end WagerLedger
