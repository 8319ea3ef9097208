import WagerLedger.Duration
import WagerLedger.Ledger.Record
import WagerLedger.Number.Decimal.Text

/-! # What can go wrong in a ledger

Each cause has a full text for the operator and a text that is safe to show to a client:
faults of the store and of the arithmetic look alike from outside. -/
namespace WagerLedger

inductive DatabaseError
  | rowNotFound
  | poolTimedOut
  | poolClosed
  | workerCrashed
  | protocolViolation (detail : String)
  | columnNotFound (name : String)
deriving DecidableEq

def DatabaseError.message : DatabaseError → String
  | .rowNotFound => "no rows returned by a query that expected to return at least one row"
  | .poolTimedOut => "pool timed out while waiting for an open connection"
  | .poolClosed => "attempted to acquire a connection on a closed pool"
  | .workerCrashed => "attempted to communicate with a crashed background worker"
  | .protocolViolation detail => "encountered unexpected or invalid data: " ++ detail
  | .columnNotFound name => "no column found for name: " ++ name

instance exceptDecidableEq {ε α : Type} [DecidableEq ε] [DecidableEq α] :
    DecidableEq (Except ε α)
  | .ok a, .ok b => decidable_of_iff (a = b) ⟨congrArg Except.ok, Except.ok.inj⟩
  | .error e, .error f => decidable_of_iff (e = f) ⟨congrArg Except.error, Except.error.inj⟩
  | .ok _, .error _ => isFalse nofun
  | .error _, .ok _ => isFalse nofun

inductive LedgerError
  | database (cause : DatabaseError)
  | timedOut (limit : Duration)
  | unavailable (reason : String)
  | accountNotFound (id : AccountId)
  | unknownAccount (externalId : Identifier)
  | insufficientFunds (available required : Decimal)
  | balanceOverflow
  | invalidAmount (amount : Decimal)
  | duplicateAccount (externalId : Identifier)
deriving DecidableEq

namespace LedgerError

def message : LedgerError → String
  | .database cause => "Database error: " ++ cause.message
  | .timedOut limit => "Ledger operation timed out after " ++ toString limit
  | .unavailable reason => "Ledger unavailable: " ++ reason
  | .accountNotFound id => "Account not found: " ++ toString id
  | .unknownAccount ext => "Account not found for external id " ++ toString ext
  | .insufficientFunds available required =>
    "Insufficient funds: available " ++ toString available ++ ", required " ++ toString required
  | .balanceOverflow => "Balance overflow"
  | .invalidAmount amount => "Invalid amount: " ++ toString amount
  | .duplicateAccount ext => "Account already exists for external id " ++ toString ext

/-- The text for a client: the store's troubles and the internal ids stay inside. -/
def publicMessage : LedgerError → String
  | .database _ | .timedOut _ | .unavailable _ | .balanceOverflow => "Internal server error"
  | .accountNotFound _ | .unknownAccount _ => "Account not found"
  | e => e.message

end LedgerError

end WagerLedger
