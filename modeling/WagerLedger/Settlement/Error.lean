import WagerLedger.Ledger.Error

/-! # What can go wrong in a settlement

Only a lack of funds may pass by itself, so only it is recoverable. A ledger's error keeps
its meaning where a settlement has the same one and is a storage fault otherwise. -/
namespace WagerLedger

inductive SettlementError
  | accountNotFound (externalId : Identifier)
  | insufficientFunds (available required : Decimal)
  | invalidBet (bet : Decimal)
  | payoutOverflow (bet multiplier : Decimal)
  | storage (cause : LedgerError)
  | cancelled
  | deadlineExceeded
deriving DecidableEq

namespace SettlementError

def message : SettlementError → String
  | .accountNotFound ext => "Account not found for external id " ++ toString ext
  | .insufficientFunds available required =>
    "Insufficient funds: available " ++ toString available ++ ", required " ++ toString required
  | .invalidBet bet => "Invalid bet amount: " ++ toString bet
  | .payoutOverflow bet multiplier =>
    "Payout overflow: bet " ++ toString bet ++ " x multiplier " ++ toString multiplier
  | .storage cause => "Storage fault: " ++ cause.message
  | .cancelled => "Settlement cancelled"
  | .deadlineExceeded => "Settlement deadline exceeded"

def publicMessage : SettlementError → String
  | .storage _ | .payoutOverflow .. => "Internal server error"
  | .accountNotFound _ => "Account not found"
  | .insufficientFunds .. => "Insufficient funds"
  | e => e.message

/-- Whether a fresh attempt after a short wait may succeed. -/
def isRecoverable : SettlementError → Bool
  | .insufficientFunds .. => true
  | _ => false

/-- Whether the caller can mend the error: the account, the funds or the bet. -/
def isCallersFault : SettlementError → Bool
  | .accountNotFound _ | .insufficientFunds .. | .invalidBet _ => true
  | _ => false

def ofLedger : LedgerError → SettlementError
  | .insufficientFunds available required => .insufficientFunds available required
  | .unknownAccount ext => .accountNotFound ext
  | .invalidAmount amount => .invalidBet amount
  | e => .storage e

end SettlementError

end WagerLedger
