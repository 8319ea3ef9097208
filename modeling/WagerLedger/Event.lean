import WagerLedger.Duration
import WagerLedger.Ledger.Record
import WagerLedger.Number.Decimal.Text
import WagerLedger.Settlement.Error

/-! # Events

What the wallet and the settlements tell their operator: a level, a message and named fields
as text. -/
namespace WagerLedger

inductive Level
  | debug
  | info
  | warn
  | error
deriving DecidableEq

def Level.toString : Level → String
  | .debug => "DEBUG"
  | .info => "INFO"
  | .warn => "WARN"
  | .error => "ERROR"

structure Event where
  level : Level
  message : String
  fields : List (String × String)
deriving DecidableEq

/-- Settlements slower than this are told at a higher level. -/
def slowThreshold : Duration := .ofSeconds 1

/-- A count of milliseconds as it is told: its low 64 bits. -/
def millisText (d : Duration) : String := toString (d.wholeMillis % 18446744073709551616)

namespace Event

def settled (s : Spin) (elapsed : Duration) : Event where
  level := if slowThreshold.nanos < elapsed.nanos then .warn else .info
  message := if slowThreshold.nanos < elapsed.nanos then "Slow settlement" else "Spin settled"
  fields :=
    [("spin_id", toString s.id), ("account_id", toString s.accountId), ("bet", toString s.bet),
     ("win", toString s.win), ("elapsed_ms", millisText elapsed)]

def settlementFailed (ext : Identifier) (bet : Decimal) (elapsed : Duration) (e : SettlementError) :
    Event where
  level := .error
  message := "Settlement failed"
  fields :=
    [("external_id", toString ext), ("bet", toString bet), ("elapsed_ms", millisText elapsed),
     ("error", e.message)]

def retrying (attempt : UInt32) (delay : Duration) (e : SettlementError) : Event where
  level := .warn
  message := "Settlement attempt failed, retrying"
  fields :=
    [("attempt", toString attempt), ("delay_ms", millisText delay), ("error", e.message)]

def budgetExhausted (attempts : UInt32) (elapsed : Duration) (e : SettlementError) : Event where
  level := .error
  message := "Retry budget exhausted"
  fields :=
    [("attempts", toString attempts), ("elapsed_ms", millisText elapsed), ("error", e.message)]

def succeededAfterRetry (attempt : UInt32) (elapsed : Duration) : Event where
  level := .debug
  message := "Settlement succeeded after retry"
  fields := [("attempt", toString attempt), ("elapsed_ms", millisText elapsed)]

/-- A rollback failed after the operation itself had failed with `cause`. -/
def rollbackFailed (cause : String) (rollback : LedgerError) : Event where
  level := .error
  message := "Rollback failed"
  fields := [("error", cause), ("rollback_error", rollback.message)]

def attemptCommitted (attempt : UInt32) (s : Spin) : Event where
  level := .debug
  message := "Settlement attempt committed"
  fields := [("attempt", toString attempt), ("spin_id", toString s.id)]

def spinApplied (s : Wager) (outcome : String) : Event where
  level := .debug
  message := "Spin applied"
  fields :=
    [("account_id", toString s.accountId), ("bet", toString s.bet), ("win", toString s.win),
     ("outcome", outcome)]

def balanceAdjusted (id : AccountId) (delta before after : Decimal) : Event where
  level := .debug
  message := "Balance adjusted"
  fields :=
    [("account_id", toString id), ("delta", toString delta),
     ("balance_before", toString before), ("balance_after", toString after)]

def accountOpened (a : Account) : Event where
  level := .info
  message := "Account opened"
  fields := [("account_id", toString a.id), ("external_id", toString a.externalId)]

def depositApplied (ext : Identifier) (amount balance : Decimal) : Event where
  level := .info
  message := "Deposit applied"
  fields :=
    [("external_id", toString ext), ("amount", toString amount), ("balance", toString balance)]

def withdrawalApplied (ext : Identifier) (amount balance : Decimal) : Event where
  level := .info
  message := "Withdrawal applied"
  fields :=
    [("external_id", toString ext), ("amount", toString amount), ("balance", toString balance)]

end Event

end WagerLedger
