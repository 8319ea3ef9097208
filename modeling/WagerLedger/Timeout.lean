import WagerLedger.Ledger.Error

/-! # Time limits of queries

A query that takes longer than its limit is given up at the limit; one that ends by then has
its own result. Work and limit are waited for like any sleep, so both moments fall on whole
milliseconds of the clock, and neither is further away than the longest sleep. -/
namespace WagerLedger

def queryLimit : Duration := .ofSeconds 5

/-- The limit of beginning, committing or rolling back a transaction. -/
def transactionLimit : Duration := .ofSeconds 10

/-- The result of a query that takes `work`, and the moment at which it is there. -/
def withLimit {α : Type} (limit work : Duration) (outcome : Except DatabaseError α) :
    Except LedgerError α × Nat :=
  if work.sleepMillis ≤ limit.sleepMillis then
    (outcome.mapError .database, work.sleepMillis)
  else (.error (.timedOut limit), limit.sleepMillis)

end WagerLedger
