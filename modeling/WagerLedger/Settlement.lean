import WagerLedger.Config.Settings
import WagerLedger.Ledger.Calls
import WagerLedger.Settlement.Retry

/-! # Settling spins

An attempt runs in one transaction: it finds the account, takes off the bet, draws the
outcome, adds a win and appends the spin. It is committed only if the context is not over at
its end, and rolled back after any failure, so nobody sees a bet without its spin. -/
namespace WagerLedger

/-- The newest spins that a history shows unless told otherwise. -/
def usualHistoryLimit : Int := 50

structure Settlement where
  context : Context
  externalId : Identifier
  bet : Decimal
  odds : Odds
  started : Nat
  retry : Retry

namespace Settlement

open LedgerProgram

/-- The same program with the settlement's meaning of its errors. -/
def ofLedger {α : Type} (p : LedgerProgram α) (f : LedgerError → SettlementError) : SpinProgram α :=
  ExceptT.mk (Except.mapError f <$> p.run)

def resolve (ext : Identifier) : SpinProgram Account := do
  match ← ofLedger (call (.find ext)) .ofLedger with
  | some a => return a
  | none => throw (.accountNotFound ext)

/-- The win of a bet as it is paid: cut once to the places of the ledger. -/
def payout (odds : Odds) (bet : Decimal) (o : Outcome) : Except SettlementError Decimal :=
  match odds.win? bet o with
  | some win => .ok (win.truncate ledgerScale)
  | none => .error (.payoutOverflow bet (o.multiplier odds))

/-- Pays out a win. A failure here is final: the bet is already taken off. -/
def payWin (id : AccountId) (win : Decimal) : SpinProgram Unit :=
  if win.isPositive then do
    let _ ← ofLedger (credit id win) .storage
    return ()
  else return ()

def apply (odds : Odds) (ext : Identifier) (bet : Decimal) : SpinProgram Spin := do
  let a ← resolve ext
  let _ ← ofLedger (debit a.id bet) .ofLedger
  let words ← ExceptT.lift (Program.request .entropy)
  let outcome := (odds.spin words).1
  let win ← ExceptT.mk (pure (payout odds bet outcome))
  payWin a.id win
  let record : Wager := ⟨a.id, bet, win⟩
  let spin ← ofLedger (call (.append record)) .ofLedger
  ExceptT.lift (Program.request (.emit (.spinApplied record (toString outcome))))
  return spin

/-- Commits on success and rolls back on failure. -/
def finish {α : Type} (r : Except SettlementError α) : SpinProgram α :=
  match r with
  | .ok a => do
    ofLedger commit .ofLedger
    return a
  | .error e => do
    ExceptT.lift (Program.rollBack e.message)
    throw e

/-- Fails with the context's error if it is over. -/
def checkContext (c : Context) : SpinProgram Unit := do
  match ← ExceptT.lift (Program.request (.check c)) with
  | some e => throw e
  | none => return ()

/-- What is done in the transaction of an attempt, and the last look at the context. -/
def applyChecked (c : Context) (odds : Odds) (ext : Identifier) (bet : Decimal) :
    SpinProgram Spin := do
  let spin ← ExceptT.mk ((apply odds ext bet).run.against c)
  checkContext c
  return spin

def attempt (c : Context) (odds : Odds) (ext : Identifier) (bet : Decimal) (n : UInt32) :
    SpinProgram Spin := do
  checkContext c
  ExceptT.mk ((ofLedger begin .ofLedger).run.against c)
  let spin ← finish (← ExceptT.lift (applyChecked c odds ext bet).run)
  ExceptT.lift (Program.request (.emit (.attemptCommitted n spin)))
  return spin

/-- A bet has to be positive and to fit the ledger. -/
def acceptsBet (bet : Decimal) : Bool := bet.isPositive && bet.fitsLedger

def start (config : Settings) (c : Context) (ext : Identifier) (bet : Decimal) :
    Program (Settlement ⊕ Except SettlementError Spin) :=
  if acceptsBet bet then do
    let started ← Program.request .clock
    let retry ← Retry.start config.retry
    return .inl ⟨c, ext, bet, config.odds, started, retry⟩
  else return .inr (.error (.invalidBet bet))

def report (s : Settlement) (r : Except SettlementError Spin) : Program Unit := do
  let elapsed ← Retry.elapsedSince s.started
  match r with
  | .ok spin => Program.request (.emit (.settled spin elapsed))
  | .error e => Program.request (.emit (.settlementFailed s.externalId s.bet elapsed e))

/-- One round: an attempt and what follows it. -/
def round (s : Settlement) : Program (Settlement ⊕ Except SettlementError Spin) := do
  match ← s.retry.round s.context (attempt s.context s.odds s.externalId s.bet) with
  | .inl retry => return .inl { s with retry := retry }
  | .inr r => do
    s.report r
    return .inr r

/-- The spins of an account, newest first. -/
def history (ext : Identifier) (limit : Int) : SpinProgram (List Spin) := do
  ofLedger begin .ofLedger
  let r ← ExceptT.lift (listSpins ext limit).run
  finish r
where
  listSpins (ext : Identifier) (limit : Int) : SpinProgram (List Spin) := do
    let a ← resolve ext
    ofLedger (call (.list a.id (max limit 0))) .ofLedger

end Settlement

end WagerLedger
