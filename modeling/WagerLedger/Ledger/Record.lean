import WagerLedger.Identifier
import WagerLedger.Number.Decimal.Arithmetic

/-! # Accounts and spins

Every stored amount has at most four places. A spin records a bet and what it won; its net
is the change of the balance that the two make together. -/
namespace WagerLedger

abbrev AccountId := Int

abbrev SpinId := Int

/-- The places that every stored amount has room for. -/
def ledgerScale : Nat := 4

/-- Whether an amount can be stored without rounding. -/
def Decimal.fitsLedger (d : Decimal) : Bool := decide (d.normalize.scale ≤ ledgerScale)

structure Account where
  id : AccountId
  externalId : Identifier
  balance : Decimal
deriving DecidableEq

/-- A spin before it has an id. -/
structure Wager where
  accountId : AccountId
  bet : Decimal
  win : Decimal
deriving DecidableEq

structure Spin extends Wager where
  id : SpinId
deriving DecidableEq

/-- The win less the bet, unless that is no decimal. -/
def Spin.net? (s : Spin) : Option Decimal := s.win.sub? s.bet

end WagerLedger
