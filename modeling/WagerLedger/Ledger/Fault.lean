import WagerLedger.Ledger.Error

/-! # Injected faults

Each point of the store at which a call can fail has a window: so many calls pass, then so
many fail. While no failures are left at a point, its calls pass and its window stands. -/
namespace WagerLedger

inductive FaultPoint
  | begin
  | findAccount
  | lockBalance
  | writeBalance
  | appendSpin
  | commit
  | rollback
deriving DecidableEq

namespace FaultPoint

def all : List FaultPoint :=
  [.begin, .findAccount, .lockBalance, .writeBalance, .appendSpin, .commit, .rollback]

protected def toString : FaultPoint → String
  | .begin => "begin"
  | .findAccount => "find_account"
  | .lockBalance => "lock_balance"
  | .writeBalance => "write_balance"
  | .appendSpin => "append_spin"
  | .commit => "commit"
  | .rollback => "rollback"

instance : ToString FaultPoint := ⟨FaultPoint.toString⟩

def ofString? (s : String) : Option FaultPoint := all.find? (toString · == s)

end FaultPoint

/-- So many calls to let pass, then so many to fail. -/
structure FaultWindow where
  skip : Nat
  remaining : Nat
deriving DecidableEq

structure Faults where
  window : FaultPoint → FaultWindow

namespace Faults

def none : Faults := ⟨fun _ => ⟨0, 0⟩⟩

/-- Opens a window at a point, in place of the one that was there. -/
def inject (f : Faults) (p : FaultPoint) (skip times : Nat) : Faults :=
  ⟨fun q => if q = p then ⟨skip, times⟩ else f.window q⟩

def error (p : FaultPoint) : LedgerError := .unavailable ("injected fault at " ++ toString p)

/-- One call through a window: whether it fails, and the window after it. -/
def pass (w : FaultWindow) : Bool × FaultWindow :=
  if w.remaining = 0 then (false, w)
  else if w.skip = 0 then (true, { w with remaining := w.remaining - 1 })
  else (false, { w with skip := w.skip - 1 })

def visit (f : Faults) (p : FaultPoint) : Except LedgerError Unit × Faults :=
  let (fails, w) := pass (f.window p)
  (if fails then .error (error p) else .ok (), f.inject p w.skip w.remaining)

end Faults

end WagerLedger
