import WagerLedger.Settlement.Context

/-! # Contexts in the hands of callers

Callers make contexts, copy them and give them deadlines; they set signals by their handles and
let go of the handles; and time goes by, to the nanosecond. All this in any order that they can:
a context is used only once it is there, a handle only while it is, and a timeout only where the
clock can tell its end. -/
namespace WagerLedger

inductive CallerStep
  | background
  /-- A context with a new signal, and the handle of the signal. -/
  | cancellable
  | clone (k : Nat)
  | withDeadline (k : Nat) (d : Instant)
  | withTimeout (k : Nat) (limit : Duration)
  | cancel (i : SignalId)
  | dropHandle (i : SignalId)
  | advance (nanos : Nat)
deriving DecidableEq

/-- The contexts are numbered as they were made. -/
structure Caller where
  signals : Signals
  now : Instant
  contexts : List Context
deriving DecidableEq

namespace Caller

def start : Caller := ⟨.empty, 0, []⟩

/-- The handle of the signal has been made and is still there. -/
def holds (w : Caller) (i : SignalId) : Bool := (w.signals.get? i).any (!·.dropped)

def keep (w : Caller) (c : Context) : Caller := { w with contexts := w.contexts ++ [c] }

/-- Gives a context a deadline in its place. -/
def bound? (w : Caller) (k : Nat) (d : Instant) : Option Caller :=
  if k < w.contexts.length then
    some { w with contexts := w.contexts.modify k (·.withDeadline d) }
  else none

def step (w : Caller) : CallerStep → Option Caller
  | .background => some (w.keep .background)
  | .cancellable =>
    let (i, signals) := w.signals.create
    some ({ w with signals }.keep ⟨some i, none⟩)
  | .clone k => w.contexts[k]?.map w.keep
  | .withDeadline k d => w.bound? k d
  | .withTimeout k limit => (instantAfter? w.now limit).bind (w.bound? k)
  | .cancel i => if w.holds i then some { w with signals := w.signals.cancel i } else none
  | .dropHandle i => if w.holds i then some { w with signals := w.signals.drop i } else none
  | .advance nanos => some { w with now := w.now + nanos }

/-- What the steps lead to, unless one of them cannot be taken. -/
def run (steps : List CallerStep) : Option Caller := steps.foldlM step start

end Caller

end WagerLedger
