import WagerLedger.Duration
import WagerLedger.Settlement.Error

/-! # Cancellation and deadlines

A caller may give up on a settlement: by a signal, which stays set once it is set, or by a
deadline. `check` looks at both at one moment; `done` is what a wait for either has come to.
A signal whose handle is gone can no longer be set, and a wait for it never ends. -/
namespace WagerLedger

/-- Instants are nanoseconds since the start of the clock. -/
abbrev Instant := Nat

structure Signal where
  cancelled : Bool
  dropped : Bool
deriving DecidableEq

abbrev SignalId := Nat

structure Context where
  signal : Option SignalId
  deadline : Option Instant
deriving DecidableEq

namespace Context

def background : Context := ⟨none, none⟩

/-- Of two deadlines the earlier one counts. -/
def withDeadline (c : Context) (d : Instant) : Context :=
  { c with deadline := some (match c.deadline with | some e => min e d | none => d) }

end Context

/-- The last instant that the clock can tell, counted from its start: it holds fewer than 2^63
seconds, of which a hundred thousand lie before the start. -/
def lastInstant : Instant := 9223372036854675807999999999

/-- The instant a span after another, unless the clock cannot tell it. -/
def instantAfter? (start : Instant) (d : Duration) : Option Instant :=
  if start + d.nanos ≤ lastInstant then some (start + d.nanos) else none

/-- The signals of all handles made so far. -/
structure Signals where
  list : List Signal
deriving DecidableEq

namespace Signals

def empty : Signals := ⟨[]⟩

def get? (s : Signals) (i : SignalId) : Option Signal := s.list[i]?

/-- A new signal, and the id of its handle. -/
def create (s : Signals) : SignalId × Signals := (s.list.length, ⟨s.list ++ [⟨false, false⟩]⟩)

def cancel (s : Signals) (i : SignalId) : Signals :=
  ⟨s.list.modify i ({ · with cancelled := true })⟩

def drop (s : Signals) (i : SignalId) : Signals :=
  ⟨s.list.modify i ({ · with dropped := true })⟩

def isCancelled (s : Signals) (i : SignalId) : Bool := (s.get? i).any (·.cancelled)

end Signals

/-- What a wait for a signal has come to. -/
inductive SignalWait
  | pending
  | set
  | lost
deriving DecidableEq

def Signal.wait (s : Signal) : SignalWait :=
  if s.cancelled then .set else if s.dropped then .lost else .pending

namespace Context

/-- Looks at the context now; a cancellation comes before an expired deadline. -/
def check (c : Context) (signals : Signals) (now : Instant) : Option SettlementError :=
  if c.signal.any signals.isCancelled then some .cancelled
  else if c.deadline.any (· ≤ now) then some .deadlineExceeded
  else none

/-- Whether the wait for the signal is over. -/
def cancelledBy (c : Context) (signals : Signals) : Bool :=
  match c.signal.bind signals.get? with
  | some s => s.wait == .set
  | none => false

/-- The whole millisecond at which the timer of the deadline rings. -/
def alarm? (c : Context) : Option Nat :=
  c.deadline.map fun d => (d + (Duration.nanosPerMilli - 1)) / Duration.nanosPerMilli

/-- The end of a wait for either, at a whole millisecond, if it has come. The signal is looked
at first. -/
def done? (c : Context) (signals : Signals) (clock : Nat) : Option SettlementError :=
  if c.cancelledBy signals then some .cancelled
  else if c.alarm?.any (· ≤ clock) then some .deadlineExceeded
  else none

end Context

end WagerLedger
