import WagerLedger.Duration
import WagerLedger.Words

/-! # Backoff

The delays between attempts: each is drawn from a band around the current interval, which
then grows by a factor up to a cap. No delay is granted that would end past the budget. -/
namespace WagerLedger

structure RetryPlan where
  initialInterval : Duration
  multiplier : Binary64
  maxElapsed : Duration
  maxInterval : Duration
  randomizationFactor : Binary64
deriving DecidableEq

/-- Half a second, growing by half up to a minute, within two seconds, half of it random. -/
def RetryPlan.standard : RetryPlan where
  initialInterval := .ofMillis 500
  multiplier := Binary64.round false 15 10
  maxElapsed := .ofSeconds 2
  maxInterval := .ofSeconds 60
  randomizationFactor := Binary64.round false 5 10

/-- What keeps a delay from being computed. -/
inductive DelayError
  | emptyBand
  | notADuration
  | durationOverflow
deriving DecidableEq

/-- The interval that the next delay is drawn around. -/
structure Backoff where
  config : RetryPlan
  current : Duration
deriving DecidableEq

namespace Backoff

def start (config : RetryPlan) : Backoff := ⟨config, config.initialInterval⟩

/-- The place of a word in [0, 1): its top 52 bits over 2^52. -/
def place (w : BitVec 64) : Binary64 :=
  Binary64.round false (w.toNat / 4096) 4503599627370496

/-- A draw from the band between two bounds, both included. -/
def drawBetween (low high : Binary64) (words : Words) : Except DelayError (Binary64 × Words) :=
  if low.isFinite && high.isFinite && low.atMost high && (high - low).isFinite then
    let (w, words) := words.next
    .ok (place w * (high - low) + low, words)
  else .error .emptyBand

def ofSeconds (x : Binary64) : Except DelayError Duration :=
  match Duration.ofDouble? x with
  | some d => .ok d
  | none => .error .notADuration

/-- The interval itself, or with a positive factor `f` a draw from `[1 - f, 1 + f]` of it. -/
def drawDelay (interval : Duration) (factor : Binary64) (words : Words) :
    Except DelayError (Duration × Words) :=
  if factor.atMost (Binary64.zero false) then .ok (interval, words)
  else do
    let secs := interval.toDouble
    let delta := secs * factor
    let (x, words) ← drawBetween (secs - delta) (secs + delta) words
    return (← ofSeconds x, words)

/-- The interval after `current`, capped. -/
def grow (config : RetryPlan) (current : Duration) : Except DelayError Duration :=
  ofSeconds ((current.toDouble * config.multiplier).least config.maxInterval.toDouble)

/-- The next delay, or none once sleeping it would overrun the budget. -/
def next (b : Backoff) (elapsed : Duration) (words : Words) :
    Except DelayError (Option Duration × Backoff × Words) := do
  let (delay, words) ← drawDelay b.current b.config.randomizationFactor words
  match elapsed.add? delay with
  | none => .error .durationOverflow
  | some total =>
    if b.config.maxElapsed.nanos < total.nanos then return (none, b, words)
    else return (some delay, { b with current := ← grow b.config b.current }, words)

end Backoff

end WagerLedger
