import WagerLedger.Config.Environment
import WagerLedger.Odds
import WagerLedger.Settlement.Backoff

/-! # Configuration of the settlements

Odds and backoff, read from nine variables and then checked as a whole: first every variable
is read, in a fixed order, then every bound is checked, in an order of its own. -/
namespace WagerLedger

structure Settings where
  odds : Odds
  retry : RetryPlan
deriving DecidableEq

namespace Settings

def standard : Settings := ⟨.standard, .standard⟩

def requireProbability (name : String) (p : Binary64) : Except ConfigError Unit :=
  if p.inUnitInterval then .ok () else .error (.invalid name (.improbable p))

def requireMultiplier (name : String) (m : Decimal) : Except ConfigError Unit :=
  if m.isNegative then .error (.invalid name (.negativeMultiplier m)) else .ok ()

/-- Checks the bounds of the backoff. -/
def validateRetry (r : RetryPlan) : Except ConfigError Unit :=
  if r.initialInterval.isZero then
    .error (.invalid "SPIN_RETRY_INITIAL_INTERVAL_MS" .notPositive)
  else if !r.multiplier.isFinite || r.multiplier.less Binary64.one then
    .error (.invalid "SPIN_RETRY_MULTIPLIER" (.notGrowing r.multiplier))
  else if r.maxInterval.nanos < r.initialInterval.nanos then
    .error (.invalid "SPIN_RETRY_MAX_INTERVAL_MS" (.belowInitialInterval r.initialInterval))
  else if !r.randomizationFactor.inUnitInterval then
    .error (.invalid "SPIN_RETRY_RANDOMIZATION" .outsideUnitInterval)
  else .ok ()

def validate (c : Settings) : Except ConfigError Unit := do
  requireProbability "THREE_MATCH_PROBABILITY" c.odds.threeMatchProbability
  requireProbability "TWO_MATCH_PROBABILITY" c.odds.twoMatchProbability
  requireMultiplier "MULTIPLIER_THREE" c.odds.threeMatchMultiplier
  requireMultiplier "MULTIPLIER_TWO" c.odds.twoMatchMultiplier
  validateRetry c.retry

/-- Reads all variables, without a check of their bounds. -/
def read (env : Environment) : Except ConfigError Settings := do
  let d := standard
  let p3 ← env.readOr "THREE_MATCH_PROBABILITY" Environment.readDouble d.odds.threeMatchProbability
  let p2 ← env.readOr "TWO_MATCH_PROBABILITY" Environment.readDouble d.odds.twoMatchProbability
  let m3 ← env.readOr "MULTIPLIER_THREE" Environment.readDecimal d.odds.threeMatchMultiplier
  let m2 ← env.readOr "MULTIPLIER_TWO" Environment.readDecimal d.odds.twoMatchMultiplier
  let initial ←
    env.readOr "SPIN_RETRY_INITIAL_INTERVAL_MS" Environment.readMillis d.retry.initialInterval
  let multiplier ← env.readOr "SPIN_RETRY_MULTIPLIER" Environment.readDouble d.retry.multiplier
  let elapsed ← env.readOr "SPIN_RETRY_MAX_ELAPSED_MS" Environment.readMillis d.retry.maxElapsed
  let interval ← env.readOr "SPIN_RETRY_MAX_INTERVAL_MS" Environment.readMillis d.retry.maxInterval
  let factor ←
    env.readOr "SPIN_RETRY_RANDOMIZATION" Environment.readDouble d.retry.randomizationFactor
  return ⟨⟨p3, p2, m3, m2⟩, ⟨initial, multiplier, elapsed, interval, factor⟩⟩

def ofEnvironment (env : Environment) : Except ConfigError Settings := do
  let c ← read env
  c.validate
  return c

end Settings

end WagerLedger
