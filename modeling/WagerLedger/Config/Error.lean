import WagerLedger.Duration
import WagerLedger.Number.Binary64.Shortest
import WagerLedger.Number.Decimal.Text
import WagerLedger.Text.Quoted

/-! # What can be wrong with a configuration

A required variable is missing, or a variable has no acceptable value; then the cause is that
its text cannot be read or that its value is out of bounds. -/
namespace WagerLedger

inductive ConfigFault
  | unreadable (text detail : String)
  | improbable (value : Binary64)
  | negativeMultiplier (value : Decimal)
  | notPositive
  | notGrowing (value : Binary64)
  | belowInitialInterval (initial : Duration)
  | outsideUnitInterval
  | aboveMaximum (maximum : Nat)
deriving DecidableEq

def ConfigFault.message : ConfigFault → String
  | .unreadable text detail => "Cannot parse " ++ Quoted.ofString text ++ ": " ++ detail
  | .improbable v => "Probability must be within [0, 1], got " ++ toString v
  | .negativeMultiplier v => "Multiplier must be non-negative, got " ++ toString v
  | .notPositive => "Must be greater than 0"
  | .notGrowing v => "Must be a finite value >= 1.0, got " ++ toString v
  | .belowInitialInterval d => "Must be at least the initial interval (" ++ toString d ++ ")"
  | .outsideUnitInterval => "Must be within [0, 1]"
  | .aboveMaximum n => "Must not exceed max connections (" ++ toString n ++ ")"

inductive ConfigError
  | missing (name hint : String)
  | invalid (name : String) (fault : ConfigFault)
deriving DecidableEq

namespace ConfigError

def variableName : ConfigError → String
  | .missing name _ => name
  | .invalid name _ => name

def message : ConfigError → String
  | .missing name hint => "Missing required environment variable: " ++ name ++ "\nHint: " ++ hint
  | .invalid name fault => "Invalid configuration for " ++ name ++ ": " ++ fault.message

end ConfigError

end WagerLedger
