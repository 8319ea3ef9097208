import WagerLedger.Number.Binary64.Arithmetic
import WagerLedger.Number.Decimal.Arithmetic
import WagerLedger.Words

/-! # Odds and payouts

A spin first draws for three matching symbols and, only if that misses, draws anew for two.
The two probabilities are independent, so the chance of a win is `p3 + (1 - p3) * p2`. The
win is the bet times the multiplier of the outcome. -/
namespace WagerLedger

structure Odds where
  threeMatchProbability : Binary64
  twoMatchProbability : Binary64
  threeMatchMultiplier : Decimal
  twoMatchMultiplier : Decimal
deriving DecidableEq

namespace Odds

/-- Five and thirty percent, paying ten and two times the bet. -/
def standard : Odds where
  threeMatchProbability := Binary64.round false 5 100
  twoMatchProbability := Binary64.round false 30 100
  threeMatchMultiplier := .ten
  twoMatchMultiplier := .two

end Odds

inductive Outcome
  | threeMatch
  | twoMatch
  | noMatch
deriving DecidableEq

namespace Outcome

protected def toString : Outcome → String
  | .threeMatch => "three_match"
  | .twoMatch => "two_match"
  | .noMatch => "no_match"

instance : ToString Outcome := ⟨Outcome.toString⟩

def ofString? : String → Option Outcome
  | "three_match" => some .threeMatch
  | "two_match" => some .twoMatch
  | "no_match" => some .noMatch
  | _ => none

def multiplier (o : Outcome) (odds : Odds) : Decimal :=
  match o with
  | .threeMatch => odds.threeMatchMultiplier
  | .twoMatch => odds.twoMatchMultiplier
  | .noMatch => .zero

end Outcome

/-- A probability of zero never hits, even on a draw of zero. -/
def isHit (draw probability : Binary64) : Bool :=
  (Binary64.zero false).less probability && draw.atMost probability

namespace Odds

/-- The outcome of one spin. -/
def spin (odds : Odds) (words : Words) : Outcome × Words :=
  let (first, words) := words.draw
  if isHit first odds.threeMatchProbability then (.threeMatch, words)
  else
    let (second, words) := words.draw
    (if isHit second odds.twoMatchProbability then .twoMatch else .noMatch, words)

/-- The exact win rounded to a decimal, unless it is too large for one. -/
def win? (odds : Odds) (bet : Decimal) (o : Outcome) : Option Decimal :=
  bet.mul? (o.multiplier odds)

end Odds

end WagerLedger
