import WagerLedger.Number.Binary64.Arithmetic
import WagerLedger.Text.Digits

/-! # Durations

Spans of whole nanoseconds, shorter than 2^64 seconds. Arithmetic that would leave the range
has no value. In doubles a span is its seconds, rounded to the nearest nanosecond on the way
back. -/
namespace WagerLedger

structure Duration where
  nanos : Nat
  nanos_lt : nanos < 18446744073709551616000000000
deriving DecidableEq

namespace Duration

def nanosPerSecond : Nat := 1000000000

def nanosPerMilli : Nat := 1000000

def ofNanos? (n : Nat) : Option Duration :=
  if h : n < 18446744073709551616000000000 then some ⟨n, h⟩ else none

protected def zero : Duration := ⟨0, by decide⟩

def longest : Duration := ⟨18446744073709551615999999999, by decide⟩

/-- A span past the range is the longest one. -/
def ofNanos (n : Nat) : Duration := (ofNanos? n).getD longest

def ofMillis (n : Nat) : Duration := ofNanos (n * nanosPerMilli)

def ofSeconds (n : Nat) : Duration := ofNanos (n * nanosPerSecond)

def seconds (d : Duration) : Nat := d.nanos / nanosPerSecond

def subsecond (d : Duration) : Nat := d.nanos % nanosPerSecond

def wholeMillis (d : Duration) : Nat := d.nanos / nanosPerMilli

/-- The whole milliseconds that cover the span. -/
def coveringMillis (d : Duration) : Nat := (d.nanos + (nanosPerMilli - 1)) / nanosPerMilli

/-- Thirty years of 365 days, in milliseconds. A timer that is set further ahead fires then. -/
def longestSleep : Nat := 946080000000

/-- The whole milliseconds that a sleep of this span takes. -/
def sleepMillis (d : Duration) : Nat := min d.coveringMillis longestSleep

def isZero (d : Duration) : Bool := d.nanos == 0

def add? (x y : Duration) : Option Duration := ofNanos? (x.nanos + y.nanos)

/-- The span in seconds: the double of the whole ones plus the double of the rest. -/
def toDouble (d : Duration) : Binary64 :=
  Binary64.ofNat d.seconds + Binary64.ofNat d.subsecond / Binary64.ofNat nanosPerSecond

/-- The span of so many seconds, to the nearest nanosecond, half to even. -/
def ofDouble? : Binary64 → Option Duration
  | .finite n m e _ =>
    if n && m != 0 then none
    else
      let (a, b) := Binary64.fraction m e
      ofNanos? (roundEven (a * nanosPerSecond) b)
  | _ => none

/-- A count of units with its exact fraction of `places` digits, zeros at its end dropped. -/
def unitText (whole part places : Nat) (unit : String) : String :=
  let ds := ((Digits.padded places part).reverse.dropWhile (· == '0')).reverse
  let fraction := if ds.isEmpty then [] else '.' :: ds
  String.ofList (Digits.ofNat whole ++ fraction) ++ unit

/-- The text in the largest unit of which there is at least one. -/
protected def toString (d : Duration) : String :=
  if nanosPerSecond ≤ d.nanos then unitText d.seconds d.subsecond 9 "s"
  else if nanosPerMilli ≤ d.nanos then
    unitText (d.nanos / nanosPerMilli) (d.nanos % nanosPerMilli) 6 "ms"
  else if 1000 ≤ d.nanos then unitText (d.nanos / 1000) (d.nanos % 1000) 3 "µs"
  else unitText d.nanos 0 0 "ns"

instance : ToString Duration := ⟨Duration.toString⟩

/-- A span of whole milliseconds, below 2^64 of them. -/
def readMillis (cs : List Char) : Except WholeNumberError Duration := do
  match ofNanos? ((← Digits.read 18446744073709551615 cs) * nanosPerMilli) with
  | some d => .ok d
  | none => .error .tooLarge

end Duration

end WagerLedger
