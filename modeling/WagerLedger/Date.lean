import WagerLedger.Text.Blank
import WagerLedger.Text.Digits

/-! # Days and moments

Days of the Gregorian calendar, extended in both directions, and moments of a day to the
nanosecond. A leap second is told as a second of which the nanoseconds go past a thousand
million. -/
namespace WagerLedger

def isLeapYear (y : Int) : Bool := y % 4 == 0 && (y % 100 != 0 || y % 400 == 0)

def daysInMonth (y : Int) (m : Nat) : Nat :=
  if m = 2 then if isLeapYear y then 29 else 28
  else if m = 4 ∨ m = 6 ∨ m = 9 ∨ m = 11 then 30 else 31

structure Date where
  year : Int
  month : Nat
  day : Nat
  month_mem : 1 ≤ month ∧ month ≤ 12
  day_mem : 1 ≤ day ∧ day ≤ daysInMonth year month
deriving DecidableEq

namespace Date

def ofParts? (y : Int) (m d : Nat) : Option Date :=
  if h : (1 ≤ m ∧ m ≤ 12) ∧ 1 ≤ d ∧ d ≤ daysInMonth y m then some ⟨y, m, d, h.1, h.2⟩ else none

def next (d : Date) : Option Date :=
  (ofParts? d.year d.month (d.day + 1)).or
    ((ofParts? d.year (d.month + 1) 1).or (ofParts? (d.year + 1) 1 1))

def previous (d : Date) : Option Date :=
  if 1 < d.day then ofParts? d.year d.month (d.day - 1)
  else if 1 < d.month then ofParts? d.year (d.month - 1) (daysInMonth d.year (d.month - 1))
  else ofParts? (d.year - 1) 12 31

end Date

structure Timestamp where
  date : Date
  second : Nat
  nanos : Nat
  second_lt : second < 86400
  nanos_lt : nanos < 2000000000
deriving DecidableEq

namespace Timestamp

def ofParts? (date : Date) (second nanos : Nat) : Option Timestamp :=
  if h : second < 86400 ∧ nanos < 2000000000 then some ⟨date, second, nanos, h.1, h.2⟩ else none

/-- The first and the last year that a moment can be in. -/
def firstYear : Int := -262143

def lastYear : Int := 262142

def inRange (d : Date) : Bool := decide (firstYear ≤ d.year ∧ d.year ≤ lastYear)

/-- The moment whose local time at an offset from universal time is given. -/
def ofLocal? (date : Date) (second nanos : Nat) (offset : Int) : Option Timestamp := do
  let s := (second : Int) - offset
  let (date, s) ←
    if s < 0 then date.previous.map (·, s + 86400)
    else if 86400 ≤ s then date.next.map (·, s - 86400)
    else some (date, s)
  if inRange date then ofParts? date s.toNat nanos else none

end Timestamp

end WagerLedger
