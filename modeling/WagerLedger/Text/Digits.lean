/-! # Runs of digits

Writing naturals in base ten and sixteen, and reading bounded whole numbers. A reader stops
at its first fault, so an earlier wrong character hides a later overflow and the reverse. -/
namespace WagerLedger.Digits

def ofNat (n : Nat) : List Char := Nat.toDigits 10 n

/-- The digits of `n`, with zeros in front up to `width`. -/
def padded (width n : Nat) : List Char :=
  let ds := ofNat n
  List.replicate (width - ds.length) '0' ++ ds

/-- The digits of `m` with a point in front of the last `places` of them. -/
def pointed (m places : Nat) : List Char :=
  if places = 0 then ofNat m
  else
    let ds := padded (places + 1) m
    ds.take (ds.length - places) ++ '.' :: ds.drop (ds.length - places)

/-- The sixteen-based digits of `n`, with zeros in front up to `width`. -/
def hex (width n : Nat) : List Char :=
  let ds := Nat.toDigits 16 n
  List.replicate (width - ds.length) '0' ++ ds

def value (c : Char) : Nat := c.toNat - '0'.toNat

def toNat (ds : List Char) : Nat := Nat.ofDigitChars 10 ds 0

def hexValue? (c : Char) : Option Nat :=
  if c.isDigit then some (value c)
  else if 'a' ≤ c ∧ c ≤ 'f' then some (c.toNat - 'a'.toNat + 10)
  else if 'A' ≤ c ∧ c ≤ 'F' then some (c.toNat - 'A'.toNat + 10)
  else none

/-- The number that a run of sixteen-based digits writes. -/
def hexNat? (cs : List Char) : Option Nat :=
  cs.foldlM (fun n c => (hexValue? c).map (16 * n + ·)) 0

end Digits

/-- What keeps a text from being a whole number within a bound. -/
inductive WholeNumberError
  | empty
  | invalidDigit
  | tooLarge
deriving DecidableEq

def WholeNumberError.message : WholeNumberError → String
  | .empty => "cannot parse integer from empty string"
  | .invalidDigit => "invalid digit found in string"
  | .tooLarge => "number too large to fit in target type"

namespace Digits

/-- Continues a number `n` by the digits `cs`, staying at most `largest`. -/
def extend (largest : Nat) : Nat → List Char → Except WholeNumberError Nat
  | n, [] => .ok n
  | n, c :: cs =>
    if c.isDigit then
      if 10 * n + value c ≤ largest then extend largest (10 * n + value c) cs
      else .error .tooLarge
    else .error .invalidDigit

/-- A whole number of at most `largest`; one plus sign may stand in front. -/
def read (largest : Nat) (cs : List Char) : Except WholeNumberError Nat :=
  match cs with
  | [] => .error .empty
  | ['+'] => .error .invalidDigit
  | '+' :: ds => extend largest 0 ds
  | ds => extend largest 0 ds

end WagerLedger.Digits
