import WagerLedger.Number.Binary64.Arithmetic
import WagerLedger.Text.Digits

/-! # Numbers on the wire

A number is read from its digits. A whole number of 64 bits is exact. Any other is a double,
found by at most one division or product of its leading digits with a power of ten: each of
the two is rounded, so the result may be a neighbour of the nearest double. -/
namespace WagerLedger.Wire

structure Numeral where
  negative : Bool
  whole : List Char
  places : List Char
  exponent : Option (Bool × List Char)
deriving DecidableEq

inductive Number
  | whole (n : Int)
  | double (x : Binary64)
deriving DecidableEq

namespace Numeral

def largestWord : Nat := 18446744073709551615

/-- Extends a number by digits while it stays within a bound; the digits left over. -/
def gather (largest : Nat) : Nat → List Char → Nat × List Char
  | n, [] => (n, [])
  | n, c :: cs =>
    if 10 * n + Digits.value c ≤ largest then gather largest (10 * n + Digits.value c) cs
    else (n, c :: cs)

def power (k : Nat) : Binary64 := Binary64.roundDecimal false 1 (k : Int)

/-- Divides by a power of ten in strides of 308 places. -/
def divide (x : Binary64) (k : Nat) : Nat → Binary64
  | 0 => x
  | fuel + 1 =>
    if k ≤ 308 then x / power k
    else if x = Binary64.zero false then x
    else divide (x / power 308) (k - 308) fuel

/-- A significand times a power of ten, unless that is too large for a double. -/
def scale (significand : Nat) : Int → Option Binary64
  | .ofNat k =>
    let x := Binary64.ofNat significand
    if k ≤ 308 then
      let y := x * power k
      if y.isFinite then some y else none
    else if significand = 0 then some x else none
  | .negSucc k => some (divide (Binary64.ofNat significand) (k + 1) (k + 1))

def signed (negative : Bool) (x : Binary64) : Binary64 := if negative then -x else x

/-- The exponent that the digits behind the mark stand for, within 31 bits. -/
def exponentOf (ds : List Char) : Option Int :=
  match gather 2147483647 0 ds with
  | (n, []) => some n
  | _ => none

/-- The significand and the exponent in front of the mark. -/
def leading (n : Numeral) : Nat × Int :=
  let (s, spilled) := gather largestWord 0 n.whole
  let (s, left) := gather largestWord s n.places
  (s, (spilled.length : Int) - ((n.places.length : Int) - left.length))

def toDouble (n : Numeral) : Option Binary64 :=
  let (s, e) := n.leading
  match n.exponent with
  | none => signed n.negative <$> scale s e
  | some (below, ds) =>
    match exponentOf ds with
    | some k => signed n.negative <$> scale s (if below then e - k else e + k)
    | none =>
      if s = 0 ∨ below then some (Binary64.zero n.negative) else none

/-- A whole number in the range of the words with or without sign; zero has no sign. -/
def toWhole? (n : Numeral) : Option Int :=
  if n.places.isEmpty && n.exponent.isNone then
    match gather largestWord 0 n.whole with
    | (m, []) =>
      if !n.negative then some m
      else if m = 0 ∨ 9223372036854775808 < m then none
      else some (-(m : Int))
    | _ => none
  else none

/-- The number, unless it is too large. -/
def toNumber (n : Numeral) : Option Number :=
  match n.toWhole? with
  | some k => some (.whole k)
  | none => .double <$> n.toDouble

def ofInt (k : Int) : Numeral := ⟨decide (k < 0), Digits.ofNat k.natAbs, [], none⟩

def chars (n : Numeral) : List Char :=
  (if n.negative then ['-'] else []) ++ n.whole ++
    (if n.places.isEmpty then [] else '.' :: n.places) ++
    match n.exponent with
    | none => []
    | some (below, ds) => 'e' :: (if below then ['-'] else []) ++ ds

end Numeral

end WagerLedger.Wire
