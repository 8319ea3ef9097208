import WagerLedger.Number.Rounding

/-! # Doubles

A finite double is a sign and an integer significand below 2^53 over a power of two, with
the significand at least 2^52 unless the exponent is the least one: each number but zero has
one form. Every operation computes the exact result and rounds it once, to the nearest
double and, of two, to the one with the even significand. -/
namespace WagerLedger

def Binary64.Canonical (m : Nat) (e : Int) : Prop :=
  m < 9007199254740992 ∧ -1074 ≤ e ∧ e ≤ 971 ∧ (4503599627370496 ≤ m ∨ e = -1074)

instance (m : Nat) (e : Int) : Decidable (Binary64.Canonical m e) :=
  inferInstanceAs (Decidable (_ ∧ _ ∧ _ ∧ _))

inductive Binary64
  | nan (negative : Bool)
  | infinity (negative : Bool)
  | finite (negative : Bool) (significand : Nat) (exponent : Int)
      (canonical : Binary64.Canonical significand exponent)
deriving DecidableEq

namespace Binary64

def zero (negative : Bool) : Binary64 := .finite negative 0 (-1074) (by decide)

/-- The double with these parts; one that is out of range is infinite. -/
def pack (negative : Bool) (m : Nat) (e : Int) : Binary64 :=
  if h : Canonical m e then .finite negative m e h else .infinity negative

/-- The fraction `a / b` in units of `2 ^ e`. -/
def inUnits (a b : Nat) : Int → Nat × Nat
  | .ofNat k => (a, b * twoTo k)
  | .negSucc k => (a * twoTo (k + 1), b)

/-- The exponent of the last place that a double has near `a / b`. -/
def lastPlace (a b : Nat) : Int :=
  let e := (Nat.log2 a : Int) - Nat.log2 b - 52
  let (c, d) := inUnits a b e
  max (-1074) (if c / d < 4503599627370496 then e - 1 else e)

/-- The double nearest to `a / b`, for a positive `b`. -/
def round (negative : Bool) (a b : Nat) : Binary64 :=
  if a = 0 then zero negative
  else
    let e := lastPlace a b
    let (c, d) := inUnits a b e
    let m := roundEven c d
    if m < 9007199254740992 then pack negative m e else pack negative 4503599627370496 (e + 1)

/-- The double nearest to `c * 2 ^ e`; an exact zero takes the given sign. -/
def roundScaled (zeroNegative : Bool) (c e : Int) : Binary64 :=
  if c = 0 then zero zeroNegative
  else match e with
    | .ofNat k => round (decide (c < 0)) (c.natAbs * twoTo k) 1
    | .negSucc k => round (decide (c < 0)) c.natAbs (twoTo (k + 1))

/-- The double nearest to `d * 10 ^ q`. -/
def roundDecimal (negative : Bool) (d : Nat) : Int → Binary64
  | .ofNat k => round negative (d * tenTo k) 1
  | .negSucc k => round negative d (tenTo (k + 1))

def ofNat (n : Nat) : Binary64 := round false n 1

def fraction (m : Nat) : Int → Nat × Nat
  | .ofNat k => (m * twoTo k, 1)
  | .negSucc k => (m, twoTo (k + 1))

def isNegative : Binary64 → Bool
  | .nan n | .infinity n | .finite n _ _ _ => n

def isFinite : Binary64 → Bool
  | .finite .. => true
  | _ => false

def isNan : Binary64 → Bool
  | .nan _ => true
  | _ => false

def toRat? : Binary64 → Option Rat
  | .finite n m e _ =>
    let (a, b) := fraction m e
    some (mkRat (if n then -(a : Int) else a) b)
  | _ => none

/-- Sign bit, eleven bits of exponent, fifty-two of fraction. -/
def toBits : Binary64 → Nat
  | .nan n => signBit n + 9221120237041090560
  | .infinity n => signBit n + 9218868437227405312
  | .finite n m e _ =>
    signBit n + if m < 4503599627370496 then m else (e + 1074).toNat * 4503599627370496 + m
where
  signBit (n : Bool) : Nat := if n then 9223372036854775808 else 0

end Binary64

end WagerLedger
