import WagerLedger.Number.Rounding

/-! # Decimals of 96 bits

A decimal is an integer coefficient below 2^96 in magnitude over a power of ten of at most
28. Two decimals may be the same number at different scales; `toRat` is the number, and
`normalize` the form of it with the smallest scale. A zero may be the trace of a negative
number that was rounded to it, which nothing but its text shows. -/
namespace WagerLedger

structure Decimal where
  coefficient : Int
  scale : Nat
  /-- Set on a zero that is written with a minus sign. -/
  minusZero : Bool
  coefficient_lt : coefficient.natAbs < 79228162514264337593543950336
  scale_le : scale ≤ 28
  coefficient_eq_zero : minusZero = true → coefficient = 0
deriving DecidableEq

namespace Decimal

/-- Two to the 96th: the first magnitude that no coefficient has. -/
def limit : Nat := 79228162514264337593543950336

def maxScale : Nat := 28

/-- The decimal with this coefficient and scale, when both are in range. -/
def ofParts? (c : Int) (s : Nat) : Option Decimal :=
  if h : c.natAbs < limit ∧ s ≤ maxScale then some ⟨c, s, false, h.1, h.2, nofun⟩ else none

/-- The number that a decimal stands for. -/
def toRat (d : Decimal) : Rat := mkRat d.coefficient (tenTo d.scale)

protected def zero : Decimal := ⟨0, 0, false, by decide, by decide, nofun⟩

protected def two : Decimal := ⟨2, 0, false, by decide, by decide, nofun⟩

protected def ten : Decimal := ⟨10, 0, false, by decide, by decide, nofun⟩

/-- Gives a zero the sign of the number that it was rounded from. -/
def signZero (negative : Bool) (d : Decimal) : Decimal :=
  if h : d.coefficient = 0 then
    { d with minusZero := negative, coefficient_eq_zero := fun _ => h }
  else d

theorem coefficient_signZero (n : Bool) (d : Decimal) :
    (d.signZero n).coefficient = d.coefficient := by
  unfold signZero; split <;> rfl

theorem scale_signZero (n : Bool) (d : Decimal) : (d.signZero n).scale = d.scale := by
  unfold signZero; split <;> rfl

/-- The sign of a zero is no part of the number. -/
theorem toRat_signZero (n : Bool) (d : Decimal) : (d.signZero n).toRat = d.toRat := by
  rw [toRat, toRat, coefficient_signZero, scale_signZero]

/-- The whole number `n`. -/
def ofInt? (n : Int) : Option Decimal := ofParts? n 0

def isZero (d : Decimal) : Bool := d.coefficient == 0

def isPositive (d : Decimal) : Bool := decide (0 < d.coefficient)

def isNegative (d : Decimal) : Bool := decide (d.coefficient < 0)

/-- The opposite number; a zero stays as it is. -/
protected def neg (d : Decimal) : Decimal :=
  { d with
    coefficient := -d.coefficient
    coefficient_lt := by rw [Int.natAbs_neg]; exact d.coefficient_lt
    coefficient_eq_zero := fun h => by rw [d.coefficient_eq_zero h, Int.neg_zero] }

protected def abs (d : Decimal) : Decimal :=
  { d with
    coefficient := d.coefficient.natAbs
    minusZero := false
    coefficient_lt := by rw [Int.natAbs_natCast]; exact d.coefficient_lt
    coefficient_eq_zero := nofun }

/-- Strips zeros from the end of the fraction. -/
def strip (c : Int) : Nat → Int × Nat
  | 0 => (c, 0)
  | s + 1 => if c % 10 = 0 then strip (c / 10) s else (c, s + 1)

theorem strip_natAbs_le (c : Int) (s : Nat) : (strip c s).1.natAbs ≤ c.natAbs := by
  induction s generalizing c with
  | zero => simp [strip]
  | succ s ih =>
    rw [strip]
    split
    · have := ih (c / 10); omega
    · exact Nat.le_refl _

theorem strip_scale_le (c : Int) (s : Nat) : (strip c s).2 ≤ s := by
  induction s generalizing c with
  | zero => simp [strip]
  | succ s ih =>
    rw [strip]
    split
    · exact Nat.le_succ_of_le (ih _)
    · exact Nat.le_refl _

/-- The same number at its smallest scale, a zero without sign. -/
def normalize (d : Decimal) : Decimal where
  coefficient := (strip d.coefficient d.scale).1
  scale := (strip d.coefficient d.scale).2
  minusZero := false
  coefficient_lt := Nat.lt_of_le_of_lt (strip_natAbs_le _ _) d.coefficient_lt
  scale_le := Nat.le_trans (strip_scale_le _ _) d.scale_le
  coefficient_eq_zero := nofun

/-- Cuts the fraction to `places` digits, toward zero; a shorter fraction stays as it is.
What is cut away leaves no trace, so only a zero that had a sign before keeps one. -/
def truncate (places : Nat) (d : Decimal) : Decimal :=
  if h : d.scale ≤ places then d else
    { coefficient := d.coefficient.tdiv (tenTo (d.scale - places))
      scale := places
      minusZero := d.minusZero
      coefficient_lt := by
        rw [Int.natAbs_tdiv]
        exact Nat.lt_of_le_of_lt (Nat.div_le_self _ _) d.coefficient_lt
      scale_le := by have := d.scale_le; omega
      coefficient_eq_zero := fun h => by rw [d.coefficient_eq_zero h, Int.zero_tdiv] }

end Decimal

end WagerLedger
