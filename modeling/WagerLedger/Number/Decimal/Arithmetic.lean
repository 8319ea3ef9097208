import WagerLedger.Number.Decimal

/-! # Sums and products of decimals

An exact result is brought to the largest scale, at most 28, at which its coefficient fits,
rounded there once, half to even. Of the results that are rounded to zero, only a product of
long factors keeps its sign. -/
namespace WagerLedger.Decimal

/-- The fraction `c / 10 ^ s` at the largest scale from `t` down at which it fits. -/
def fitFrom (c : Int) (s : Nat) : Nat → Option Decimal
  | 0 => ofParts? (roundEvenInt c (tenTo s)) 0
  | t + 1 =>
    match ofParts? (roundEvenInt c (tenTo (s - (t + 1)))) (t + 1) with
    | some d => some d
    | none => fitFrom c s t

/-- The fraction `c / 10 ^ s` as a decimal, `none` where even the rounded whole number is too large. -/
def fit? (c : Int) (s : Nat) : Option Decimal := fitFrom c s (min s maxScale)

/-- The coefficient that the same number has at a larger scale. -/
def coefficientAt (d : Decimal) (s : Nat) : Int := d.coefficient * tenTo (s - d.scale)

/-- A zero operand leaves the other one as it is, scale included. -/
def add? (x y : Decimal) : Option Decimal :=
  if x.isZero then some y
  else if y.isZero then some x
  else
    let s := max x.scale y.scale
    fit? (x.coefficientAt s + y.coefficientAt s) s

def sub? (x y : Decimal) : Option Decimal := add? x y.neg

/-- Short factors whose product has more than this many places give a bare zero. -/
def vanishingPlaces : Nat := 47

def isShort (d : Decimal) : Bool := decide (d.coefficient.natAbs < 4294967296)

/-- A zero factor gives a bare zero. -/
def mul? (x y : Decimal) : Option Decimal :=
  if x.isZero || y.isZero then some .zero
  else
    let product := fit? (x.coefficient * y.coefficient) (x.scale + y.scale)
    if x.isShort && y.isShort then
      if vanishingPlaces < x.scale + y.scale then some .zero else product
    else product.map (signZero (x.isNegative != y.isNegative))

end WagerLedger.Decimal
